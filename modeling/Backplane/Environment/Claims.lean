/-!
# `Backplane.Environment.Claims`: the modules that operations are working on

An operation of the lifecycle claims the modules that it names, one after another, and gives its
claims back when it ends.  If another operation has claimed one of them it goes no further, and gives
back what it has taken so far.

A `Claim` models `InFlight`, and `Claim.takeAll` its `claim`.
-/
namespace Backplane

/-- The modules claimed by anybody, and those among them that one operation has taken so far. -/
structure Claim where
  claims : List String
  taken : List String := []
deriving DecidableEq, Repr

def unclaim (claims names : List String) : List String := claims.filter fun c => !names.contains c

namespace Claim

/-- Claims one more module; `none` if another operation has.  To name a module again is harmless. -/
def take (c : Claim) (name : String) : Option Claim :=
  if c.taken.contains name then some c
  else if c.claims.contains name then none
  else some { claims := c.claims ++ [name], taken := c.taken ++ [name] }

/-- Gives back what the operation has taken. -/
def giveBack (c : Claim) : Claim := { claims := unclaim c.claims c.taken }

/-- Claims modules in order.  Yields the first one that another operation has claimed; then nothing
is kept. -/
def takeAll : List String → Claim → Except String Unit × Claim
  | [], c => (.ok (), c)
  | name :: rest, c =>
    match c.take name with
    | none => (.error name, c.giveBack)
    | some c' => takeAll rest c'

end Claim

end Backplane
