import Backplane.Random.Xorshift
/-!
# `Backplane.Contract.Scoring`: points and prizes for kills

Each scorer makes an award for a kill; awards add up in 32-bit saturating arithmetic, and the first
award that names a prize decides it.

A scorer models a `KillPoints`: `BountyPoints`, `FlagPoints` or `KillPrizes`.  A `Kill` models a
`KillContext`, an `Award` a `KillReward`, and `Award.total` the sum that `award_kill` makes.
-/
namespace Backplane

/-- What was carried by the killed player. -/
structure Kill where
  bounty : Int
  flags : UInt32
deriving DecidableEq, Repr

structure Award where
  points : Int := 0
  prize : Option Int := none
deriving DecidableEq, Repr

/-- The least and the greatest number of points. -/
def leastPoints : Int := -2147483648

@[inherit_doc leastPoints]
def mostPoints : Int := 2147483647

/-- The number of points nearest to `n`. -/
def saturate (n : Int) : Int := max leastPoints (min n mostPoints)

/-- The number of flags carried: one bit each. -/
def flagCount (flags : UInt32) : Nat := (List.range 32).countP fun i => flags.toNat.testBit i

namespace Award

def add (total more : Award) : Award :=
  ⟨saturate (total.points + more.points), total.prize.or more.prize⟩

def total (awards : List Award) : Award := awards.foldl add {}

end Award

def bountyAward (k : Kill) : Award := ⟨k.bounty, none⟩

/-- A fixed number of points for each flag. -/
def flagAward (perFlag : Int) (k : Kill) : Award := ⟨saturate (perFlag * flagCount k.flags), none⟩

/-- A draw for a prize: one kill in `chance` earns one of the prizes `1 … prizes`. -/
def prizeAward (chance prizes : UInt32) (g : Xorshift) : Award × Xorshift :=
  let (luck, g) := g.below chance
  if luck = 0 then
    let (pick, g) := g.below prizes
    (⟨0, some (pick.toNat + 1)⟩, g)
  else (⟨0, none⟩, g)

end Backplane
