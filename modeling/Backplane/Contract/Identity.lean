import Backplane.Text.Hex
/-!
# `Backplane.Contract.Identity`: identities of players and arenas

An identity is 128 bits.  It is written as 32 lower-case hexadecimal digits in groups of 8, 4, 4, 4
and 12 with hyphens between them.  It is read from that form, also in braces or after `urn:uuid:`,
and from the 32 digits alone; letters may be of either case.

Identities model `PlayerId` and `ArenaId`.
-/
namespace Backplane

structure Identity where
  bits : BitVec 128
deriving DecidableEq, Repr

namespace Identity

/-- The lengths of the groups between hyphens. -/
def groups : List Nat := [8, 4, 4, 4, 12]

/-- Puts a hyphen between groups of the given lengths. -/
def hyphenate : List Nat → List Char → List Char
  | [], cs => cs
  | [_], cs => cs
  | n :: ns, cs => cs.take n ++ '-' :: hyphenate ns (cs.drop n)

/-- Takes the hyphens between groups of the given lengths out again. -/
def unhyphenate? : List Nat → List Char → Option (List Char)
  | [], cs => if cs.isEmpty then some [] else none
  | [n], cs => if cs.length = n then some cs else none
  | n :: ns, cs =>
    match cs.drop n with
    | '-' :: rest => (unhyphenate? ns rest).map (cs.take n ++ ·)
    | _ => none

def render (id : Identity) : String := String.ofList (hyphenate groups (Hex.fixed 32 id.bits.toNat))

def ofDigits? (cs : List Char) : Option Identity :=
  if cs.length = 32 then (Hex.read? cs).map fun n => ⟨BitVec.ofNat 128 n⟩ else none

/-- What may stand before an identity, in letters of either case. -/
def scheme : List Char := "urn:uuid:".toList

/-- Takes `{` and `}`, or `urn:uuid:`, off a text. -/
def unwrap (cs : List Char) : List Char :=
  match cs with
  | '\x7b' :: rest => if rest.getLast? = some '\x7d' then rest.dropLast else cs
  | _ => if (cs.take scheme.length).map Char.toLower = scheme then cs.drop scheme.length else cs

/-- Reads any accepted form. -/
def read? (s : String) : Option Identity :=
  let cs := s.toList
  if cs.length = 32 then ofDigits? cs
  else (unhyphenate? groups (unwrap cs)).bind ofDigits?

end Identity

end Backplane
