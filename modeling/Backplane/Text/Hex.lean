/-!
# `Backplane.Text.Hex`: hexadecimal digits

Digits are written in lower case and read in either case.

They stand in a `PlayerId`, and in escapes.
-/
namespace Backplane.Hex

def value? (c : Char) : Option Nat :=
  if '0' ≤ c ∧ c ≤ '9' then some (c.toNat - 48)
  else if 'a' ≤ c ∧ c ≤ 'f' then some (c.toNat - 87)
  else if 'A' ≤ c ∧ c ≤ 'F' then some (c.toNat - 55)
  else none

/-- The lower-case digit of a value below 16. -/
def digit (n : Nat) : Char := if n < 10 then Char.ofNat (48 + n) else Char.ofNat (87 + n)

/-- The upper-case digit of a value below 16. -/
def upperDigit (n : Nat) : Char := if n < 10 then Char.ofNat (48 + n) else Char.ofNat (55 + n)

/-- The last `width` digits of `n`, the most significant first. -/
def fixed : Nat → Nat → List Char
  | 0, _ => []
  | width + 1, n => digit (n / 16 ^ width % 16) :: fixed width n

/-- The digits of `n` without leading zeros. -/
def digits (n : Nat) : List Char := fixed (if n = 0 then 1 else n.log2 / 4 + 1) n

def read? (cs : List Char) : Option Nat :=
  cs.foldlM (fun n c => (value? c).map (16 * n + ·)) 0

def ofBytes (bs : List UInt8) : String := String.ofList (bs.flatMap fun b => fixed 2 b.toNat)

def bytes? : List Char → Option (List UInt8)
  | [] => some []
  | [_] => none
  | a :: b :: rest => do
    let hi ← value? a
    let lo ← value? b
    let more ← bytes? rest
    some (UInt8.ofNat (16 * hi + lo) :: more)

end Backplane.Hex
