/-!
# `Backplane.Random.Xorshift`: a 64-bit xorshift generator

The state is one non-zero word; a step shifts left by 13, right by 7 and left by 17, each time
adding the result modulo two.  The new state is also the word that the step yields.  Everything
drawn (`nextWord`, `below`, `fraction`, `fastBytes`) is a function of the words of successive steps.

This models the `XorShiftPrng`, and what can be drawn is what a `Prng` offers.
-/
namespace Backplane

/-- A generator, known by the word it holds. -/
structure Xorshift where
  state : UInt64
deriving DecidableEq, Repr

namespace Xorshift

/-- The generator of a seed.  The all-zero word would never change, so seed 0 stands for 1. -/
def ofSeed (seed : UInt64) : Xorshift := ⟨if seed = 0 then 1 else seed⟩

def advance (x : UInt64) : UInt64 :=
  let a := x ^^^ (x <<< 13)
  let b := a ^^^ (a >>> 7)
  b ^^^ (b <<< 17)

def next (g : Xorshift) : Xorshift := ⟨advance g.state⟩

/-- One step: the word it yields and the generator after it. -/
def step (g : Xorshift) : UInt64 × Xorshift := (g.next.state, g.next)

/-! ## What is drawn -/

/-- A 32-bit word: the upper half of a step. -/
def nextWord (g : Xorshift) : UInt32 × Xorshift := ((g.next.state >>> 32).toUInt32, g.next)

/-- The share of `bound` that a 32-bit word stands for: `⌊word · bound / 2³²⌋`. -/
def scale (bound word : UInt32) : UInt32 := ((word.toUInt64 * bound.toUInt64) >>> 32).toUInt32

/-- A number below `bound`, or 0 when `bound` is 0; one step. -/
def below (bound : UInt32) (g : Xorshift) : UInt32 × Xorshift :=
  (scale bound g.nextWord.1, g.nextWord.2)

/-- The binary64 encoding of `n / 2⁵³`, for `n` below `2⁵³`: the leading one of `n` becomes
implicit, the other bits are shifted up to 52 places, and the exponent field is 970 plus the place
of the leading one. -/
def unitBits (n : Nat) : Nat :=
  if n = 0 then 0
  else (970 + n.log2) * Nat.pow 2 52 + (n * Nat.pow 2 (52 - n.log2) - Nat.pow 2 52)

/-- A fraction in `[0, 1)` with 53 random bits, as the bits of its binary64 encoding. -/
def fraction (g : Xorshift) : UInt64 × Xorshift :=
  (UInt64.ofNat (unitBits (g.next.state >>> 11).toNat), g.next)

def wordBytes (w : UInt64) : List UInt8 :=
  (List.range 8).map fun i => (w >>> (8 * UInt64.ofNat i)).toUInt8

/-- `n` bytes: eight from each step, the last step's surplus dropped. -/
def fastBytes (n : Nat) (g : Xorshift) : List UInt8 × Xorshift :=
  if n = 0 then ([], g)
  else
    let one := g.step
    let rest := fastBytes (n - 8) one.2
    ((wordBytes one.1).take n ++ rest.1, rest.2)
termination_by n

/-! ## Sequences of draws -/

inductive Draw
  | word
  | below (bound : UInt32)
  | fraction
  | fastBytes (count : Nat)
  /-- Bytes from a secure source, which leaves the generator alone. -/
  | secureBytes (count : Nat)
deriving DecidableEq, Repr

inductive Drawn
  | number (n : UInt32)
  | fraction (bits : UInt64)
  | bytes (bs : List UInt8)
  /-- Whether a secure source was available; its bytes are not recorded. -/
  | secured (available : Bool)
deriving DecidableEq, Repr

def draw (g : Xorshift) : Draw → Drawn × Xorshift
  | .word => (.number g.nextWord.1, g.nextWord.2)
  | .below bound => (.number (g.below bound).1, (g.below bound).2)
  | .fraction => (.fraction g.fraction.1, g.fraction.2)
  | .fastBytes n => (.bytes (g.fastBytes n).1, (g.fastBytes n).2)
  | .secureBytes _ => (.secured true, g)

def drawAll : List Draw → Xorshift → List Drawn × Xorshift
  | [], g => ([], g)
  | d :: ds, g =>
    let one := g.draw d
    let rest := drawAll ds one.2
    (one.1 :: rest.1, rest.2)

end Xorshift

end Backplane
