import Backplane.Random.Xorshift
import Mathlib.Data.Nat.Bitwise
import Mathlib.Logic.Function.Iterate
/-!
# `Backplane.Proofs.Random.Residues`: sums of steps

A step is linear: what becomes of a sum, bit by bit and modulo two, is the sum of what becomes of its
parts.  A number stands for a sum of steps, bit `i` for `i` steps at once, that is for a polynomial
in the step with coefficients modulo two.  There is one of degree 64 that turns every word into
nothing (`combine_modulus`), so polynomials matter only up to that one, and numbers of 64 bits stand
for all of them:

    one step more          next residue r
    one after the other    times a b
    n steps                power n

With these it is a computation what becomes of a word after however many steps.

A step is that of the `XorShiftPrng`.
-/
namespace Backplane.Xorshift

variable {a b m n p q : Nat}

/-! ## Linear maps -/

/-- Whether a map of numbers keeps sums, bit by bit and modulo two. -/
def Linear (f : Nat → Nat) : Prop := ∀ m n, f (m ^^^ n) = f m ^^^ f n

namespace Linear

variable {f h : Nat → Nat}

theorem map_zero (hf : Linear f) : f 0 = 0 := by
  have hsum := hf 0 0
  rwa [Nat.xor_self, Nat.xor_self] at hsum

theorem comp (hf : Linear f) (hh : Linear h) : Linear fun n => f (h n) := fun m n =>
  (congrArg f (hh m n)).trans (hf _ _)

theorem add (hf : Linear f) (hh : Linear h) : Linear fun n => f n ^^^ h n := by
  intro m n
  show f (m ^^^ n) ^^^ h (m ^^^ n) = (f m ^^^ h m) ^^^ (f n ^^^ h n)
  rw [hf, hh]
  ac_rfl

theorem id : Linear fun n => n := fun _ _ => rfl

theorem shiftLeft (i : Nat) : Linear fun n => n <<< i % 2 ^ 64 := by
  intro m n
  show (m ^^^ n) <<< i % 2 ^ 64 = (m <<< i % 2 ^ 64) ^^^ (n <<< i % 2 ^ 64)
  rw [Nat.shiftLeft_xor_distrib, Nat.xor_mod_two_pow]

theorem shiftRight (i : Nat) : Linear fun n => n >>> i := fun _ _ => Nat.shiftRight_xor_distrib

end Linear

/-! ## Words as numbers -/

/-- A step, on numbers. -/
def advanceNat (n : Nat) : Nat :=
  let a := n ^^^ n <<< 13 % 2 ^ 64
  let b := a ^^^ a >>> 7
  b ^^^ b <<< 17 % 2 ^ 64

theorem toNat_advance (x : UInt64) : (advance x).toNat = advanceNat x.toNat := by
  simp only [advance, advanceNat, UInt64.toNat_xor, UInt64.toNat_shiftLeft,
    UInt64.toNat_shiftRight, UInt64.reduceToNat, Nat.reduceMod]

theorem toNat_iterate_next (n : Nat) (g : Xorshift) :
    (next^[n] g).state.toNat = advanceNat^[n] g.state.toNat := by
  induction n generalizing g with
  | zero => rfl
  | succ n ih => rw [Function.iterate_succ_apply, Function.iterate_succ_apply, ih, next, toNat_advance]

theorem linear_advanceNat : Linear advanceNat :=
  have hfirst : Linear fun n => n ^^^ n <<< 13 % 2 ^ 64 := .add .id (.shiftLeft 13)
  have hsecond : Linear fun n => n ^^^ n >>> 7 := .add .id (.shiftRight 7)
  have hthird : Linear fun n => n ^^^ n <<< 17 % 2 ^ 64 := .add .id (.shiftLeft 17)
  hthird.comp (hsecond.comp hfirst)

/-! ## Sums of steps -/

/-- What becomes of a word by the sum of steps that a number stands for. -/
def combine (p n : Nat) : Nat :=
  Nat.binaryRec 0 (fun bit _ sum => (if bit then n else 0) ^^^ advanceNat sum) p

theorem combine_zero : combine 0 n = 0 := by
  rw [combine, Nat.binaryRec_zero]

theorem combine_bit (bit : Bool) (p : Nat) :
    combine (Nat.bit bit p) n = (if bit then n else 0) ^^^ advanceNat (combine p n) := by
  have hnothing : (if false = true then n else 0) ^^^ advanceNat 0 = 0 := by
    rw [linear_advanceNat.map_zero, if_neg Bool.false_ne_true, Nat.xor_self]
  rw [combine, Nat.binaryRec_eq _ _ (.inl hnothing)]
  rfl

theorem combine_one : combine 1 n = n := by
  have h := combine_bit (n := n) true 0
  rw [combine_zero, linear_advanceNat.map_zero] at h
  simpa using h

theorem combine_double (p : Nat) : combine (2 * p) n = advanceNat (combine p n) := by
  simpa using combine_bit (n := n) false p

/-- Sums stand for sums. -/
theorem combine_xor (p q : Nat) : combine (p ^^^ q) n = combine p n ^^^ combine q n := by
  induction p using Nat.binaryRec generalizing q with
  | zero => simp [combine_zero]
  | bit b p ih =>
      induction q using Nat.bitCasesOn with
      | bit c q =>
          have hbits : (if b != c then n else 0) = (if b then n else 0) ^^^ (if c then n else 0) := by
            cases b <;> cases c <;> simp
          rw [Nat.xor_bit, combine_bit, combine_bit, combine_bit, ih, linear_advanceNat, hbits]
          ac_rfl

theorem linear_combine (p : Nat) : Linear (combine p) := by
  induction p using Nat.binaryRec with
  | zero => exact fun m n => by simp [combine_zero]
  | bit b p ih =>
      have hrest := linear_advanceNat.comp ih
      have hbit : Linear fun n => if b then n else 0 := by
        cases b with
        | false => exact fun _ _ => (Nat.xor_self 0).symm
        | true => exact .id
      exact fun m n => by simpa only [combine_bit] using hbit.add hrest m n

/-- It makes no difference whether one more step is taken before or afterwards. -/
theorem combine_advanceNat (p n : Nat) : combine p (advanceNat n) = advanceNat (combine p n) := by
  induction p using Nat.binaryRec with
  | zero => rw [combine_zero, combine_zero, linear_advanceNat.map_zero]
  | bit b p ih =>
      rw [combine_bit, combine_bit, ih, linear_advanceNat]
      cases b with
      | false => rw [if_neg Bool.false_ne_true, if_neg Bool.false_ne_true, linear_advanceNat.map_zero]
      | true => rfl

/-! ## The sum that comes to nothing -/

/-- A map that turns single bits into nothing turns everything into nothing. -/
theorem Linear.eq_zero {f : Nat → Nat} (hf : Linear f) {k : Nat} (hbits : ∀ i < k, f (2 ^ i) = 0)
    (hn : n < 2 ^ k) : f n = 0 := by
  induction k generalizing f n with
  | zero =>
      obtain rfl : n = 0 := by omega
      exact hf.map_zero
  | succ k ih =>
      induction n using Nat.bitCasesOn with
      | bit b n =>
          -- the lowest bit by itself, and the others as those of half the number
          have hlowest : f (Nat.bit b 0) = 0 := by
            cases b with
            | false => exact hf.map_zero
            | true => exact hbits 0 (Nat.succ_pos k)
          have hdouble : Linear (Nat.bit false) := fun m n => (Nat.xor_bit false m false n).symm
          have hhalves : Linear fun n => f (Nat.bit false n) := hf.comp hdouble
          have hrest : ∀ i < k, f (Nat.bit false (2 ^ i)) = 0 := by
            intro i hi
            have hnext := hbits (i + 1) (Nat.succ_lt_succ hi)
            rwa [Nat.pow_succ, Nat.mul_comm] at hnext
          have hothers : f (Nat.bit false n) = 0 :=
            ih (n := n) hhalves hrest (Nat.bit_lt_two_pow_succ_iff.mp hn)
          have hsplit : Nat.bit b n = Nat.bit b 0 ^^^ Nat.bit false n := by
            rw [Nat.xor_bit, Nat.zero_xor]
            cases b <;> rfl
          rw [hsplit, hf, hlowest, hothers, Nat.xor_self]

/-- The polynomial of least degree that turns every word into nothing. -/
def modulus : Nat := 0x1013ed4a358913201

theorem combine_modulus (hn : n < 2 ^ 64) : combine modulus n = 0 := by
  have hbits : ∀ i < 64, combine modulus (2 ^ i) = 0 := by decide +kernel
  exact (linear_combine modulus).eq_zero hbits hn

/-! ## Residues -/

/-- The residue for one step more. -/
def nextResidue (r : Nat) : Nat := if 2 ^ 63 ≤ r then 2 * r ^^^ modulus else 2 * r

theorem combine_nextResidue (hn : n < 2 ^ 64) (r : Nat) :
    combine (nextResidue r) n = advanceNat (combine r n) := by
  rw [nextResidue]
  split
  · rw [combine_xor, combine_modulus hn, Nat.xor_zero, combine_double]
  · exact combine_double r

/-- The residue of a product. -/
def times (a b : Nat) : Nat :=
  Nat.binaryRec (fun _ => 0) (fun bit _ rest b => (if bit then b else 0) ^^^ rest (nextResidue b)) a b

theorem times_zero (b : Nat) : times 0 b = 0 := by
  rw [times, Nat.binaryRec_zero]

theorem times_bit (bit : Bool) (a b : Nat) :
    times (Nat.bit bit a) b = (if bit then b else 0) ^^^ times a (nextResidue b) := by
  rw [times, Nat.binaryRec_eq _ _ (.inl (by simp))]
  rfl

/-- Products stand for one sum of steps after the other. -/
theorem combine_times (hn : n < 2 ^ 64) (a b : Nat) :
    combine (times a b) n = combine a (combine b n) := by
  induction a using Nat.binaryRec generalizing b with
  | zero => rw [times_zero, combine_zero, combine_zero]
  | bit c a ih =>
      rw [times_bit, combine_xor, ih, combine_nextResidue hn, combine_advanceNat, combine_bit]
      cases c with
      | false => rw [if_neg Bool.false_ne_true, if_neg Bool.false_ne_true, combine_zero]
      | true => rfl

/-- The residue for some number of steps. -/
def power (e : Nat) : Nat :=
  Nat.binaryRec 1 (fun bit _ half =>
    if bit then nextResidue (times half half) else times half half) e

theorem power_zero : power 0 = 1 := by
  rw [power, Nat.binaryRec_zero]

theorem power_bit (bit : Bool) (e : Nat) : power (Nat.bit bit e) =
    if bit then nextResidue (times (power e) (power e)) else times (power e) (power e) := by
  have hone : times 1 1 = 1 := by decide +kernel
  rw [power, Nat.binaryRec_eq _ _ (.inl (by simp [hone]))]
  rfl

theorem advanceNat_lt (hn : n < 2 ^ 64) : advanceNat n < 2 ^ 64 := by
  have hword : (UInt64.ofNat n).toNat = n := UInt64.toNat_ofNat_of_lt' hn
  rw [← hword, ← toNat_advance]
  exact UInt64.toNat_lt _

/-- Powers stand for as many steps. -/
theorem combine_power (hn : n < 2 ^ 64) (e : Nat) : combine (power e) n = advanceNat^[e] n := by
  induction e using Nat.binaryRec generalizing n with
  | zero => rw [power_zero, combine_one]; rfl
  | bit c e ih =>
      have hhalf : advanceNat^[e] n < 2 ^ 64 :=
        Function.Iterate.rec (· < 2 ^ 64) hn (fun _ => advanceNat_lt) e
      have hsquare : combine (times (power e) (power e)) n = advanceNat^[2 * e] n := by
        rw [combine_times hn, ih hn, ih hhalf, ← Function.iterate_add_apply, Nat.two_mul]
      rw [power_bit]
      cases c with
      | false => exact hsquare
      | true =>
          rw [if_pos rfl, combine_nextResidue hn, hsquare]
          exact (Function.iterate_succ_apply' advanceNat (2 * e) n).symm

end Backplane.Xorshift
