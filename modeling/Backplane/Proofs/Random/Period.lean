import Backplane.Proofs.Random.Residues
import Backplane.Proofs.Random.Stream
import Mathlib.Data.List.Prime
import Mathlib.Dynamics.PeriodicPts.Defs
import Mathlib.Order.Interval.Finset.Nat
import Mathlib.Tactic.NormNum.Prime
/-!
# `Backplane.Proofs.Random.Period`: every word before any again

There are 2⁶⁴ - 1 words other than 0, and after so many steps any word is back.  It is not back
before.  Otherwise it would be back after one `p`-th of them already, for some prime factor `p` of
their number:

    3 · 5 · 17 · 257 · 641 · 65537 · 6700417 = 2⁶⁴ - 1

But the residue for one `p`-th of the steps, less that for none, has an inverse (`inverses`); what it
turns into nothing was nothing before.  So the words that follow a word other than 0 are as many as
there are, and none is left out.

The words are the states of the `XorShiftPrng`.
-/
namespace Backplane

open Function

/-- What is back after `n` steps, and for no prime factor `p` of `n` after `n / p`, is back after `n`
steps for the first time. -/
theorem minimalPeriod_eq_of_prime {α : Type} {f : α → α} {x : α} {n : Nat}
    (h : IsPeriodicPt f n x)
    (hprime : ∀ p, p.Prime → p ∣ n → ¬ IsPeriodicPt f (n / p) x) : minimalPeriod f x = n := by
  obtain ⟨k, hk⟩ := h.minimalPeriod_dvd
  by_contra hne
  have hone : k ≠ 1 := by
    rintro rfl
    exact hne (by rw [hk, Nat.mul_one])
  obtain ⟨p, hp, m, rfl⟩ := Nat.exists_prime_and_dvd hone
  have hshare : n / p = minimalPeriod f x * m := by
    rw [hk, Nat.mul_left_comm, Nat.mul_div_cancel_left _ hp.pos]
  refine hprime p hp (hk ▸ (Dvd.intro _ rfl : p ∣ p * m).mul_left _) ?_
  rw [hshare, isPeriodicPt_iff_minimalPeriod_dvd]
  exact Nat.dvd_mul_right _ _

namespace Xorshift

variable {g h : Xorshift} {n p : Nat} {x : Nat × Nat}

/-! ## The number of steps -/

/-- The number of words other than 0. -/
def cycle : Nat := 2 ^ 64 - 1

/-- The prime factors of the number of words, each with the inverse of the residue for one such part
of the steps, less that for none. -/
def inverses : List (Nat × Nat) :=
  [(3, 0xd742ca58f5d785e2), (5, 0xa3f64d1fb612f669), (17, 0x63f43995a1b49645),
    (257, 0x7d573a75b5260c4d), (641, 0x1ead61508d13286), (65537, 0xed7248a2317d33b1),
    (6700417, 0x483b08aa5d3741b5)]

theorem times_inverse (hx : x ∈ inverses) : times x.2 (power (cycle / x.1) ^^^ 1) = 1 := by
  have hall : ∀ x ∈ inverses, times x.2 (power (cycle / x.1) ^^^ 1) = 1 := by decide +kernel
  exact hall x hx

/-- The list has all prime factors. -/
theorem exists_inverse (hp : p.Prime) (hdvd : p ∣ cycle) : ∃ x ∈ inverses, x.1 = p := by
  have hprod : cycle = (inverses.map Prod.fst).prod := rfl
  have hprimes : ∀ q ∈ inverses.map Prod.fst, q.Prime := by norm_num [inverses]
  rw [hprod, hp.prime.dvd_prod_iff] at hdvd
  obtain ⟨q, hq, hpq⟩ := hdvd
  obtain rfl := (Nat.prime_dvd_prime_iff_eq hp (hprimes q hq)).mp hpq
  simpa using hq

/-! ## Coming back -/

theorem state_injective : Injective state := by
  rintro ⟨x⟩ ⟨y⟩ rfl
  rfl

theorem toNat_state_ne (hg : g.state ≠ 0) : g.state.toNat ≠ 0 :=
  fun h => hg (UInt64.toNat_inj.mp h)

/-- After as many steps as there are words every word is back. -/
theorem iterate_cycle (hn : n < 2 ^ 64) : advanceNat^[cycle] n = n := by
  have hpower : power cycle = 1 := by decide +kernel
  rw [← combine_power hn, hpower, combine_one]

/-- Only 0 is back after such a part of the steps. -/
theorem eq_zero_of_iterate (hx : x ∈ inverses) (hn : n < 2 ^ 64)
    (hback : advanceNat^[cycle / x.1] n = n) : n = 0 := by
  have hnothing : combine (power (cycle / x.1) ^^^ 1) n = 0 := by
    rw [combine_xor, combine_power hn, hback, combine_one, Nat.xor_self]
  calc n = combine 1 n := combine_one.symm
    _ = combine (times x.2 (power (cycle / x.1) ^^^ 1)) n := by rw [times_inverse hx]
    _ = combine x.2 0 := by rw [combine_times hn, hnothing]
    _ = 0 := (linear_combine x.2).map_zero

theorem isPeriodicPt_next :
    IsPeriodicPt next n g ↔ advanceNat^[n] g.state.toNat = g.state.toNat := by
  rw [← toNat_iterate_next, UInt64.toNat_inj, state_injective.eq_iff]
  rfl

theorem isPeriodicPt_cycle (g : Xorshift) : IsPeriodicPt next cycle g :=
  isPeriodicPt_next.mpr (iterate_cycle (UInt64.toNat_lt _))

theorem minimalPeriod_next (hg : g.state ≠ 0) : minimalPeriod next g = cycle := by
  refine minimalPeriod_eq_of_prime (isPeriodicPt_cycle g) fun p hp hdvd hback => ?_
  obtain ⟨x, hx, rfl⟩ := exists_inverse hp hdvd
  exact toNat_state_ne hg
    (eq_zero_of_iterate hx (UInt64.toNat_lt _) (isPeriodicPt_next.mp hback))

/-! ## Never 0 -/

theorem next_state_ne (hg : g.state ≠ 0) : g.next.state ≠ 0 := by
  intro hzero
  have hback : next^[cycle] g = g := isPeriodicPt_cycle g
  have hfixed : IsFixedPt next g.next := state_injective (by
    show advance g.next.state = g.next.state
    rw [hzero]
    rfl)
  have hcycle : cycle = cycle - 1 + 1 := rfl
  rw [hcycle, iterate_succ_apply, hfixed.iterate] at hback
  exact hg (hback ▸ hzero)

/-- No step leads to 0 but from 0. -/
theorem iterate_state_ne (hg : g.state ≠ 0) (n : Nat) : (next^[n] g).state ≠ 0 :=
  Iterate.rec (fun g : Xorshift => g.state ≠ 0) hg (fun _ => next_state_ne) n

theorem ofSeed_state_ne (seed : UInt64) : (ofSeed seed).state ≠ 0 := by
  rw [ofSeed]
  split
  · decide
  · assumption

/-! ## All words -/

/-- Within a cycle every word other than 0 comes up, and once. -/
theorem existsUnique_iterate (hg : g.state ≠ 0) (hh : h.state ≠ 0) :
    ∃! n, n < cycle ∧ next^[n] g = h := by
  have hinj : Set.InjOn (fun n => next^[n] g) (Set.Iio cycle) :=
    minimalPeriod_next hg ▸ iterate_injOn_Iio_minimalPeriod
  have hstate : Injective fun g : Xorshift => g.state.toNat :=
    fun _ _ hxy => state_injective (UInt64.toNat_inj.mp hxy)
  have hmaps : Set.MapsTo (fun n => (next^[n] g).state.toNat) (Finset.range cycle)
      (Finset.Ioo 0 (2 ^ 64)) := fun n _ =>
    Finset.mem_coe.mpr (Finset.mem_Ioo.mpr
      ⟨Nat.pos_of_ne_zero (toNat_state_ne (iterate_state_ne hg n)), UInt64.toNat_lt _⟩)
  have hcount : (Finset.Ioo 0 (2 ^ 64)).card ≤ (Finset.range cycle).card := by
    rw [Nat.card_Ioo, Finset.card_range]
    exact Nat.le_refl cycle
  have hsurj := Finset.surjOn_of_injOn_of_card_le _ hmaps
    (fun m hm n hn hmn => hinj (by simpa using hm) (by simpa using hn) (hstate hmn)) hcount
  obtain ⟨n, hn, hnh⟩ := hsurj (Finset.mem_coe.mpr (Finset.mem_Ioo.mpr
    ⟨Nat.pos_of_ne_zero (toNat_state_ne hh), UInt64.toNat_lt _⟩))
  have hlt : n < cycle := by simpa using hn
  refine ⟨n, ⟨hlt, hstate hnh⟩, ?_⟩
  rintro m ⟨hm, hmh⟩
  exact hinj hm hlt (hmh.trans (hstate hnh).symm)

/-- Whatever is drawn, a generator never comes to 0.  From any other word it comes back to it after
2⁶⁴ - 1 steps and not before; by then every word but 0 has come up, each once. -/
theorem full_period :
    (∀ (seed : UInt64) (draws : List Draw), (drawAll draws (ofSeed seed)).2.state ≠ 0) ∧
    ∀ g : Xorshift, g.state ≠ 0 →
      next^[2 ^ 64 - 1] g = g ∧ (∀ n, 0 < n → n < 2 ^ 64 - 1 → next^[n] g ≠ g) ∧
      ∀ h : Xorshift, h.state ≠ 0 → ∃! n, n < 2 ^ 64 - 1 ∧ next^[n] g = h := by
  refine ⟨fun seed draws => ?_, fun g hg => ⟨?_, fun n hpos hlt hback => ?_, fun h hh => ?_⟩⟩
  · rw [drawAll_snd]
    exact iterate_state_ne (ofSeed_state_ne seed) _
  · exact isPeriodicPt_cycle g
  · exact not_isPeriodicPt_of_pos_of_lt_minimalPeriod hpos.ne' (minimalPeriod_next hg ▸ hlt) hback
  · exact existsUnique_iterate hg hh

/-- The generator of seed 0 begins with 1, and does not come to 0 whatever is drawn from it; it is
back at 1 after a whole cycle and not after half of one, and comes to the greatest word meanwhile. -/
theorem full_period_one :
    (drawAll [.word, .below 6, .fraction, .fastBytes 13] (ofSeed 0)).2.state ≠ 0 ∧
    next^[2 ^ 64 - 1] (ofSeed 0) = ofSeed 0 ∧ next^[2 ^ 63] (ofSeed 0) ≠ ofSeed 0 ∧
    ∃! n, n < 2 ^ 64 - 1 ∧ next^[n] (ofSeed 0) = ⟨0xffffffffffffffff⟩ := by
  obtain ⟨hdrawn, hperiod⟩ := full_period
  obtain ⟨hback, hfirst, hall⟩ := hperiod (ofSeed 0) (by decide)
  exact ⟨hdrawn 0 _, hback, hfirst (2 ^ 63) (by decide) (by decide), hall _ (by decide)⟩

end Xorshift

end Backplane
