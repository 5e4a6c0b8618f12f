import Backplane.Environment.Consult
import Backplane.Zone.Modules
import Mathlib.Algebra.Order.Floor.Div
import Mathlib.Data.Set.Card
import Mathlib.Order.Interval.Finset.Nat
/-!
# `Backplane.Proofs.Random.Shares`: draws below a bound

The words are laid out in a row and cut into as many shares as the bound says: the number `k` is
drawn from the words from `⌈k · 2³² / bound⌉` on, up to where the next share begins.  The cuts are
`2³² / bound` words apart before they are rounded up, so a share has that many words, rounded down
or up.

The draws are `below` of the `XorShiftPrng`.
-/
namespace Backplane

/-! ## Rounding -/

section Rounding

variable {a b n q : Nat}

theorem lt_ceilDiv_iff (hb : 0 < b) : q < a ⌈/⌉ b ↔ b * q < a := by
  rw [← Nat.not_le, ceilDiv_le_iff_le_mul hb, Nat.not_le]

theorem le_mul_ceilDiv (hb : 0 < b) : a ≤ b * (a ⌈/⌉ b) := le_smul_ceilDiv hb

theorem mul_ceilDiv_lt (hb : 0 < b) : b * (a ⌈/⌉ b) < a + b := by
  have hle := Nat.mul_div_le (a + b - 1) b
  rw [Nat.ceilDiv_eq_add_pred_div]
  omega

/-- Rounding up is rounding down or one more. -/
theorem ceilDiv_le_succ (hb : 0 < b) : n ⌈/⌉ b ≤ n / b + 1 :=
  (ceilDiv_le_iff_le_mul hb).mpr (Nat.le_of_lt (Nat.lt_mul_div_succ n hb))

/-- What lies between two numbers `n` apart is, in units of `b` and both rounded up, `n` rounded down
or up. -/
theorem ceilDiv_sub_ceilDiv (hb : 0 < b) (a n : Nat) :
    (a + n) ⌈/⌉ b - a ⌈/⌉ b = n / b ∨ (a + n) ⌈/⌉ b - a ⌈/⌉ b = n ⌈/⌉ b := by
  have hlow : a ⌈/⌉ b + n / b ≤ (a + n) ⌈/⌉ b := by
    have hfirst := mul_ceilDiv_lt (a := a) hb
    have hunits := Nat.mul_div_le n b
    have hlast := le_mul_ceilDiv (a := a + n) hb
    have hlt : b * (a ⌈/⌉ b + n / b) < b * ((a + n) ⌈/⌉ b + 1) := by
      rw [Nat.mul_add, Nat.mul_add]
      omega
    exact Nat.le_of_lt_succ (Nat.lt_of_mul_lt_mul_left hlt)
  have hhigh : (a + n) ⌈/⌉ b ≤ a ⌈/⌉ b + n ⌈/⌉ b := by
    rw [ceilDiv_le_iff_le_mul hb, Nat.mul_add]
    exact Nat.add_le_add (le_mul_ceilDiv hb) (le_mul_ceilDiv hb)
  have hnear := ceilDiv_le_succ (n := n) hb
  omega

end Rounding

/-! ## One draw -/

namespace Xorshift

variable {bound word k : UInt32}

/-- No word of 32 bits is so great that the product would overflow. -/
theorem product_lt (bound word : UInt32) : word.toNat * bound.toNat < 2 ^ 64 :=
  Nat.mul_lt_mul'' (c := 2 ^ 32) (d := 2 ^ 32) word.toNat_lt bound.toNat_lt

theorem toNat_scale (bound word : UInt32) :
    (scale bound word).toNat = word.toNat * bound.toNat / 2 ^ 32 := by
  have hproduct := product_lt bound word
  have hquotient : word.toNat * bound.toNat / 2 ^ 32 < 2 ^ 32 :=
    Nat.div_lt_of_lt_mul hproduct
  simp only [scale, UInt64.toNat_toUInt32, UInt64.toNat_shiftRight, UInt64.toNat_mul,
    UInt32.toNat_toUInt64, Nat.mod_eq_of_lt hproduct, UInt64.reduceToNat, Nat.shiftRight_eq_div_pow,
    Nat.reduceMod]
  exact Nat.mod_eq_of_lt hquotient

theorem scale_zero (word : UInt32) : scale 0 word = 0 := by
  apply UInt32.toNat_inj.mp
  rw [toNat_scale]
  simp

theorem scale_lt (hb : bound ≠ 0) (word : UInt32) : scale bound word < bound := by
  have hpos : 0 < bound.toNat := Nat.pos_of_ne_zero fun h => hb (UInt32.toNat_inj.mp h)
  rw [UInt32.lt_iff_toNat_lt, toNat_scale]
  refine Nat.div_lt_of_lt_mul ?_
  exact Nat.mul_lt_mul_of_pos_right word.toNat_lt hpos

/-! ## Shares -/

/-- Where the share of a number begins. -/
def cut (bound : UInt32) (n : Nat) : Nat := n * 2 ^ 32 ⌈/⌉ bound.toNat

/-- A number is drawn from the words between two cuts. -/
theorem scale_eq_iff (hpos : 0 < bound.toNat) : scale bound word = k ↔
    cut bound k.toNat ≤ word.toNat ∧ word.toNat < cut bound (k.toNat + 1) := by
  rw [cut, cut, ceilDiv_le_iff_le_mul hpos, lt_ceilDiv_iff hpos, ← UInt32.toNat_inj, toNat_scale,
    Nat.mul_comm word.toNat, Nat.div_eq_iff (by decide)]
  omega

theorem cut_le (hk : k < bound) : cut bound (k.toNat + 1) ≤ 2 ^ 32 := by
  have hlt : k.toNat < bound.toNat := UInt32.lt_iff_toNat_lt.mp hk
  rw [cut, ceilDiv_le_iff_le_mul (Nat.zero_lt_of_lt hlt)]
  exact Nat.mul_le_mul_right _ hlt

/-- A share has as many words as there are between its cuts. -/
theorem ncard_share (hk : k < bound) :
    {word | scale bound word = k}.ncard = cut bound (k.toNat + 1) - cut bound k.toNat := by
  have hpos : 0 < bound.toNat := Nat.zero_lt_of_lt (UInt32.lt_iff_toNat_lt.mp hk)
  have himage : UInt32.toNat '' {word | scale bound word = k} =
      Finset.Ico (cut bound k.toNat) (cut bound (k.toNat + 1)) := by
    ext n
    rw [Set.mem_image, Finset.coe_Ico, Set.mem_Ico]
    constructor
    · rintro ⟨word, hword, rfl⟩
      exact (scale_eq_iff hpos).mp hword
    · intro hn
      have hword : (UInt32.ofNat n).toNat = n :=
        UInt32.toNat_ofNat_of_lt' (hn.2.trans_le (cut_le hk))
      exact ⟨UInt32.ofNat n, (scale_eq_iff hpos).mpr (by rwa [hword]), hword⟩
  have hinj : Function.Injective UInt32.toNat := fun _ _ => UInt32.toNat_inj.mp
  rw [← Set.ncard_image_of_injective _ hinj, himage, Set.ncard_coe_finset, Nat.card_Ico]

theorem ncard_share_even (hk : k < bound) :
    {word | scale bound word = k}.ncard = 2 ^ 32 / bound.toNat ∨
      {word | scale bound word = k}.ncard = 2 ^ 32 ⌈/⌉ bound.toNat := by
  have hpos : 0 < bound.toNat := Nat.zero_lt_of_lt (UInt32.lt_iff_toNat_lt.mp hk)
  rw [ncard_share hk, cut, cut, Nat.add_mul, Nat.one_mul]
  exact ceilDiv_sub_ceilDiv hpos _ _

end Xorshift

/-! ## Prizes -/

variable {chance prizes : UInt32} {g : Xorshift} {n : Int} {e : Environment} {kill : Kill}

theorem prizeAward_fst (chance prizes : UInt32) (g : Xorshift) :
    (prizeAward chance prizes g).1 =
      if (g.below chance).1 = 0 then ⟨0, some ((g.next.below prizes).1.toNat + 1)⟩
      else ⟨0, none⟩ := by
  show (if (g.below chance).1 = 0 then _ else _ : Award × Xorshift).1 = _
  split <;> rfl

/-- A prize is one of those there are. -/
theorem prizeAward_prize (hpos : prizes ≠ 0) (h : (prizeAward chance prizes g).1.prize = some n) :
    1 ≤ n ∧ n ≤ prizes.toNat := by
  have hpick : (g.next.below prizes).1.toNat < prizes.toNat :=
    UInt32.lt_iff_toNat_lt.mp (Xorshift.scale_lt hpos _)
  rw [prizeAward_fst] at h
  split at h
  · obtain rfl := Option.some.inj h
    omega
  · simp at h

/-- What is drawn from a published generator is drawn from some generator. -/
theorem Environment.withGenerator_fst {α : Type} {f : Xorshift → α × Xorshift}
    {r : α × Environment} (h : e.withGenerator f = .ok r) : ∃ g, r.1 = (f g).1 := by
  rw [withGenerator] at h
  cases hl : e.broker.lease e.alive .generator with
  | error err => simp [hl, Except.map] at h
  | ok x =>
      rw [hl] at h
      exact ⟨e.generatorOf x.1.service, congrArg Prod.fst (Except.ok.inj h).symm⟩

/-- A lottery awards one of its prizes, or none. -/
theorem Environment.score_lottery_prize (hpos : prizes ≠ 0)
    (h : (e.score kill (some (.scorer (.lottery chance prizes)))).1.prize = some n) :
    1 ≤ n ∧ n ≤ prizes.toNat := by
  rw [score] at h
  cases hw : e.withGenerator (prizeAward chance prizes) with
  | error err => simp [hw] at h
  | ok r =>
      obtain ⟨g, hg⟩ := withGenerator_fst hw
      rw [hw] at h
      exact prizeAward_prize hpos (hg ▸ h)

/-- To draw below a bound takes one step, whose word is scaled to the bound without overflow: 0 is
drawn below 0, and a number less than the bound below any other.  Of all words every such number has
as many as any other, but for one.  So every prize is one of the 28, whatever the generator. -/
theorem Xorshift.below_even (g : Xorshift) (bound : UInt32) :
    ((g.below bound).2 = g.next ∧ (g.below bound).1 = scale bound g.nextWord.1) ∧
    (∀ word : UInt32, word.toNat * bound.toNat < 2 ^ 64 ∧
      (scale bound word).toNat = word.toNat * bound.toNat / 2 ^ 32 ∧
      (bound = 0 → scale bound word = 0) ∧ (bound ≠ 0 → scale bound word < bound)) ∧
    (∀ k < bound, {word | scale bound word = k}.ncard = 2 ^ 32 / bound.toNat ∨
      {word | scale bound word = k}.ncard = 2 ^ 32 ⌈/⌉ bound.toNat) ∧
    (∀ n, (prizeAward 4 28 g).1.prize = some n → 1 ≤ n ∧ n ≤ 28) ∧
    ∀ (e : Environment) (kill : Kill) (n : Int),
      (e.score kill (some (.scorer Zone.prizeScorer))).1.prize = some n → 1 ≤ n ∧ n ≤ 28 := by
  refine ⟨⟨rfl, rfl⟩, fun word => ⟨product_lt bound word, toNat_scale bound word, ?_, ?_⟩,
    fun k hk => ncard_share_even hk, fun n h => prizeAward_prize (by decide) h,
    fun e kill n h => Environment.score_lottery_prize (by decide) h⟩
  · rintro rfl
    exact scale_zero word
  · exact fun hb => scale_lt hb word

/-- A die has six shares, each of a sixth of the words, rounded down or up; and there is a draw that
wins a prize. -/
theorem Xorshift.below_even_die :
    (below 6 ⟨42⟩).1 < 6 ∧
    ({word | scale 6 word = 5}.ncard = 715827882 ∨ {word | scale 6 word = 5}.ncard = 715827883) ∧
    (prizeAward 4 28 ⟨24⟩).1.prize = some 15 ∧ (1 : Int) ≤ 15 ∧ (15 : Int) ≤ 28 := by
  obtain ⟨-, hdraw, hshares, -⟩ := below_even ⟨42⟩ 6
  obtain ⟨-, -, -, hprize, -⟩ := below_even ⟨24⟩ 4
  have hwon : (prizeAward 4 28 ⟨24⟩).1.prize = some 15 := by decide +kernel
  exact ⟨(hdraw _).2.2.2 (by decide), hshares 5 (by decide), hwon, hprize 15 hwon⟩

end Backplane
