import Backplane.Random.Xorshift
import Mathlib.Algebra.Ring.Nat
import Mathlib.Logic.Function.Iterate
/-!
# `Backplane.Proofs.Random.Stream`: draws as steps

The words of successive steps, cut into bytes from the least significant on, are one stream of
bytes.  However many bytes are drawn, they are the beginning of the stream; but the next draw begins
with the next step, so that two draws go on from each other only where the first ends with a word.

    word, below, fraction     one step
    fastBytes n               ⌈n / 8⌉ steps
    secureBytes               none

The draws are those of the `XorShiftPrng`.
-/
namespace Backplane.Xorshift

variable {g : Xorshift} {w : UInt64} {n i : Nat}

/-! ## Bytes -/

/-- The byte of a word at some place, the least significant first. -/
def byteOf (w : UInt64) (i : Nat) : UInt8 := UInt8.ofNat (w.toNat / 256 ^ i)

/-- The byte of the stream at some place. -/
def byteAt (g : Xorshift) (i : Nat) : UInt8 := byteOf (next^[i / 8] g).step.1 (i % 8)

theorem shifted_eq_byteOf (hi : i < 8) : (w >>> (8 * UInt64.ofNat i)).toUInt8 = byteOf w i := by
  have hplace : (8 * UInt64.ofNat i).toNat % 64 = 8 * i := by
    rw [UInt64.toNat_mul, UInt64.toNat_ofNat']
    simp
    omega
  apply UInt8.toNat_inj.mp
  rw [byteOf, UInt64.toNat_toUInt8, UInt64.toNat_shiftRight, hplace, Nat.shiftRight_eq_div_pow,
    Nat.pow_mul, UInt8.toNat_ofNat']

theorem wordBytes_eq (w : UInt64) : wordBytes w = (List.range 8).map (byteOf w) :=
  List.map_congr_left fun _ hi => shifted_eq_byteOf (List.mem_range.mp hi)

/-- The stream begins with the bytes of the next step. -/
theorem byteAt_of_lt (hi : i < 8) : byteAt g i = byteOf g.step.1 i := by
  rw [byteAt, Nat.div_eq_of_lt hi, Nat.mod_eq_of_lt hi]
  rfl

/-- Behind as many words, the stream is that of the generator after as many steps. -/
theorem byteAt_add (g : Xorshift) (k i : Nat) : byteAt g (8 * k + i) = byteAt (next^[k] g) i := by
  have hword : (8 * k + i) / 8 = i / 8 + k := by omega
  have hplace : (8 * k + i) % 8 = i % 8 := by omega
  rw [byteAt, byteAt, hword, hplace, Function.iterate_add_apply]

theorem take_wordBytes (g : Xorshift) (n : Nat) :
    (wordBytes g.step.1).take n = (List.range (min n 8)).map g.byteAt := by
  rw [wordBytes_eq, ← List.map_take, List.take_range]
  refine List.map_congr_left fun i hi => ?_
  have hlt : i < 8 := Nat.lt_of_lt_of_le (List.mem_range.mp hi) (Nat.min_le_right n 8)
  exact (byteAt_of_lt hlt).symm

/-! ## Filling -/

/-- As many places are those in the first word and those behind it. -/
theorem range_eq_append (n : Nat) :
    List.range n = List.range (min n 8) ++ (List.range (n - 8)).map (8 + ·) := by
  rcases Nat.le_total 8 n with hle | hle
  · rw [Nat.min_eq_right hle, ← List.range_add, Nat.add_sub_cancel' hle]
  · rw [Nat.min_eq_left hle, Nat.sub_eq_zero_of_le hle]
    simp

/-- Whatever is drawn is the beginning of the stream, and takes as many steps as there are words
begun. -/
theorem fastBytes_eq (n : Nat) (g : Xorshift) :
    g.fastBytes n = ((List.range n).map g.byteAt, next^[(n + 7) / 8] g) := by
  fun_induction fastBytes n g with
  | case1 g => rfl
  | case2 n g hn one rest ih =>
      have hsteps : (n + 7) / 8 = (n - 8 + 7) / 8 + 1 := by omega
      have hrest : (List.range (n - 8)).map g.next.byteAt =
          (List.range (n - 8)).map (g.byteAt ∘ (8 + ·)) :=
        List.map_congr_left fun i _ => (byteAt_add g 1 i).symm
      have hsplit : (List.range n).map g.byteAt =
          (wordBytes one.1).take n ++ (List.range (n - 8)).map g.next.byteAt := by
        rw [range_eq_append n, List.map_append, List.map_map, take_wordBytes, hrest]
      rw [hsplit, hsteps, Function.iterate_succ_apply]
      exact congrArg (fun r => ((wordBytes one.1).take n ++ r.1, r.2)) ih

/-- The bytes that are drawn are those of the stream, from the least significant of the next step's
word on, and as many steps are taken as words are begun.  To draw whole words and then more is to
draw all of it at once. -/
theorem bytes_stream (g : Xorshift) :
    (∀ n, g.fastBytes n =
      ((List.range n).map fun i =>
          UInt8.ofNat ((next^[i / 8] g).step.1.toNat / 256 ^ (i % 8)),
        next^[(n + 7) / 8] g)) ∧
    ∀ k n, g.fastBytes (8 * k + n) =
      ((g.fastBytes (8 * k)).1 ++ ((g.fastBytes (8 * k)).2.fastBytes n).1,
        ((g.fastBytes (8 * k)).2.fastBytes n).2) := by
  refine ⟨fun n => fastBytes_eq n g, fun k n => ?_⟩
  have hwhole : (8 * k + 7) / 8 = k := by omega
  have hsteps : (8 * k + n + 7) / 8 = (n + 7) / 8 + k := by omega
  have hbytes : (List.range n).map (next^[k] g).byteAt =
      (List.range n).map fun i => g.byteAt (8 * k + i) :=
    List.map_congr_left fun i _ => (byteAt_add g k i).symm
  simp only [fastBytes_eq, hwhole, hsteps, hbytes, List.range_add, List.map_append, List.map_map,
    Function.iterate_add_apply]
  rfl

/-- Within a word it is not: what is left of the first step's word is dropped. -/
example : (fastBytes 1 (ofSeed 1)).1 ++ ((fastBytes 1 (ofSeed 1)).2.fastBytes 1).1 ≠
    (fastBytes 2 (ofSeed 1)).1 := by
  decide +kernel

/-! ## Draws of all kinds -/

/-- The number of steps that a draw takes. -/
def Draw.steps : Draw → Nat
  | .word => 1
  | .below _ => 1
  | .fraction => 1
  | .fastBytes n => (n + 7) / 8
  | .secureBytes _ => 0

theorem draw_snd (g : Xorshift) (d : Draw) : (g.draw d).2 = next^[d.steps] g := by
  cases d with
  | fastBytes n => exact congrArg Prod.snd (fastBytes_eq n g)
  | _ => rfl

/-- Whatever is drawn, the generator takes its steps one after another. -/
theorem drawAll_snd (ds : List Draw) (g : Xorshift) :
    (drawAll ds g).2 = next^[(ds.map Draw.steps).sum] g := by
  induction ds generalizing g with
  | nil => rfl
  | cons d ds ih =>
      rw [drawAll, ih, draw_snd, List.map_cons, List.sum_cons, Nat.add_comm,
        Function.iterate_add_apply]

end Backplane.Xorshift
