import Backplane.Plan.Order
import Backplane.Proofs.Stepwise
import Mathlib.Data.List.Perm.Subperm
/-!
# `Backplane.Proofs.Plan.Order`: the least order that respects what things need

At each step the count of a thing is the number of its needs that are not in order yet, and the
things that are ready are those which may come next.  So what is put in order is at each step the
lowest that may come next, and when everything is in order, no order that respects the needs is
less.

The ordering is `stable_topological_order`.
-/
namespace Backplane.Order

variable {needs : List (List Nat)} {done order xs rest settled unsettled : List Nat}
  {p q : Progress} {i j : Nat}

/-- Each thing needs some of the things, each once. -/
structure WellPosed (needs : List (List Nat)) : Prop where
  once : ∀ j, (needs.getD j []).Nodup
  known : ∀ j, ∀ i ∈ needs.getD j [], i < needs.length

/-- What a thing needs that is not done yet. -/
def lacking (needs : List (List Nat)) (done : List Nat) (j : Nat) : List Nat :=
  (needs.getD j []).filter fun i => i ∉ done

/-- Whether all that a thing needs is done. -/
def Met (needs : List (List Nat)) (done : List Nat) (j : Nat) : Prop :=
  ∀ i ∈ needs.getD j [], i ∈ done

/-- Whether a thing may come next. -/
def MayCome (needs : List (List Nat)) (done : List Nat) (j : Nat) : Prop :=
  j < needs.length ∧ j ∉ done ∧ Met needs done j

theorem mem_lacking : i ∈ lacking needs done j ↔ i ∈ needs.getD j [] ∧ i ∉ done := by
  simp [lacking]

theorem lacking_eq_nil_iff : lacking needs done j = [] ↔ Met needs done j := by
  simp [lacking, Met]

/-- One thing more that is done is one need less. -/
theorem lacking_append (hw : WellPosed needs) :
    lacking needs (done ++ [i]) j = (lacking needs done j).erase i := by
  rw [lacking, lacking, List.Nodup.erase_eq_filter ((hw.once j).filter _), List.filter_filter]
  refine List.filter_congr fun k _ => ?_
  by_cases hk : k = i <;> simp [hk]

theorem length_lacking_append_of_mem (hw : WellPosed needs) (h : i ∈ lacking needs done j) :
    (lacking needs (done ++ [i]) j).length = (lacking needs done j).length - 1 := by
  rw [lacking_append hw, List.length_erase_of_mem h]

theorem lacking_append_of_notMem (hw : WellPosed needs) (h : i ∉ needs.getD j []) :
    lacking needs (done ++ [i]) j = lacking needs done j := by
  rw [lacking_append hw, List.erase_of_not_mem fun hi => h (mem_lacking.mp hi).1]

/-! ## Lists that ascend -/

theorem mem_insert : j ∈ insert i xs ↔ j = i ∨ j ∈ xs := by
  induction xs with
  | nil => simp [insert]
  | cons k xs ih =>
      rw [insert]
      split
      · simp
      · simp only [List.mem_cons, ih]
        exact or_left_comm

theorem pairwise_insert (h : xs.Pairwise (· < ·)) (hi : i ∉ xs) :
    (insert i xs).Pairwise (· < ·) := by
  induction xs with
  | nil => simp [insert]
  | cons k xs ih =>
      obtain ⟨hk, hxs⟩ := List.pairwise_cons.mp h
      obtain ⟨hne, hnot⟩ := not_or.mp (List.mem_cons.not.mp hi)
      rw [insert]
      split
      · next hle =>
          have hlt : i < k := Nat.lt_of_le_of_ne hle hne
          refine List.pairwise_cons.mpr ⟨fun j hj => ?_, h⟩
          rcases List.mem_cons.mp hj with rfl | hj
          · exact hlt
          · exact Nat.lt_trans hlt (hk j hj)
      · next hgt =>
          refine List.pairwise_cons.mpr ⟨fun j hj => ?_, ih hxs hnot⟩
          rcases mem_insert.mp hj with rfl | hj
          · exact Nat.not_le.mp hgt
          · exact hk j hj

theorem mem_dependents : j ∈ dependents needs i ↔ j < needs.length ∧ i ∈ needs.getD j [] := by
  simp [dependents]

theorem nodup_dependents : (dependents needs i).Nodup := List.nodup_range.filter _

/-! ## One step -/

namespace Progress

/-- How far an ordering has come that takes the lowest thing at each step. -/
structure Exact (needs : List (List Nat)) (p : Progress) : Prop where
  respects : Stepwise (MayCome needs) p.order
  lowest : Stepwise (fun done i => ∀ j, MayCome needs done j → i ≤ j) p.order
  length : p.pending.length = needs.length
  pending : ∀ j, j < needs.length → p.pending.getD j 0 = (lacking needs p.order j).length
  ready : ∀ j, j ∈ p.ready ↔ MayCome needs p.order j
  ascending : p.ready.Pairwise (· < ·)

/-- A step under way: the `i`-th thing is in order, behind those done before, and some of those that
need it have not been settled yet. -/
structure Settling (needs : List (List Nat)) (done : List Nat) (i : Nat) (unsettled : List Nat)
    (p : Progress) : Prop where
  order : p.order = done ++ [i]
  length : p.pending.length = needs.length
  pending : ∀ j, j < needs.length → p.pending.getD j 0 =
    (lacking needs (if j ∈ unsettled then done else done ++ [i]) j).length
  ready : ∀ j, j ∈ p.ready ↔ j < needs.length ∧ j ∉ done ++ [i] ∧ p.pending.getD j 0 = 0
  ascending : p.ready.Pairwise (· < ·)

theorem getD_set {ns : List Nat} {k n : Nat} (hk : k < ns.length) :
    (ns.set k n).getD j 0 = if j = k then n else ns.getD j 0 := by
  simp only [List.getD_eq_getElem?_getD, List.getElem?_set, hk, if_true, eq_comm (a := k)]
  split <;> rfl

/-- Before a thing is settled, one of the needs that it is counted as having is the new thing. -/
theorem Settling.pending_pos {d : Nat} {ds : List Nat} (hp : p.Settling needs done i (d :: ds))
    (hneed : i ∈ needs.getD d []) (hlt : d < needs.length) (hi : i ∉ done) :
    0 < p.pending.getD d 0 := by
  rw [hp.pending d hlt, if_pos List.mem_cons_self]
  exact List.length_pos_of_mem (mem_lacking.mpr ⟨hneed, hi⟩)

theorem Settling.settle {d : Nat} {ds : List Nat} (hw : WellPosed needs)
    (hp : p.Settling needs done i (d :: ds)) (hd : d ∉ ds) (hneed : i ∈ needs.getD d [])
    (hlt : d < needs.length) (hi : i ∉ done) (hout : d ∉ done ++ [i]) :
    (p.settle d).Settling needs done i ds := by
  have hafter : p.pending.getD d 0 - 1 = (lacking needs (done ++ [i]) d).length := by
    rw [hp.pending d hlt, if_pos List.mem_cons_self,
      length_lacking_append_of_mem hw (mem_lacking.mpr ⟨hneed, hi⟩)]
  have hpos : p.pending.getD d 0 ≠ 0 := Nat.ne_of_gt (hp.pending_pos hneed hlt hi)
  have hnot : d ∉ p.ready := fun hin => hpos ((hp.ready d).mp hin).2.2
  have hget : ∀ j, (p.settle d).pending.getD j 0 =
      if j = d then p.pending.getD d 0 - 1 else p.pending.getD j 0 :=
    fun j => getD_set (hp.length ▸ hlt)
  refine ⟨hp.order, by simp [Progress.settle, hp.length], ?_, ?_, ?_⟩
  · intro j hj
    rw [hget j]
    by_cases hjd : j = d
    · rw [if_pos hjd, hjd, if_neg hd, hafter]
    · rw [if_neg hjd, hp.pending j hj]
      simp [hjd]
  · intro j
    rw [hget j]
    by_cases hjd : j = d
    · subst hjd
      rw [if_pos rfl, Progress.settle]
      split
      · next hzero => exact ⟨fun _ => ⟨hlt, hout, hzero⟩, fun _ => mem_insert.mpr (Or.inl rfl)⟩
      · next hmore => exact ⟨fun hin => absurd hin hnot, fun hin => absurd hin.2.2 hmore⟩
    · rw [if_neg hjd, ← hp.ready j]
      simp only [Progress.settle]
      split
      · simp [mem_insert, hjd]
      · rfl
  · simp only [Progress.settle]
    split
    · exact pairwise_insert hp.ascending hnot
    · exact hp.ascending

/-- When some of those that need the new thing are settled, the others are left. -/
theorem Settling.foldl_settle (hw : WellPosed needs)
    (hp : p.Settling needs done i (settled ++ unsettled)) (hnd : (settled ++ unsettled).Nodup)
    (hi : i ∉ done)
    (hds : ∀ d ∈ settled ++ unsettled, d < needs.length ∧ i ∈ needs.getD d [] ∧ d ∉ done ++ [i]) :
    (settled.foldl Progress.settle p).Settling needs done i unsettled := by
  induction settled generalizing p with
  | nil => exact hp
  | cons d ds ih =>
      obtain ⟨hd, hnd⟩ := List.nodup_cons.mp hnd
      obtain ⟨hlt, hneed, hout⟩ := hds d List.mem_cons_self
      exact ih (hp.settle hw hd hneed hlt hi hout) hnd fun x hx => hds x (List.mem_cons_of_mem _ hx)

/-- The `i`-th thing is in order and `rest` is still ready; what needs the thing has not been
settled. -/
def put (p : Progress) (i : Nat) (rest : List Nat) : Progress :=
  { p with order := p.order ++ [i], ready := rest }

theorem step_of_ready (hready : p.ready = i :: rest) :
    p.step needs = some ((dependents needs i).foldl settle (p.put i rest)) := by
  rw [Progress.step, hready]
  rfl

theorem step_eq_none_iff : p.step needs = none ↔ p.ready = [] := by
  cases hready : p.ready with
  | nil => simp [Progress.step, hready]
  | cons i rest => simp [step_of_ready hready]

/-- A step takes the first thing that is ready. -/
theorem exists_ready_of_step (h : p.step needs = some q) :
    ∃ i rest, p.ready = i :: rest ∧ q = (dependents needs i).foldl settle (p.put i rest) := by
  cases hready : p.ready with
  | nil => simp [Progress.step, hready] at h
  | cons i rest => exact ⟨i, rest, rfl, Option.some.inj (h.symm.trans (step_of_ready hready))⟩

theorem Exact.eq_or_mem_iff (hp : p.Exact needs) (hready : p.ready = i :: rest) :
    j = i ∨ j ∈ rest ↔ MayCome needs p.order j := by
  rw [← hp.ready j, hready, List.mem_cons]

theorem Exact.mayCome (hp : p.Exact needs) (hready : p.ready = i :: rest) :
    MayCome needs p.order i :=
  (hp.eq_or_mem_iff hready).mp (Or.inl rfl)

/-- What needs the new thing was not ready, and has not come before. -/
theorem Exact.dependents_later (hp : p.Exact needs) (hready : p.ready = i :: rest) :
    ∀ d ∈ dependents needs i, d < needs.length ∧ i ∈ needs.getD d [] ∧ d ∉ p.order ++ [i] := by
  have hcome : MayCome needs p.order i := hp.mayCome hready
  intro d hd
  obtain ⟨hlt, hneed⟩ := mem_dependents.mp hd
  refine ⟨hlt, hneed, ?_⟩
  intro hin
  rcases List.mem_append.mp hin with hin | hin
  · obtain ⟨before, hd', hsub⟩ := hp.respects.exists_of_mem hin
    exact hcome.2.1 (hsub (hd'.2.2 i hneed))
  · rw [List.mem_singleton.mp hin] at hneed
    exact hcome.2.1 (hcome.2.2 i hneed)

theorem Exact.put (hw : WellPosed needs) (hp : p.Exact needs) (hready : p.ready = i :: rest) :
    (p.put i rest).Settling needs p.order i (dependents needs i) := by
  obtain ⟨hmin, hrest⟩ := List.pairwise_cons.mp (hready ▸ hp.ascending)
  refine ⟨rfl, hp.length, ?_, ?_, hrest⟩
  · intro j hj
    show p.pending.getD j 0 = _
    rw [hp.pending j hj]
    split
    · rfl
    · next hj' =>
        have hno : i ∉ needs.getD j [] := fun hneed => hj' (mem_dependents.mpr ⟨hj, hneed⟩)
        rw [lacking_append_of_notMem hw hno]
  · intro j
    show j ∈ rest ↔ j < needs.length ∧ j ∉ p.order ++ [i] ∧ p.pending.getD j 0 = 0
    constructor
    · intro hj
      obtain ⟨hlt, hnew, hmet⟩ := (hp.eq_or_mem_iff hready).mp (Or.inr hj)
      have hne : j ≠ i := Nat.ne_of_gt (hmin j hj)
      refine ⟨hlt, by simp [hnew, hne], ?_⟩
      rw [hp.pending j hlt, lacking_eq_nil_iff.mpr hmet, List.length_nil]
    · rintro ⟨hlt, hnew, hzero⟩
      rw [hp.pending j hlt, List.length_eq_zero_iff, lacking_eq_nil_iff] at hzero
      simp only [List.mem_append, List.mem_singleton, not_or] at hnew
      exact ((hp.eq_or_mem_iff hready).mpr ⟨hlt, hnew.1, hzero⟩).resolve_left hnew.2

/-- Some of what needs the new thing has been settled, and the rest has not. -/
theorem Exact.settling (hw : WellPosed needs) (hp : p.Exact needs)
    (hready : p.ready = i :: rest) (hds : dependents needs i = settled ++ unsettled) :
    (settled.foldl Progress.settle (p.put i rest)).Settling needs p.order i unsettled :=
  (hds ▸ hp.put hw hready).foldl_settle hw (hds ▸ nodup_dependents) (hp.mayCome hready).2.1
    (hds ▸ hp.dependents_later hready)

theorem Exact.step (hw : WellPosed needs) (hp : p.Exact needs) (h : p.step needs = some q) :
    q.Exact needs := by
  obtain ⟨i, rest, hready, rfl⟩ := exists_ready_of_step h
  have hcome : MayCome needs p.order i := hp.mayCome hready
  have hmin : ∀ j ∈ rest, i < j := (List.pairwise_cons.mp (hready ▸ hp.ascending)).1
  have hdone := hp.settling hw hready (List.append_nil _).symm
  refine ⟨?_, ?_, hdone.length, ?_, ?_, hdone.ascending⟩
  · rw [hdone.order]
    exact hp.respects.append_singleton hcome
  · rw [hdone.order]
    refine hp.lowest.append_singleton ?_
    intro j hj
    rcases (hp.eq_or_mem_iff hready).mpr hj with rfl | hj
    · exact Nat.le_refl _
    · exact Nat.le_of_lt (hmin j hj)
  · intro j hj
    rw [hdone.pending j hj, hdone.order]
    simp
  · intro j
    rw [hdone.ready j, hdone.order, MayCome]
    refine and_congr_right fun hj => and_congr_right fun _ => ?_
    rw [hdone.pending j hj, List.length_eq_zero_iff, lacking_eq_nil_iff]
    simp

/-! ## All steps -/

theorem exact_start : (start needs).Exact needs where
  respects := .nil
  lowest := .nil
  length := by simp [start]
  pending := by
    intro j hj
    simp [start, lacking, List.getD_eq_getElem?_getD, hj]
  ready := by
    intro j
    simp [start, MayCome, Met, List.isEmpty_iff, List.eq_nil_iff_forall_not_mem]
  ascending := List.pairwise_lt_range.filter _

theorem Exact.steps (hw : WellPosed needs) (hp : p.Exact needs) (n : Nat) :
    (p.steps needs n).Exact needs := by
  induction n generalizing p with
  | zero => exact hp
  | succ n ih =>
      rw [Progress.steps]
      cases h : p.step needs with
      | none => exact hp
      | some q => exact ih (hp.step hw h)

theorem final_exact (hw : WellPosed needs) : (final needs).Exact needs :=
  exact_start.steps hw _

theorem Exact.nodup (hp : p.Exact needs) : p.order.Nodup :=
  Stepwise.nodup_iff.mp (hp.respects.mono fun _ _ hx => hx.2.1)

theorem Exact.lt (hp : p.Exact needs) (hi : i ∈ p.order) : i < needs.length := by
  obtain ⟨before, hcome, -⟩ := hp.respects.exists_of_mem hi
  exact hcome.1

end Progress

/-- Everything is put in order, behind what it needs, and no such order is less. -/
theorem resolve_ok (hw : WellPosed needs) (h : resolve needs = .ok order) :
    order.Perm (List.range needs.length) ∧ Stepwise (Met needs) order ∧
      ∀ other, other.Perm (List.range needs.length) → Stepwise (Met needs) other →
        order ≤ other := by
  have hfinal := Progress.final_exact hw
  simp only [resolve] at h
  split at h
  · simp at h
  · next hlen =>
      rw [← Except.ok.inj h]
      have hsub : (Progress.final needs).order ⊆ List.range needs.length := fun i hi =>
        List.mem_range.mpr (hfinal.lt hi)
      have hperm : (Progress.final needs).order.Perm (List.range needs.length) :=
        (List.subperm_of_subset hfinal.nodup hsub).perm_of_length_le (by simpa using hlen)
      refine ⟨hperm, hfinal.respects.mono fun _ _ hx => hx.2.2, ?_⟩
      intro other hother hmet
      refine hfinal.lowest.le ?_ (hperm.length_eq.trans hother.length_eq.symm)
      have honce : Stepwise (fun before i => i ∉ before) other :=
        Stepwise.nodup_iff.mpr (hother.nodup_iff.mpr List.nodup_range)
      intro before i after heq
      have hi : i ∈ other := by simp [heq]
      exact ⟨List.mem_range.mp (hother.subset hi), honce before i after heq,
        hmet before i after heq⟩

end Backplane.Order
