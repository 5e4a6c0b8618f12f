import Backplane.Environment.Basic
import Mathlib.Data.List.Basic
/-!
# `Backplane.Proofs.Lifecycle.Lifeline`: what befalls one instance, from beginning to end

The turns of one instance, taken out of those of all, are its lifeline.  There are few of them:

    loaded           load
    post-loaded      load, post-load
    pre-unloaded     load, post-load, pre-unload
    gone             load                                  (its batch failed)
                     load, unload
                     load, post-load, pre-unload, unload

A lifeline begins when the instance is built, and ends when it is dropped.

Its stages are `ModuleState`s.
-/
namespace Backplane

/-- Whom a turn befalls. -/
def Turn.who : Turn → Actor
  | built who _ => who
  | began who _ => who
  | ended who _ _ => who
  | dropped who => who

/-- The hook that begins with a turn. -/
def Turn.hook? : Turn → Option Hook
  | began _ hook => some hook
  | _ => none

/-- What befell one instance. -/
def lifeline (turns : List Turn) (n : Nat) : List Turn := turns.filter fun t => t.who.member = n

/-- The hooks that one instance had, in order. -/
def hooksOf (turns : List Turn) (n : Nat) : List Hook := (lifeline turns n).filterMap Turn.hook?

/-! ## Parts of lifelines -/

/-- A hook, from its beginning to its end. -/
def hookTurns (who : Actor) (hook : Hook) (failure : Option ModuleError) : List Turn :=
  [.began who hook, .ended who hook failure]

/-- An instance is built and has its first hook. -/
def admission (who : Actor) (needs : List String) (failure : Option ModuleError) : List Turn :=
  .built who needs :: hookTurns who .load failure

/-- An instance has its last hook and is dropped. -/
def parting (who : Actor) (failure : Option ModuleError) : List Turn :=
  hookTurns who .unload failure ++ [.dropped who]

/-- The lifelines of an instance at a stage, or of one that is gone. -/
inductive Lived (who : Actor) (needs : List String) : Option Stage → List Turn → Prop
  | loaded : Lived who needs (some .loaded) (admission who needs none)
  | attached {ts : List Turn} {f : Option ModuleError} (h : Lived who needs (some .loaded) ts) :
      Lived who needs (some .postLoaded) (ts ++ hookTurns who .postLoad f)
  | detached {ts : List Turn} {f : Option ModuleError}
      (h : Lived who needs (some .postLoaded) ts) :
      Lived who needs (some .preUnloaded) (ts ++ hookTurns who .preUnload f)
  /-- The hook on loading failed. -/
  | stumbled {e : ModuleError} :
      Lived who needs none (admission who needs (some e) ++ [.dropped who])
  /-- Another module of its batch failed. -/
  | unwound {ts : List Turn} (h : Lived who needs (some .loaded) ts) :
      Lived who needs none (ts ++ [.dropped who])
  | unloaded {ts : List Turn} {f : Option ModuleError} {s : Stage}
      (h : Lived who needs (some s) ts) (hs : s = .loaded ∨ s = .preUnloaded) :
      Lived who needs none (ts ++ parting who f)

/-- The hooks that an instance can have had which is at a stage, or gone. -/
def hooksAt : Option Stage → List (List Hook)
  | some .loaded => [[.load]]
  | some .postLoaded => [[.load, .postLoad]]
  | some .preUnloaded => [[.load, .postLoad, .preUnload]]
  | some _ => []
  | none => [[.load], [.load, .unload], [.load, .postLoad, .preUnload, .unload]]

/-- The hooks that an instance can have had. -/
def hookOrders : List (List Hook) :=
  [[.load], [.load, .unload], [.load, .postLoad], [.load, .postLoad, .preUnload],
    [.load, .postLoad, .preUnload, .unload]]

theorem hooksAt_subset (o : Option Stage) : hooksAt o ⊆ hookOrders := by
  rcases o with _ | _ | _ | _ | _ | _ | _ <;> simp [hooksAt, hookOrders]

section Lists

variable {turns news : List Turn} {n : Nat} {t : Turn} {who : Actor}

theorem mem_lifeline : t ∈ lifeline turns n ↔ t ∈ turns ∧ t.who.member = n := by
  simp [lifeline]

theorem lifeline_append : lifeline (turns ++ news) n = lifeline turns n ++ lifeline news n :=
  List.filter_append ..

theorem lifeline_eq_self (h : ∀ t ∈ news, t.who = who) : lifeline news who.member = news :=
  List.filter_eq_self.mpr fun t ht => by simp [h t ht]

theorem lifeline_eq_nil (h : ∀ t ∈ news, t.who.member ≠ n) : lifeline news n = [] :=
  List.filter_eq_nil_iff.mpr fun t ht => by simpa using h t ht

end Lists

namespace Lived

variable {who who' : Actor} {needs needs' : List String} {o : Option Stage} {s : Stage}
  {ts : List Turn} {t : Turn}

theorem who_eq (h : Lived who needs o ts) (ht : t ∈ ts) : t.who = who := by
  induction h with
  | loaded =>
      simp only [admission, hookTurns, List.mem_cons, List.not_mem_nil, or_false] at ht
      rcases ht with rfl | rfl | rfl <;> rfl
  | attached _ ih =>
      simp only [hookTurns, List.mem_append, List.mem_cons, List.not_mem_nil, or_false] at ht
      rcases ht with ht | rfl | rfl
      · exact ih ht
      all_goals rfl
  | detached _ ih =>
      simp only [hookTurns, List.mem_append, List.mem_cons, List.not_mem_nil, or_false] at ht
      rcases ht with ht | rfl | rfl
      · exact ih ht
      all_goals rfl
  | stumbled =>
      simp only [admission, hookTurns, List.mem_append, List.mem_cons, List.not_mem_nil,
        or_false] at ht
      rcases ht with (rfl | rfl | rfl) | rfl <;> rfl
  | unwound _ ih =>
      rcases List.mem_append.mp ht with ht | ht
      · exact ih ht
      · rw [List.mem_singleton.mp ht]
        rfl
  | unloaded _ _ ih =>
      simp only [parting, hookTurns, List.mem_append, List.mem_cons, List.not_mem_nil,
        or_false] at ht
      rcases ht with ht | (rfl | rfl) | rfl
      · exact ih ht
      all_goals rfl

/-- An instance is built once. -/
theorem mem_built (h : Lived who needs o ts) :
    .built who' needs' ∈ ts ↔ who' = who ∧ needs' = needs := by
  induction h with
  | loaded => simp [admission, hookTurns]
  | attached _ ih => simpa [hookTurns] using ih
  | detached _ ih => simpa [hookTurns] using ih
  | stumbled => simp [admission, hookTurns]
  | unwound _ ih => simpa using ih
  | unloaded _ _ ih => simpa [parting, hookTurns] using ih

/-- What is at a stage has been loaded with success, and has not been dropped. -/
theorem alive (h : Lived who needs (some s) ts) :
    .ended who .load none ∈ ts ∧ ∀ x, .dropped x ∉ ts := by
  generalize ho : some s = o at h
  induction h generalizing s with
  | loaded => simp [admission, hookTurns]
  | attached _ ih =>
      obtain ⟨hload, hkept⟩ := ih rfl
      exact ⟨List.mem_append_left _ hload, fun x => by simpa [hookTurns] using hkept x⟩
  | detached _ ih =>
      obtain ⟨hload, hkept⟩ := ih rfl
      exact ⟨List.mem_append_left _ hload, fun x => by simpa [hookTurns] using hkept x⟩
  | stumbled => simp at ho
  | unwound => simp at ho
  | unloaded => simp at ho

/-- What is gone has been dropped, and that was the last that befell it. -/
theorem gone (h : Lived who needs none ts) :
    ∃ front, ts = front ++ [.dropped who] ∧ ∀ x, .dropped x ∉ front := by
  cases h with
  | @stumbled e => exact ⟨admission who needs (some e), rfl, by simp [admission, hookTurns]⟩
  | @unwound ts h => exact ⟨ts, rfl, h.alive.2⟩
  | @unloaded ts f s h hs =>
      refine ⟨ts ++ hookTurns who .unload f, by rw [parting, List.append_assoc], fun x => ?_⟩
      simpa [hookTurns] using h.alive.2 x

theorem dropped (h : Lived who needs none ts) : .dropped who ∈ ts := by
  obtain ⟨front, rfl, -⟩ := h.gone
  simp

theorem hooks (h : Lived who needs o ts) : ts.filterMap Turn.hook? ∈ hooksAt o := by
  induction h with
  | loaded => exact List.mem_singleton.mpr rfl
  | attached _ ih =>
      simp only [hooksAt, List.mem_singleton] at ih
      simp [ih, hookTurns, Turn.hook?, hooksAt]
  | detached _ ih =>
      simp only [hooksAt, List.mem_singleton] at ih
      simp [ih, hookTurns, Turn.hook?, hooksAt]
  | stumbled =>
      show [Hook.load] ∈ hooksAt none
      simp [hooksAt]
  | unwound _ ih =>
      simp only [hooksAt, List.mem_singleton] at ih
      simp [ih, Turn.hook?, hooksAt]
  | unloaded _ hs ih =>
      rcases hs with rfl | rfl
      all_goals
        simp only [hooksAt, List.mem_singleton] at ih
        simp [ih, parting, hookTurns, Turn.hook?, hooksAt]

end Lived

end Backplane
