import Backplane.Contract.Login
import Backplane.Proofs.Stepwise
/-!
# `Backplane.Proofs.Contract.Login`: every login attempt has exactly one outcome

What is told of an attempt is decided by what was done with it, in order, and by nothing that was
done with others.  Its verdict is what the authenticator reports, or that it was abandoned if it
drops its half before; the caller waits until it walks away, or has looked when there was a verdict.

    verdict    caller waits    a look yields    to complete yields
    none       yes             pending          that it is awaited
    none       no              -                that it is not
    some       yes             the verdict      -
    some       no              -                -

The halves are `AuthCompletion` and `AuthPending`.
-/
namespace Backplane

/-! ## Histories -/

/-- The attempt that a step is about. -/
def LoginStep.attempt? : LoginStep → Option Nat
  | start => none
  | complete i _ => some i
  | dropAnswer i => some i
  | dropCaller i => some i
  | isAbandonedByCaller i => some i
  | poll i => some i

/-- The verdict that a step gives. -/
def LoginStep.verdict? : LoginStep → Option LoginOutcome
  | complete _ outcome => some outcome
  | dropAnswer _ => some (.refused .abandoned)
  | _ => none

/-- Whether the caller waits no longer after a step, given the verdict before. -/
def LoginStep.ends (verdict : Option LoginOutcome) : LoginStep → Bool
  | dropCaller _ => true
  | poll _ => verdict.isSome
  | _ => false

namespace LoginDesk

/-- The verdict on an attempt: the first one that has been given. -/
def verdict (h : List LoginStep) : Option LoginOutcome := h.findSome? LoginStep.verdict?

/-- Whether the caller waits still. -/
def Waits (h : List LoginStep) : Prop := Stepwise (fun before s => s.ends (verdict before) = false) h

/-- Adds a step to the history of the attempt that it is about, or begins a history. -/
def record (hs : List (List LoginStep)) (s : LoginStep) : List (List LoginStep) :=
  match s.attempt? with
  | none => hs ++ [[]]
  | some i => hs.modify i (· ++ [s])

/-- What was done with each attempt. -/
def histories (steps : List LoginStep) : List (List LoginStep) := steps.foldl record []

/-- The outcome that is told of the `i`-th attempt in a step. -/
def told (i : Nat) : LoginStep × LoginView → Option LoginOutcome
  | (.poll j, .glance (some (.settled outcome))) => if j = i then some outcome else none
  | _ => none

/-- The outcomes that are told of the `i`-th attempt. -/
def outcomes (i : Nat) (steps : List LoginStep) : List LoginOutcome :=
  (steps.zip (run steps []).1).filterMap (told i)

end LoginDesk

variable {h : List LoginStep} {s : LoginStep} {v : Option LoginOutcome} {w : Bool} {i : Nat}
  {outcome : LoginOutcome}

namespace LoginDesk

theorem verdict_append : verdict (h ++ [s]) = (verdict h).or s.verdict? := by
  rw [verdict, List.findSome?_append, List.findSome?_singleton]
  rfl

theorem waits_append : Waits (h ++ [s]) ↔ Waits h ∧ s.ends (verdict h) = false :=
  Stepwise.append_singleton_iff

end LoginDesk

/-! ## One attempt -/

namespace LoginAttempt

open LoginDesk

/-- What a step does to the attempt that it is about. -/
def next (a : LoginAttempt) : LoginStep → LoginAttempt
  | .start => a
  | .complete _ outcome => (a.complete outcome).2
  | .dropAnswer _ => a.dropAnswer.2
  | .dropCaller _ => a.dropCaller.2
  | .isAbandonedByCaller _ => a
  | .poll _ => a.poll.2

/-- An attempt with which some steps have been taken. -/
def after (h : List LoginStep) : LoginAttempt := h.foldl next {}

/-- The attempt of a verdict and a caller: the authenticator has its half as long as there is no
verdict, and the verdict is in the channel until the caller waits no longer. -/
def standing (v : Option LoginOutcome) (w : Bool) : LoginAttempt where
  channel := { sent := if w then v else none, sendable := v.isNone, awaited := w }
  completion := if v.isNone then some {} else none

theorem next_standing : (standing v w).next s = standing (v.or s.verdict?) (w && !s.ends v) := by
  cases s <;> cases v <;> cases w <;> rfl

/-- An attempt is as its verdict and its caller say. -/
theorem after_eq (h : List LoginStep) :
    ∃ w, after h = standing (verdict h) w ∧ (w = true ↔ Waits h) := by
  induction h using List.reverseRecOn with
  | nil => exact ⟨true, rfl, iff_of_true rfl Stepwise.nil⟩
  | append_singleton h s ih =>
      obtain ⟨w, heq, hw⟩ := ih
      refine ⟨w && !s.ends (verdict h), ?_, ?_⟩
      · rw [after, List.foldl_append, List.foldl_cons, List.foldl_nil, verdict_append]
        exact (congrArg (next · s) heq).trans next_standing
      · rw [waits_append, ← hw]
        simp

theorem poll_standing : (standing v w).poll.1 =
    if w then some (v.elim .pending .settled) else none := by
  cases v <;> cases w <;> rfl

theorem complete_standing : ((standing v w).complete outcome).1 = if v.isNone then some w else none := by
  cases v <;> cases w <;> rfl

theorem isAbandonedByCaller_standing :
    (standing v w).isAbandonedByCaller = if v.isNone then some (!w) else none := by
  cases v <;> cases w <;> rfl

end LoginAttempt

/-! ## The desk -/

namespace LoginDesk

variable {desk : LoginDesk} {steps : List LoginStep} {ys : List LoginOutcome}

theorem run_append : run (steps ++ [s]) desk =
    ((run steps desk).1 ++ [((run steps desk).2.step s).1], ((run steps desk).2.step s).2) := by
  induction steps generalizing desk with
  | nil => rfl
  | cons t steps ih =>
      simp only [List.cons_append, run, ih]

theorem length_run : (run steps desk).1.length = steps.length := by
  induction steps generalizing desk with
  | nil => rfl
  | cons t steps ih => simp only [run, List.length_cons, ih]

theorem update_snd {α : Type} (missing : α) (f : LoginAttempt → α × LoginAttempt) :
    (desk.update i missing f).2 = desk.modify i fun a => (f a).2 := by
  apply List.ext_getElem?
  intro j
  rw [update, List.getElem?_modify]
  cases hi : desk[i]? with
  | none =>
      by_cases hij : i = j
      · subst hij
        simp [hi]
      · simp [hij]
  | some a =>
      by_cases hij : i = j
      · subst hij
        have hlt := (List.getElem?_eq_some_iff.mp hi).1
        simp [hi, List.getElem?_set_self hlt]
      · simp [hij, List.getElem?_set_ne hij]

/-- A step changes the attempt that it is about, and no other. -/
theorem step_snd : (desk.step s).2 = match s.attempt? with
    | none => desk ++ [{}]
    | some i => desk.modify i fun a => a.next s := by
  cases s with
  | start => rfl
  | complete i outcome => exact update_snd none fun a => a.complete outcome
  | dropAnswer i => exact update_snd false LoginAttempt.dropAnswer
  | dropCaller i => exact update_snd false LoginAttempt.dropCaller
  | isAbandonedByCaller i => exact update_snd none fun a => (a.isAbandonedByCaller, a)
  | poll i => exact update_snd none LoginAttempt.poll

theorem histories_append : histories (steps ++ [s]) = record (histories steps) s := by
  rw [histories, List.foldl_append]
  rfl

/-- Each attempt is what its own history has made of it. -/
theorem run_snd : (run steps []).2 = (histories steps).map LoginAttempt.after := by
  induction steps using List.reverseRecOn with
  | nil => rfl
  | append_singleton steps s ih =>
      rw [run_append, histories_append, step_snd, ih, record]
      cases s.attempt? with
      | none => simp [LoginAttempt.after]
      | some i =>
          apply List.ext_getElem?
          intro j
          simp only [List.getElem?_modify, List.getElem?_map]
          cases (histories steps)[j]? with
          | none => rfl
          | some h => by_cases hij : i = j <;> simp [hij, LoginAttempt.after]

/-- The view of a step that is about an attempt. -/
theorem update_fst {α : Type} (missing : α) (f : LoginAttempt → α × LoginAttempt) :
    (desk.update i missing f).1 = (desk[i]?.map fun a => (f a).1).getD missing := by
  rw [update]
  cases desk[i]? <;> rfl

/-- What can have been told of an attempt of which a history is known. -/
inductive Tells (h : List LoginStep) : List LoginOutcome → Prop
  | waiting (hw : Waits h) : Tells h []
  /-- The caller walked away. -/
  | unheard (hw : ¬ Waits h) : Tells h []
  /-- The caller has seen the verdict, and waits no longer. -/
  | heard {outcome : LoginOutcome} (hw : ¬ Waits h) (hv : verdict h = some outcome) : Tells h [outcome]

theorem Tells.eq_nil (ht : Tells h ys) (hw : Waits h) : ys = [] := by
  cases ht with
  | waiting => rfl
  | unheard hgone => rfl
  | heard hgone => exact absurd hw hgone

/-- A step by which nothing is told. -/
theorem Tells.append (ht : Tells h ys) (s : LoginStep) : Tells (h ++ [s]) ys := by
  cases ht with
  | waiting hw =>
      by_cases hw' : Waits (h ++ [s])
      · exact .waiting hw'
      · exact .unheard hw'
  | unheard hw => exact .unheard fun hw' => hw (waits_append.mp hw').1
  | heard hw hv =>
      refine .heard (fun hw' => hw (waits_append.mp hw').1) ?_
      rw [verdict_append, hv]
      rfl

/-- A look that yields the verdict. -/
theorem Tells.hear (ht : Tells h ys) (hw : Waits h) (hv : verdict h = some outcome) :
    Tells (h ++ [.poll i]) (ys ++ [outcome]) := by
  rw [ht.eq_nil hw, List.nil_append]
  refine .heard (fun hw' => ?_) ?_
  · have hpending := (waits_append.mp hw').2
    simp [LoginStep.ends, hv] at hpending
  · rw [verdict_append, hv, Option.some_or]

theorem outcomes_append : outcomes i (steps ++ [s]) =
    outcomes i steps ++ (told i (s, ((run steps []).2.step s).1)).toList := by
  have hlength : steps.length = (run steps []).1.length := length_run.symm
  rw [outcomes, run_append, List.zip_append hlength, List.filterMap_append]
  rfl

/-- Only a look can tell of an outcome. -/
theorem told_eq_none {x : LoginView} (hs : s ≠ .poll i) : told i (s, x) = none := by
  cases s with
  | poll j =>
      have hj : j ≠ i := fun hj => hs (hj ▸ rfl)
      unfold told
      split
      · next heq =>
          obtain ⟨hpoll, -⟩ := Prod.mk.inj heq
          rw [← LoginStep.poll.inj hpoll, if_neg hj]
      · rfl
  | _ => rfl

theorem told_poll {g : Option Glance} : told i (.poll i, .glance g) = match g with
    | some (.settled outcome) => some outcome
    | _ => none := by
  rcases g with _ | _ | outcome
  · rfl
  · rfl
  · exact if_pos rfl

/-- An attempt as it stands when a history of it is known. -/
theorem getElem?_run (hi : (histories steps)[i]? = some h) :
    ∃ w, (run steps []).2[i]? = some (.standing (verdict h) w) ∧ (w = true ↔ Waits h) := by
  obtain ⟨w, heq, hw⟩ := LoginAttempt.after_eq h
  refine ⟨w, ?_, hw⟩
  rw [run_snd, List.getElem?_map, hi, Option.map_some, heq]

theorem step_poll : (desk.step (.poll i)).1 = .glance ((desk[i]?.map fun a => a.poll.1).getD none) :=
  congrArg LoginView.glance (update_fst none LoginAttempt.poll)

theorem step_complete : (desk.step (.complete i outcome)).1 =
    .flag ((desk[i]?.map fun a => (a.complete outcome).1).getD none) :=
  congrArg LoginView.flag (update_fst none fun a => a.complete outcome)

theorem step_isAbandonedByCaller : (desk.step (.isAbandonedByCaller i)).1 =
    .flag ((desk[i]?.map LoginAttempt.isAbandonedByCaller).getD none) :=
  congrArg LoginView.flag (update_fst none fun a => (a.isAbandonedByCaller, a))

/-- What is told of an attempt in one more step that is about it. -/
theorem Tells.step (hi : (histories steps)[i]? = some h) (hs : s.attempt? = some i) (ht : Tells h ys) :
    Tells (h ++ [s]) (ys ++ (told i (s, ((run steps []).2.step s).1)).toList) := by
  by_cases hpoll : s = .poll i
  · subst hpoll
    obtain ⟨w, hstands, hw⟩ := getElem?_run hi
    rw [step_poll, hstands, told_poll]
    simp only [Option.map_some, Option.getD_some, LoginAttempt.poll_standing]
    cases w with
    | false => simpa using ht.append _
    | true =>
        cases hv : verdict h with
        | none => simpa using ht.append _
        | some outcome => exact ht.hear (hw.mp rfl) hv
  · rw [told_eq_none hpoll]
    simpa using ht.append s

/-- The history of an attempt after one more step. -/
theorem getElem?_record {hs : List (List LoginStep)} : (record hs s)[i]? = match s.attempt? with
    | none => if i = hs.length then some [] else hs[i]?
    | some j => if j = i then hs[i]?.map (· ++ [s]) else hs[i]? := by
  rw [record]
  cases s.attempt? with
  | none =>
      simp only
      rcases Nat.lt_trichotomy i hs.length with hlt | rfl | hgt
      · rw [List.getElem?_append_left hlt, if_neg (Nat.ne_of_lt hlt)]
      · simp
      · rw [if_neg (Nat.ne_of_gt hgt), List.getElem?_eq_none (Nat.le_of_lt hgt),
          List.getElem?_eq_none (by simpa using Nat.succ_le_of_lt hgt)]
  | some j =>
      simp only [List.getElem?_modify]
      cases hs[i]? <;> by_cases hj : j = i <;> simp [hj]

/-- Nothing is told of an attempt that has not been made, and otherwise at most its verdict, once. -/
theorem outcomes_tells :
    match (histories steps)[i]? with
    | none => outcomes i steps = []
    | some h => Tells h (outcomes i steps) := by
  induction steps using List.reverseRecOn with
  | nil => rfl
  | append_singleton steps s ih =>
      have hquiet : s ≠ .poll i → outcomes i (steps ++ [s]) = outcomes i steps := fun hpoll => by
        rw [outcomes_append, told_eq_none hpoll, Option.toList_none, List.append_nil]
      rw [histories_append, getElem?_record]
      cases hs : s.attempt? with
      | none =>
          have hpoll : s ≠ .poll i := fun hpoll => by simp [hpoll, LoginStep.attempt?] at hs
          rw [hquiet hpoll]
          by_cases hnew : i = (histories steps).length
          · subst hnew
            rw [List.getElem?_eq_none (Nat.le_refl _)] at ih
            simp only [if_true, ih]
            exact .waiting .nil
          · simpa only [hnew, if_false] using ih
      | some j =>
          by_cases hj : j = i
          · subst hj
            simp only [if_true]
            cases hi : (histories steps)[j]? with
            | some h =>
                simp only [hi] at ih
                rw [outcomes_append]
                exact ih.step hi hs
            | none =>
                simp only [hi] at ih
                by_cases hpoll : s = .poll j
                · rw [outcomes_append, hpoll, step_poll, run_snd, List.getElem?_map, hi, told_poll, ih]
                  rfl
                · exact (hquiet hpoll).trans ih
          · have hpoll : s ≠ .poll i := fun hpoll =>
              hj (Option.some.inj (hs.symm.trans (congrArg LoginStep.attempt? hpoll)))
            rw [hquiet hpoll]
            simpa only [hj, if_false] using ih

/-- A step that is about one attempt, or makes one, leaves the others as they are. -/
theorem getElem?_step (hs : s.attempt? ≠ some i) (hi : i < desk.length) :
    (desk.step s).2[i]? = desk[i]? := by
  rw [step_snd]
  cases hj : s.attempt? with
  | none => exact List.getElem?_append_left hi
  | some j =>
      have hne : j ≠ i := fun heq => hs (heq ▸ hj)
      simp [hne]

/-- However many attempts there are, and in whatever order their halves are used, looked into and
dropped: a look is in vain as long as the authenticator has its half; from then on it yields the first
thing that the authenticator has done, and the first such look is the last; the authenticator is told
whether the caller waits; and an attempt is what has been done with it, whatever is done with
others. -/
theorem one_outcome (steps : List LoginStep) (i : Nat) (h : List LoginStep)
    (hi : (histories steps)[i]? = some h) :
    let desk := (run steps []).2
    ((desk.step (.poll i)).1 = .glance (some .pending) ↔ Waits h ∧ verdict h = none) ∧
    (∀ outcome, (desk.step (.poll i)).1 = .glance (some (.settled outcome)) ↔
      Waits h ∧ verdict h = some outcome) ∧
    Tells h (outcomes i steps) ∧
    (∀ outcome b, (desk.step (.complete i outcome)).1 = .flag (some b) ↔
      verdict h = none ∧ (b = true ↔ Waits h)) ∧
    (∀ b, (desk.step (.isAbandonedByCaller i)).1 = .flag (some b) ↔
      verdict h = none ∧ (b = true ↔ ¬ Waits h)) ∧
    desk[i]? = some (.after h) ∧
    ∀ s : LoginStep, s.attempt? ≠ some i → (desk.step s).2[i]? = some (.after h) := by
  intro desk
  obtain ⟨w, hstands, hw⟩ := getElem?_run hi
  have hdesk : desk[i]? = some (.standing (verdict h) w) := hstands
  have hafter : desk[i]? = some (.after h) := by
    rw [show desk = _ from run_snd, List.getElem?_map, hi, Option.map_some]
  have htells := @outcomes_tells i steps
  rw [hi] at htells
  have hlook : (desk.step (.poll i)).1 =
      .glance (if w then some ((verdict h).elim .pending .settled) else none) := by
    rw [step_poll, hdesk, Option.map_some, Option.getD_some, LoginAttempt.poll_standing]
  refine ⟨?_, fun outcome => ?_, htells, fun outcome b => ?_, fun b => ?_, hafter, fun s hs => ?_⟩
  · rw [hlook, ← hw]
    cases w <;> cases verdict h <;> simp
  · rw [hlook, ← hw]
    cases w <;> cases verdict h <;> simp
  · rw [step_complete, hdesk, Option.map_some, Option.getD_some, LoginAttempt.complete_standing, ← hw]
    cases w <;> cases b <;> cases verdict h <;> simp
  · rw [step_isAbandonedByCaller, hdesk, Option.map_some, Option.getD_some,
      LoginAttempt.isAbandonedByCaller_standing, ← hw]
    cases w <;> cases b <;> cases verdict h <;> simp
  · rw [getElem?_step hs (List.getElem?_eq_some_iff.mp hafter).1]
    exact hafter

/-- Two attempts: the one is looked into too early and then refused, the other is given up by its
caller and then abandoned. -/
def crossed : List LoginStep :=
  [.start, .start, .poll 0, .dropCaller 1, .complete 0 (.refused .badPassword), .dropAnswer 1]

theorem one_outcome_crossed :
    (histories crossed)[0]? = some [.poll 0, .complete 0 (.refused .badPassword)] ∧
    ((run crossed []).2.step (.poll 0)).1 = .glance (some (.settled (.refused .badPassword))) ∧
    Waits [.poll 0, .complete 0 (.refused .badPassword)] ∧
    (∀ s : LoginStep, s.attempt? ≠ some 0 →
      ((run crossed []).2.step s).2[0]? =
        some (.after [.poll 0, .complete 0 (.refused .badPassword)])) ∧
    (histories crossed)[1]? = some [.dropCaller 1, .dropAnswer 1] ∧
    ¬ Waits [.dropCaller 1, .dropAnswer 1] ∧ outcomes 1 (crossed ++ [.poll 1, .poll 0]) = [] := by
  obtain ⟨-, hsettled, -, -, -, -, hothers⟩ := one_outcome crossed 0 _ rfl
  obtain ⟨-, hgiven, -⟩ := one_outcome crossed 1 _ rfl
  refine ⟨rfl, rfl, ((hsettled _).mp rfl).1, hothers, rfl, fun hw => ?_, rfl⟩
  exact absurd ((hgiven (.refused .abandoned)).mpr ⟨hw, rfl⟩) (by decide)

end LoginDesk

end Backplane
