import Backplane.Proofs.Lifecycle.Member
/-!
# `Backplane.Proofs.Lifecycle.Teardown`: members taken down one after another

Whatever the hooks of the members do, each is taken down, and what any of them had registered before
is gone then.  The registrations that are taken away from somebody are those which a member has on
record, in use, when its turn comes.

This is `teardown` of each `ModuleRecord`, with `remove_registrations`.
-/
namespace Backplane

variable {ms : List Member} {m : Member} {e₀ e : Environment} {p : Nat → Prop} {gone : List Ticket}
  {t : Ticket}

/-- Members that are taken down in order, each with the environment from which its registrations are
removed. -/
def removals : List Member → Environment → List (Member × Environment)
  | [], _ => []
  | m :: ms, env => (m, env) :: removals ms (m.teardown env).2

/-- Whether removing a member's registrations takes one away that is in use. -/
def Pulls (x : Member × Environment) (t : Ticket) : Prop :=
  t ∈ x.2.ticketsOf x.1.actor.member ∧ ∃ u, x.2.broker.usage? t = some u ∧ 0 < u.outstanding

/-- What is left in the end of what a member has published: what it has published since its
registrations were removed, unless somebody has withdrawn it. -/
def Emptied (x : Member × Environment) (e : Environment) : Prop :=
  ∀ t, .published (some x.1.actor.member) t ∈ e.history →
    ((e.broker.usage? t).isSome ↔
      .published (some x.1.actor.member) t ∉ x.2.history ∧ .withdrawn t ∉ e.history)

/-- Members that can be taken down, and whose registrations may be removed. -/
def Removable (p : Nat → Prop) (e : Environment) (ms : List Member) : Prop :=
  ∀ m ∈ ms, p m.actor.member ∧ m.actor.member < e.nextMember ∧ m.stage.mayBecome .unloaded = true

namespace Environment.Sound

/-- When all that is hidden is gone nothing is hidden any more. -/
theorem settle (hs : e.Sound gone) (hgone : ∀ t ∈ gone, e.broker.usage? t = none) : e.Sound [] where
  balanced := hs.balanced
  chronicled :=
    { hs.chronicled with
      hidden := fun t x hx => by
        obtain ⟨u, hu, -⟩ := Option.map_eq_some_iff.mp hx
        have ht : t ∉ gone := fun ht => by simp [Environment.scene, hgone t ht] at hu
        simpa [ht] using hs.chronicled.hidden t x hx
      known := by simp }
  tended := hs.tended

theorem teardown (hs : e.Sound gone) (hm : Removable p e (m :: ms)) :
    (m.teardown e).1 = .ok () ∧ Course p gone e (m.teardown e).2 ∧ Removable p (m.teardown e).2 ms ∧
      (∀ t, t ∈ (m.teardown e).2.broker.departures ↔ t ∈ e.broker.departures ∨ Pulls (m, e) t) ∧
      ∀ t, .published (some m.actor.member) t ∈ e.history →
        (m.teardown e).2.broker.usage? t = none := by
  obtain ⟨hp, hlt, hstage⟩ := hm m List.mem_cons_self
  obtain ⟨hc, hnext, hdep, hremoved⟩ := (Course.refl hs).teardown hp hlt hstage rfl
  refine ⟨(Member.teardown_ok hstage).1, hc, fun x hx => ?_, hdep, fun t ht => ?_⟩
  · rw [hnext]
    exact hm x (List.mem_cons_of_mem _ hx)
  · cases hu : e.broker.usage? t with
    | none => exact hc.absent hs ht hu
    | some u =>
        have hfiled := hs.chronicled.filed _ t ht (by simp [Environment.scene, hu])
        have hout := hremoved t (hs.mem_ticketsOf.mpr hfiled)
        rw [← Option.not_isSome_iff_eq_none]
        exact fun hsome => ((hc.sound.chronicled.present t).mp hsome).2.2 hout

/-- Up to the removal of each member's registrations. -/
theorem removals (hs : e.Sound gone) (hms : Removable p e ms) :
    ∀ x ∈ removals ms e, x.1 ∈ ms ∧ Course p gone e x.2 := by
  induction ms generalizing e with
  | nil => simp [Backplane.removals]
  | cons m ms ih =>
      intro x hx
      rcases List.mem_cons.mp hx with rfl | hx
      · exact ⟨List.mem_cons_self, .refl hs⟩
      · obtain ⟨-, hc, hrest, -⟩ := hs.teardown hms
        obtain ⟨hmem, hc'⟩ := ih hc.sound hrest x hx
        exact ⟨List.mem_cons_of_mem _ hmem, hc.trans hc'⟩

theorem tearDownAll (hs : e.Sound gone) (hms : Removable p e ms) :
    ∃ e', tearDownAll ms e = (.ok (ms.map Member.name), [], e') ∧ Course p gone e e' ∧
      (∀ t, t ∈ e'.broker.departures ↔
        t ∈ e.broker.departures ∨ ∃ x ∈ Backplane.removals ms e, Pulls x t) ∧
      ∀ m ∈ ms, ∀ t, .published (some m.actor.member) t ∈ e.history →
        e'.broker.usage? t = none := by
  induction ms generalizing e with
  | nil => exact ⟨e, rfl, .refl hs, by simp [Backplane.removals], by simp⟩
  | cons m ms ih =>
      obtain ⟨hok, hc, hrest, hdep, hout⟩ := hs.teardown hms
      obtain ⟨e', heq, hc', hdep', hout'⟩ := ih hc.sound hrest
      refine ⟨e', ?_, hc.trans hc', fun t => ?_, fun x hx t ht => ?_⟩
      · simp only [Backplane.tearDownAll, hok, heq, Except.map, List.map_cons]
      · rw [hdep', hdep, Backplane.removals, List.exists_mem_cons_iff, or_assoc]
      · rcases List.mem_cons.mp hx with rfl | hx
        · exact hc'.absent hc.sound (hc.history_subset ht) (hout t ht)
        · exact hout' x hx t (hc.history_subset ht)

/-- Once a member's registrations have been removed, those that are removed belong to others. -/
theorem removals_after (hs : e.Sound gone) (hms : Removable p e ms)
    (hd : (ms.map (·.actor.member)).Nodup) :
    ∀ x ∈ Backplane.removals ms e, x.2.Sound gone ∧
      Course (· ≠ x.1.actor.member) gone (x.2.removeRegistrations x.1.actor)
        (Backplane.tearDownAll ms e).2.2 := by
  induction ms generalizing e with
  | nil => simp [Backplane.removals]
  | cons m ms ih =>
      intro x hx
      obtain ⟨hok, hc, hrest, -⟩ := hs.teardown hms
      rw [List.map_cons, List.nodup_cons] at hd
      obtain ⟨hnew, hd⟩ := hd
      have hlast : (Backplane.tearDownAll (m :: ms) e).2.2 =
          (Backplane.tearDownAll ms (m.teardown e).2).2.2 := by
        simp only [Backplane.tearDownAll, hok]
      rw [hlast]
      rcases List.mem_cons.mp hx with rfl | hx
      · obtain ⟨-, hlt, hstage⟩ := hms m List.mem_cons_self
        have hown : Course (· ≠ m.actor.member) gone _ (m.teardown e).2 :=
          (Course.teardown_after hs hlt hstage).mono fun _ hn => hn.elim
        have hothers : Removable (· ≠ m.actor.member) (m.teardown e).2 ms := fun y hy =>
          ⟨fun heq => hnew (heq ▸ List.mem_map_of_mem hy), (hrest y hy).2⟩
        obtain ⟨e', heq, hc', -⟩ := hc.sound.tearDownAll hothers
        rw [heq]
        exact ⟨hs, hown.trans hc'⟩
      · exact ih hc.sound hrest hd x hx

/-- A member whose registrations have been removed is emptied by then. -/
theorem emptied {x : Member × Environment} {gone' : List Ticket} (hs : x.2.Sound gone)
    (hc : Course (· ≠ x.1.actor.member) gone' (x.2.removeRegistrations x.1.actor) e) :
    Emptied x e := by
  let removed := x.2.removeRegistrations x.1.actor
  have hclear : removed.scene [] = _ := Environment.removeRegistrations_scene
  have hremoved : Course (· = x.1.actor.member) gone x.2 removed := (Course.refl hs).clear rfl hclear
  have hhist : removed.history = x.2.history ++ (x.2.ticketsOf x.1.actor.member).map .removed :=
    congrArg Scene.history hclear
  intro t hpub
  rw [show (e.broker.usage? t).isSome ↔ _ from hc.sound.chronicled.present t]
  constructor
  · rintro ⟨-, hw, hr⟩
    refine ⟨fun hold => hr (hc.history_subset ?_), hw⟩
    -- it was present when the registrations were removed, so it was one of them
    have hpresent : (x.2.broker.usage? t).isSome := by
      refine (hs.chronicled.present t).mpr ⟨⟨_, hold⟩, fun hin => hw ?_, fun hin => hr ?_⟩
      all_goals exact hc.history_subset (hremoved.history_subset hin)
    have hfiled := hs.mem_ticketsOf.mpr (hs.chronicled.filed _ t hold hpresent)
    rw [hhist]
    exact List.mem_append_right _ (List.mem_map_of_mem hfiled)
  · rintro ⟨hnew, hw⟩
    refine ⟨⟨_, hpub⟩, hw, fun hr => ?_⟩
    obtain ⟨news, hnews, hothers⟩ := hc.history
    have hr' : .removed t ∈ removed.history ++ news := hnews ▸ hr
    rcases List.mem_append.mp hr' with hr' | hr'
    · obtain ⟨d, hd⟩ := hremoved.sound.chronicled.ended t (Or.inr hr')
      have hold : .published d t ∈ x.2.history := by
        have hin : .published d t ∈ x.2.history ++ (x.2.ticketsOf x.1.actor.member).map .removed :=
          hhist ▸ hd
        simpa using hin
      have hsame := hc.sound.chronicled.once _ _ t (hc.history_subset hd) hpub
      exact hnew (hsame ▸ hold)
    · obtain ⟨n, hne, hpub'⟩ := hothers t hr'
      exact hne (Option.some.inj (hc.sound.chronicled.once _ _ t hpub' hpub))

end Environment.Sound

end Backplane
