import Backplane.Proofs.Lifecycle.Incidents
/-!
# `Backplane.Proofs.Lifecycle.Commitment`: once an unloading is committed

An unloading is committed when its checks have been passed: all registrations of the members
concerned are hidden then.  Hooks run until they are removed, and after some of them have been, and
may publish under the same capabilities, withdraw and look up whatever they like.  Nobody obtains a
reference to any of those registrations all the same, and each is withdrawn in the end.

This is `unload_all` or `unload_module` of the `ModuleLoader`, after `retire_registrations`.
-/
namespace Backplane

variable {start last e : Environment} {ds ds' : List Incident} {ms : List Member} {m : Member}
  {gone : List Ticket} {p : Nat → Prop} {t : Ticket}

/-- What incidents do to the registrations that members have at first: as long as those are there
they are shut off, each is withdrawn in the course of the incidents, and in the end none is left. -/
structure SeesOff (start last : Environment) (ds : List Incident) (ms : List Member) : Prop where
  spans : Spans start ds last
  spares : ∀ t ∈ start.ticketsOfAll ms, ∀ d ∈ ds, d.Spares t
  withdraws : ∀ t ∈ start.ticketsOfAll ms, (start.broker.usage? t).isSome → ∃ d ∈ ds, d.Withdraws t
  gone : ∀ t ∈ start.ticketsOfAll ms, last.broker.usage? t = none

theorem SeesOff.of_spares (hspans : Spans start ds last)
    (hspares : ∀ t ∈ start.ticketsOfAll ms, ∀ d ∈ ds, d.Spares t)
    (hgone : ∀ t ∈ start.ticketsOfAll ms, last.broker.usage? t = none) : SeesOff start last ds ms where
  spans := hspans
  spares := hspares
  withdraws := fun t ht hp => hspans.withdraws (hspares t ht) hp (hgone t ht)
  gone := hgone

/-! ## Before the hook before unloading -/

namespace Member

/-- What happens while a member is made ready to be taken down. -/
def readyIncidents (m : Member) (env : Environment) : List Incident :=
  if m.stage = .postLoaded then
    match m.advance .preUnloading env with
    | .ok x => x.1.hookIncidents .preUnload x.2
    | .error _ => []
  else []

theorem readyIncidents_spans : Spans e (m.readyIncidents e) (m.makeReady e).2.2 := by
  by_cases hstage : m.stage = .postLoaded
  · have hfirst : m.stage.mayBecome .preUnloading = true := by rw [hstage]; rfl
    obtain ⟨e₁, h₁, hs₁⟩ := advance_ok e hfirst
    let m₁ : Member := { m with stage := .preUnloading }
    have hnext : m₁.stage.mayBecome .preUnloaded = true := rfl
    obtain ⟨e₂, h₂, hs₂⟩ := advance_ok (m₁.runReported .preUnload e₁) hnext
    have hlast : (m.preUnload e).2.2 = e₂ := by
      simp only [preUnload, h₁]
      rw [h₂]
    simp only [readyIncidents, makeReady, hstage, if_true, h₁, hlast]
    exact (hookIncidents_spans.congr_left (hs₁ [])).congr_right (hs₂ [])
  · simp only [readyIncidents, makeReady, hstage, if_false]
    exact rfl

theorem readyIncidents_spares (hs : e.Sound gone) (hm : m.actor.member < e.nextMember)
    (ht : t ∈ gone) : ∀ d ∈ m.readyIncidents e, d.Spares t := by
  rw [readyIncidents]
  split
  · cases hadv : m.advance .preUnloading e with
    | error err => simp
    | ok x =>
        rw [advance] at hadv
        split at hadv
        · obtain rfl := Except.ok.inj hadv
          exact hookIncidents_spares (hs.same rfl) hm ht
        · simp at hadv
  · simp

end Member

/-! ## Taking down -/

/-- Whatever the members that are taken down have on record when it begins is seen off, if it is
hidden. -/
theorem takeDown_seesOff (hs : e.Sound gone) (hms : Removable p e ms)
    (hgone : e.ticketsOfAll ms ⊆ gone) :
    SeesOff e (tearDownAll ms e).2.2 (takeDownIncidents (removals ms e)) ms := by
  obtain ⟨e', heq, -, -, hout⟩ := hs.tearDownAll hms
  refine .of_spares (tearDownAll_spans fun m hm => (hms m hm).2.2)
    (fun t ht => tearDownAll_spares hs hms (hgone ht)) fun t ht => ?_
  obtain ⟨m, hm, hrecorded⟩ := List.mem_flatMap.mp ht
  rw [heq]
  exact hout m hm t (hs.chronicled.source _ t (hs.mem_ticketsOf.mp hrecorded))

/-- Whatever a member has on record that is made ready and taken down is seen off, if it is hidden. -/
theorem Member.seesOff (hs : e.Sound gone) (hm : m.Settled e.nextMember)
    (hgone : e.ticketsOf m.actor.member ⊆ gone) :
    ∃ m' e', m.makeReady e = (.ok (), m', e') ∧ (m'.teardown e').2.claims = e.claims ∧
      SeesOff e (m'.teardown e').2 (m.readyIncidents e ++ m'.teardownIncidents e') [m] := by
  obtain ⟨m', e', hready, hc, hactor, hstage⟩ := makeReady_ok hm hs
  have hlt : m'.actor.member < e'.nextMember := by
    rw [hactor]
    exact Nat.lt_of_lt_of_le hm.issued hc.course.later
  have hone : Removable (fun _ => True) e' [m'] := fun x hx => by
    rw [List.mem_singleton.mp hx]
    exact ⟨trivial, hlt, hstage⟩
  obtain ⟨-, hcourse, -, -, hout⟩ := hc.course.sound.teardown hone
  have hfirst : Spans e (m.readyIncidents e) e' := by
    have hall := @readyIncidents_spans e m
    rwa [hready] at hall
  have hrecords : ∀ t, t ∈ e.ticketsOfAll [m] → t ∈ e.ticketsOf m.actor.member := fun t ht => by
    simpa [Environment.ticketsOfAll] using ht
  refine ⟨m', e', hready, hcourse.claims.trans hc.course.claims,
    .of_spares (hfirst.append (teardown_spans hstage)) (fun t ht d hd => ?_) fun t ht => ?_⟩
  · have hhidden := hgone (hrecords t ht)
    rcases List.mem_append.mp hd with hd | hd
    · exact readyIncidents_spares hs hm.issued hhidden d hd
    · exact teardown_spares hc.course.sound hlt hhidden d hd
  · have hpub := hs.chronicled.source _ t (hs.mem_ticketsOf.mp (hrecords t ht))
    exact hout t (hactor ▸ hc.course.history_subset hpub)

namespace Rack

variable {r : Rack}

/-! ## Unloading everything -/

/-- What happens when every member is unloaded, from the moment in which it is committed. -/
def incidentsOfAll (r : Rack) : List Incident := takeDownIncidents r.removalsOfAll

theorem Sound.unloadAll_seesOff (hs : r.Sound) (h : r.MayUnloadAll) :
    SeesOff r.committedAll r.unloadAll.2.env r.incidentsOfAll r.members.reverse := by
  have hannounced : r.announced.Sound [] := hs.env.same rfl
  obtain ⟨hhid, b, log, -, heq⟩ := retireMembers_none hannounced h.idle
  have hcommitted : r.committedAll.Sound ([] ++ r.announced.ticketsOfAll r.members.reverse) := hhid
  have hrecords : r.committedAll.ticketsOfAll r.members.reverse =
      r.announced.ticketsOfAll r.members.reverse := by
    rw [committedAll, heq]
    rfl
  have hnext : r.committedAll.nextMember = r.env.nextMember := by
    rw [committedAll, heq]
    rfl
  have hready : Removable (fun _ => True) r.committedAll r.members.reverse := by
    intro m hm
    have hmem := List.mem_reverse.mp hm
    exact ⟨trivial, hnext ▸ (hs.settled m hmem).issued,
      (hs.settled m hmem).mayBecome_unloaded (h.detached m hmem)⟩
  have hdown := takeDown_seesOff hcommitted hready fun t ht => hrecords ▸ ht
  obtain ⟨log', henv⟩ := h.unloadAll_env
  rw [henv]
  exact ⟨hdown.spans.congr_right rfl, hdown.spares, hdown.withdraws, hdown.gone⟩

/-! ## Unloading one module -/

/-- What happens when a member is unloaded, from the moment in which it is committed. -/
def incidentsOf (r : Rack) (name : String) (m : Member) : List Incident :=
  m.readyIncidents (r.committed name m) ++ takeDownIncidents (r.removalsOf name)

/-- The claim that is released in the end is all that the unloading does besides. -/
theorem Sound.unload_seesOff {name : String} (hs : r.Sound) (h : r.MayUnload name m) :
    SeesOff (r.committed name m)
      ((r.unload name).2.withClaims (r.env.claims ++ [name])).env (r.incidentsOf name m) [m] := by
  have hclaimed := hs.withClaims (r.env.claims ++ [name])
  obtain ⟨hhid, b, log, -, heq⟩ := hclaimed.env.retire h.idle
  have hcommitted : (r.committed name m).Sound ([] ++ r.env.ticketsOf m.actor.member) := hhid
  change r.committed name m = _ at heq
  have hsettled : m.Settled (r.committed name m).nextMember := by
    rw [heq]
    exact hs.settled m (mem_of_find? h.found).1
  have hgone : (r.committed name m).ticketsOf m.actor.member ⊆
      [] ++ r.env.ticketsOf m.actor.member := by
    rw [heq]
    exact List.Subset.refl _
  obtain ⟨m', e', hready, hclaims, hoff⟩ := Member.seesOff hcommitted hsettled hgone
  have hincidents : r.incidentsOf name m =
      m.readyIncidents (r.committed name m) ++ m'.teardownIncidents e' := by
    have hpair : (r.withClaims (r.env.claims ++ [name])).ready m = (m', e') :=
      congrArg Prod.snd hready
    simp only [incidentsOf, removalsOf, claimAll_singleton h.unclaimed, h.found, hpair,
      takeDownIncidents, List.flatMap_singleton]
  have hlast : ((r.unload name).2.withClaims (r.env.claims ++ [name])).env =
      (m'.teardown e').2 := by
    have hheld : (m'.teardown e').2.claims = r.env.claims ++ [name] := by
      rw [hclaims, heq]
      rfl
    show { (r.unload name).2.env with claims := r.env.claims ++ [name] } = _
    rw [h.unload_env hready, ← hheld]
  rw [hincidents, hlast]
  exact hoff

end Rack

end Backplane
