import Backplane.Proofs.Environment.Annals
import Backplane.Proofs.Environment.Sound
/-!
# `Backplane.Proofs.Environment.Actions`: what an action obtains, and what it takes out

Whoever looks something up obtains a reference, be it to keep it in a slot or for the time of a
consultation only.  No reference to a registration that is hidden is obtained, by whatever action of
whatever party; and the only action after which a registration is missing is its withdrawal.

Whoever looks something up has `get_interface` or `get_advisors` of a `ModuleContext` or of the
`Broker`.
-/
namespace Backplane

/-- Only what is not hidden can be taken. -/
theorem Scene.Sound.notMem_takes {s : Scene} {gone : List Ticket} {h : Hold} {b : Broker} {t : Ticket}
    (hs : s.Sound gone) (ht : s.broker.Takes h b) (hgone : t ∈ gone) : t ∉ h.tickets := fun hmem => by
  have hopen := ht.hidden? hs.balanced.exact.wellFormed t hmem
  simpa using (hs.chronicled.hidden t false hopen).mpr hgone

namespace Environment

variable {env : Environment} {hand : List Hold} {gone : List Ticket} {p : Party} {h : Hold}
  {t : Ticket} {k : Contract}

/-! ## References obtained -/

/-- The lease that looking a contract up yields, if it yields one. -/
def leased (env : Environment) (k : Contract) : List Hold :=
  match env.broker.lease env.alive k with
  | .ok r => [.lease r.1]
  | .error _ => []

/-- The panel that looking the advisors of a contract up yields, if it yields one. -/
def seated (env : Environment) (k : Contract) : List Hold :=
  match (env.broker.panel env.alive k).1 with
  | .ok x => [.panel x]
  | .error _ => []

/-- What asking one scorer for its award obtains: a lottery takes the generator. -/
def scored (env : Environment) : Option Service → List Hold
  | some (.scorer (.lottery _ _)) => env.leased .generator
  | _ => []

/-- What asking the scorers of a panel obtains. -/
def allScored (k : Kill) : List Seat → Environment → List Hold
  | [], _ => []
  | s :: rest, env =>
    env.scored env.services[s.service]? ++ allScored k rest (env.score k env.services[s.service]?).2

/-- The references that an action obtains. -/
def obtained (env : Environment) : Action → List Hold
  | .lease k _ => env.leased k
  | .panel k _ => env.seated k
  | .draw _ => env.leased .generator
  | .filter _ => env.leased .wordFilter
  | .banner => env.seated .bannerPermit
  | .award kill =>
    let r := env.broker.panel env.alive .killPoints
    match r.1 with
    | .ok x => .panel x :: allScored kill x.seats { env with broker := r.2 }
    | .error _ => []
  | _ => []

theorem leased_hidden (hs : (env.scene hand).Sound gone) (ht : t ∈ gone) (hh : h ∈ env.leased k) :
    t ∉ h.tickets := by
  rw [leased] at hh
  cases hl : env.broker.lease env.alive k with
  | error e => simp [hl] at hh
  | ok r =>
      simp only [hl, List.mem_singleton] at hh
      rw [hh]
      exact hs.notMem_takes (.lease hl) ht

theorem seated_hidden (hs : (env.scene hand).Sound gone) (ht : t ∈ gone) (hh : h ∈ env.seated k) :
    t ∉ h.tickets := by
  rw [seated] at hh
  cases hp : (env.broker.panel env.alive k).1 with
  | error e => simp [hp] at hh
  | ok x =>
      simp only [hp, List.mem_singleton] at hh
      rw [hh]
      exact hs.notMem_takes (.panel hp) ht

theorem allScored_hidden {kill : Kill} {seats : List Seat} (hs : (env.scene hand).Sound gone)
    (ht : t ∈ gone) (hh : h ∈ allScored kill seats env) : t ∉ h.tickets := by
  induction seats generalizing env with
  | nil => simp [allScored] at hh
  | cons s seats ih =>
      rcases List.mem_append.mp hh with hh | hh
      · unfold scored at hh
        split at hh
        · exact leased_hidden hs ht hh
        · simp at hh
      · have hmoves : Moves .shared (env.scene hand)
            ((env.score kill env.services[s.service]?).2.scene hand) := score_moves
        exact ih (hs.moves hmoves (by simp)).1 hh

/-- Nobody obtains a reference to what is hidden. -/
theorem obtained_hidden {a : Action} (hs : (env.scene hand).Sound gone) (ht : t ∈ gone)
    (hh : h ∈ env.obtained a) : t ∉ h.tickets := by
  cases a with
  | lease k slot => exact leased_hidden hs ht hh
  | panel k slot => exact seated_hidden hs ht hh
  | draw requests => exact leased_hidden hs ht hh
  | filter text => exact leased_hidden hs ht hh
  | banner => exact seated_hidden hs ht hh
  | award kill =>
      rw [obtained] at hh
      cases hp : (env.broker.panel env.alive .killPoints).1 with
      | error e => simp [hp] at hh
      | ok x =>
          simp only [hp, List.mem_cons] at hh
          rcases hh with rfl | hh
          · exact hs.notMem_takes (.panel hp) ht
          · -- the scorers are asked while the panel is in hand
            have htake : Move .shared (env.scene hand) _ := take_move (.panel hp)
            exact allScored_hidden (hs.moves (.single htake) (by simp)).1 ht hh
  | _ => simp [obtained] at hh

theorem steady_slots : Steady Environment.slots := ⟨⟨fun _ _ _ _ => rfl⟩, fun _ _ => rfl⟩

theorem aloof_slots : Aloof Environment.slots := ⟨⟨fun _ _ _ _ => rfl⟩, fun _ _ _ _ _ => rfl⟩

theorem mem_place {slot : Option String} {x : SlotKey × Hold} (hx : x ∈ (env.place p slot h).slots) :
    x ∈ env.slots ∨ x.2 = h := by
  cases slot with
  | none =>
      have hsame : (env.giveUp h).slots = env.slots := aloof_slots.giveUp
      exact Or.inl (hsame ▸ hx)
  | some name =>
      have hput : x ∈ Keyed.put env.slots (p.slot name) h := by
        rw [place, fill] at hx
        cases hk : env.held? (p.slot name) with
        | none => simpa only [hk] using hx
        | some old =>
            simp only [hk] at hx
            rwa [aloof_slots.giveUp] at hx
      rcases List.mem_append.mp hput with hold | hnew
      · exact Or.inl (Keyed.mem_erase.mp hold).1
      · exact Or.inr (by rw [List.mem_singleton.mp hnew])

theorem mem_slots_lease {slot : Option String} {x : SlotKey × Hold}
    (hx : x ∈ (env.lease p k slot).2.slots) : x ∈ env.slots ∨ x.2 ∈ env.leased k := by
  rw [lease] at hx
  rw [leased]
  cases hl : env.broker.lease env.alive k with
  | error e =>
      simp only [hl] at hx
      exact Or.inl hx
  | ok r =>
      simp only [hl] at hx
      exact (mem_place hx).imp_right fun heq => by simp [heq]

theorem mem_slots_panel {slot : Option String} {x : SlotKey × Hold}
    (hx : x ∈ (env.panel p k slot).2.slots) : x ∈ env.slots ∨ x.2 ∈ env.seated k := by
  rw [panel] at hx
  rw [seated]
  cases hp : (env.broker.panel env.alive k).1 with
  | error e =>
      simp only [hp] at hx
      exact Or.inl hx
  | ok y =>
      simp only [hp] at hx
      exact (mem_place hx).imp_right fun heq => by simp [heq]

theorem slots_release_subset {slot : String} : (env.release p slot).2.slots ⊆ env.slots := by
  rw [release]
  cases env.held? (p.slot slot) with
  | none => exact List.Subset.refl _
  | some h =>
      have hleft : Keyed.erase env.slots (p.slot slot) ⊆ env.slots :=
        fun x hx => (Keyed.mem_erase.mp hx).1
      simp only
      cases (env.broker.giveBack h).1 <;> exact hleft

theorem slots_drop_subset {slot : String} : (env.drop p slot).2.slots ⊆ env.slots := by
  rw [drop]
  cases env.held? (p.slot slot) with
  | none => exact List.Subset.refl _
  | some h =>
      simp only [aloof_slots.giveUp]
      exact fun x hx => (Keyed.mem_erase.mp hx).1

/-- Whatever is in a slot after an action was in it before, or has been obtained. -/
theorem mem_slots_perform {a : Action} {x : SlotKey × Hold} (hx : x ∈ (env.perform p a).2.slots) :
    x ∈ env.slots ∨ x.2 ∈ env.obtained a := by
  have hsteady : (env.perform p a).2.slots = env.slots → x ∈ env.slots ∨ x.2 ∈ env.obtained a :=
    fun heq => Or.inl (heq ▸ hx)
  cases a with
  | publishInterface s name => exact hsteady (aloof_slots.publishInterface steady_slots)
  | publishAdvisor s priority name => exact hsteady (aloof_slots.publishAdvisor steady_slots)
  | withdraw name => exact hsteady aloof_slots.withdraw
  | lease k slot => exact mem_slots_lease hx
  | panel k slot => exact mem_slots_panel hx
  | release slot => exact Or.inl (slots_release_subset hx)
  | drop slot => exact Or.inl (slots_drop_subset hx)
  | award k => exact hsteady steady_slots.award
  | banner => exact hsteady aloof_slots.banner
  | filter text => exact hsteady aloof_slots.filter
  | draw requests => exact hsteady steady_slots.draw
  | keepDossier name => exact hsteady (keepDossier_same fun _ => rfl)
  | call request => exact hsteady aloof_slots.answerInside
  | _ => exact Or.inl hx

/-! ## Registrations taken out -/

theorem steady_history : Steady Environment.history := ⟨⟨fun _ _ _ _ => rfl⟩, fun _ _ => rfl⟩

theorem remote_history : Remote Environment.history := ⟨⟨fun _ _ _ _ => rfl⟩, fun _ _ => rfl⟩

theorem retain_history {t' : Ticket} {s : ServiceId} {name : Option String} :
    (env.retain p name t' s).history =
      env.history ++ [.published ((env.dossierOf p).map (·.member)) t'] := by
  rw [retain, keep]
  cases p.dossier? <;> cases name <;> rfl

theorem withdrawn_retain {t' : Ticket} {s : ServiceId} {name : Option String}
    (h : .withdrawn t ∈ (env.retain p name t' s).history) : .withdrawn t ∈ env.history := by
  simpa [retain_history] using h

theorem withdrawn_publishInterface {x : Service} {name : Option String}
    (h : .withdrawn t ∈ (env.publishInterface p x name).2.history) : .withdrawn t ∈ env.history := by
  rw [publishInterface] at h
  cases hr : env.broker.interfaces.register x.contract (env.ownerName p) env.services.length with
  | error e =>
      simp only [hr] at h
      exact h
  | ok r =>
      simp only [hr] at h
      have hold := withdrawn_retain h
      rwa [remote_history.announce] at hold

theorem withdraw_withdrawn {name : String} (h : .withdrawn t ∈ (env.withdraw p name).2.history) :
    .withdrawn t ∈ env.history ∨ Keyed.get? env.tickets name = some t ∧
      (env.withdraw p name).1 = .done ∧
      env.broker.withdraw t = .ok (env.withdraw p name).2.broker := by
  rw [withdraw] at h ⊢
  cases hname : Keyed.get? env.tickets name with
  | none =>
      simp only [hname] at h
      exact Or.inl h
  | some x =>
      cases hw : env.broker.withdraw x with
      | error e =>
          simp only [hname, withdrawTicket, hw, Except.map] at h
          exact Or.inl h
      | ok b =>
          simp only [hname, withdrawTicket, hw, Except.map, forget] at h ⊢
          cases hd : p.dossier? with
          | none =>
              simp only [hd] at h
              rcases List.mem_append.mp h with hold | hnew
              · exact Or.inl hold
              · rw [Episode.withdrawn.inj (List.mem_singleton.mp hnew)]
                exact Or.inr ⟨rfl, trivial, hw⟩
          | some n =>
              simp only [hd] at h
              rcases List.mem_append.mp h with hold | hnew
              · exact Or.inl hold
              · rw [Episode.withdrawn.inj (List.mem_singleton.mp hnew)]
                exact Or.inr ⟨rfl, trivial, hw⟩

/-- Only publishing and withdrawing go down in history. -/
theorem perform_history (a : Action) : (∃ s name, a = .publishInterface s name) ∨
    (∃ s priority name, a = .publishAdvisor s priority name) ∨ (∃ name, a = .withdraw name) ∨
    (env.perform p a).2.history = env.history := by
  cases a with
  | publishInterface s name => exact .inl ⟨s, name, rfl⟩
  | publishAdvisor s priority name => exact .inr (.inl ⟨s, priority, name, rfl⟩)
  | withdraw name => exact .inr (.inr (.inl ⟨name, rfl⟩))
  | lease k slot => exact .inr (.inr (.inr remote_history.lease))
  | panel k slot => exact .inr (.inr (.inr remote_history.panel))
  | release slot => exact .inr (.inr (.inr remote_history.release))
  | drop slot => exact .inr (.inr (.inr remote_history.drop))
  | award k => exact .inr (.inr (.inr steady_history.award))
  | banner => exact .inr (.inr (.inr remote_history.banner))
  | filter text => exact .inr (.inr (.inr remote_history.filter))
  | draw requests => exact .inr (.inr (.inr steady_history.draw))
  | keepDossier name => exact .inr (.inr (.inr (keepDossier_same fun _ => rfl)))
  | call request => exact .inr (.inr (.inr remote_history.answerInside))
  | _ => exact .inr (.inr (.inr rfl))

/-- An action after which a registration has been withdrawn is its withdrawal. -/
theorem perform_withdrawn {a : Action} (h : .withdrawn t ∈ (env.perform p a).2.history) :
    .withdrawn t ∈ env.history ∨ ∃ name, a = .withdraw name ∧
      Keyed.get? env.tickets name = some t ∧ (env.perform p (.withdraw name)).1 = .done ∧
      env.broker.withdraw t = .ok (env.perform p (.withdraw name)).2.broker := by
  rcases @perform_history env p a with
    ⟨s, name, rfl⟩ | ⟨s, priority, name, rfl⟩ | ⟨name, rfl⟩ | hsame
  · exact Or.inl (withdrawn_publishInterface h)
  · have hold := withdrawn_retain h
    rw [remote_history.announce] at hold
    exact Or.inl hold
  · exact (withdraw_withdrawn h).imp_right fun hw => ⟨name, rfl, hw⟩
  · exact Or.inl (hsame ▸ h)

end Environment

end Backplane
