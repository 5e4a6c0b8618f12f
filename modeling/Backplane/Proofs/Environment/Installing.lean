import Backplane.Proofs.Environment.Publishing
/-!
# `Backplane.Proofs.Environment.Installing`: hooks that keep no reference

A hook may publish, draw on randomness to make what it publishes, and report, all without ever
taking a reference.  It comes to its end if there is room for the exclusive services that it
publishes; then only their capabilities are taken that were free before, and what is in slots is
what was there.

Such a hook is told by the capabilities alone: what exactly it publishes may depend on chance.

The hooks are those of a `Module`, and what they publish goes to the `Broker`.
-/
namespace Backplane

/-- Whether a hook, as long as what it asks for is granted, publishes exclusive services of some
capabilities, in order, and ends well, without taking a reference. -/
inductive Behaviour.Installs : List Capability → Behaviour → Prop
  | finish : Installs [] (.finish .ok)
  | exclusive {cs : List Capability} {s : Service} {ticket : Option String}
      {next : Reply → Behaviour} (h : Installs cs (next (.published s.contract.capability))) :
      Installs (s.contract.capability :: cs) (.perform (.publishInterface s ticket) next)
  | advisory {cs : List Capability} {s : Service} {priority : Int} {ticket : Option String}
      {next : Reply → Behaviour} (h : Installs cs (next (.published s.contract.capability))) :
      Installs cs (.perform (.publishAdvisor s priority ticket) next)
  | entropy {cs : List Capability} {next : Reply → Behaviour}
      (h : ∀ g, Installs cs (next (.generator g))) : Installs cs (.perform .entropy next)
  | report {cs : List Capability} {event : LogEvent} {next : Reply → Behaviour}
      (h : Installs cs (next .done)) : Installs cs (.perform (.report event) next)

/-- Whether exclusive services of some capabilities can be published one after another. -/
structure Broker.HasRoom (b : Broker) (cs : List Capability) : Prop where
  free : ∀ c ∈ cs, b.interfaces.contains c = false
  distinct : cs.Nodup

theorem Broker.hasRoom_nil (b : Broker) : b.HasRoom [] := ⟨by simp, .nil⟩

namespace Environment

variable {e e' e'' : Environment} {cs cs' : List Capability} {party : Party} {s : Service}
  {ticket : Option String} {hook : Hook}

/-- What an environment becomes when exclusive services of some capabilities are published and no
reference is taken. -/
structure Gains (cs : List Capability) (e e' : Environment) : Prop where
  slots : e'.slots = e.slots
  taken : ∀ c, e'.broker.interfaces.contains c = true →
    c ∈ cs ∨ e.broker.interfaces.contains c = true

namespace Gains

theorem refl : Gains [] e e := ⟨rfl, fun _ hc => .inr hc⟩

theorem trans (h : Gains cs e e') (h' : Gains cs' e' e'') : Gains (cs ++ cs') e e'' := by
  refine ⟨h'.slots.trans h.slots, ?_⟩
  intro c hc
  rcases h'.taken c hc with hnew | hold
  · exact .inl (List.mem_append_right _ hnew)
  · exact (h.taken c hold).imp_left (List.mem_append_left _)

/-- What is not published makes no difference. -/
theorem same (h : Gains cs e e') (hslots : e''.slots = e'.slots) (hbroker : e''.broker = e'.broker) :
    Gains cs e e'' :=
  ⟨hslots.trans h.slots, hbroker ▸ h.taken⟩

/-- There is still room for what comes later. -/
theorem hasRoom (h : Gains cs e e') (hroom : e.broker.HasRoom (cs ++ cs')) :
    e'.broker.HasRoom cs' := by
  obtain ⟨hfree, hdistinct⟩ := hroom
  obtain ⟨-, hlater, hapart⟩ := List.nodup_append.mp hdistinct
  refine ⟨fun c hc => ?_, hlater⟩
  by_contra hnow
  have hthere : e'.broker.interfaces.contains c = true := by simpa using hnow
  rcases h.taken c hthere with hin | hbefore
  · exact hapart c hin c hc rfl
  · rw [hfree c (List.mem_append_right _ hc)] at hbefore
    exact Bool.noConfusion hbefore

end Gains

/-! ## Publishing -/

theorem slots_retain {x : ServiceId} {t : Ticket} {origin : Origin} {text : String} :
    ((e.announce party origin text).retain party ticket t x).slots = e.slots := by
  have hannounce : (e.announce party origin text).slots = e.slots := by
    rw [announce]
    split <;> rfl
  rw [← hannounce, retain, keep]
  cases party.dossier? <;> cases ticket <;> rfl

theorem publishInterface_gains (party : Party) (ticket : Option String)
    (hfree : e.broker.interfaces.contains s.contract.capability = false) :
    ∃ e', e.publishInterface party s ticket = (.published s.contract.capability, e') ∧
      Gains [s.contract.capability] e e' := by
  obtain ⟨n, i, hr⟩ :=
    Interfaces.register_of_free (e.ownerName party) e.services.length hfree
  have hp : e.broker.Publishes (.interface s.contract.capability n) { e.broker with interfaces := i } :=
    .interface hr
  refine ⟨_, publishInterface_ok hr, slots_retain, ?_⟩
  intro c hc
  rw [broker_retain] at hc
  show c ∈ [s.contract.capability] ∨ e.broker.interfaces.contains c = true
  have hthere := (hp.contains c).symm.trans hc
  rcases Bool.or_eq_true_iff.mp hthere with hold | hnew
  · exact .inr hold
  · have heq : s.contract.capability = c := of_decide_eq_true (Bool.and_eq_true_iff.mp hnew).2
    exact .inl (heq ▸ List.mem_singleton_self _)

theorem publishAdvisor_gains (party : Party) (ticket : Option String) {priority : Int} :
    ∃ e', e.publishAdvisor party s priority ticket = (.published s.contract.capability, e') ∧
      Gains [] e e' := by
  refine ⟨_, rfl, slots_retain, ?_⟩
  intro c hc
  rw [broker_retain] at hc
  exact .inr hc

/-! ## Hooks -/

/-- If there is room, a hook that takes no reference comes to its end. -/
theorem run_gains (who : Actor) (hook : Hook) {x : Behaviour} (hx : x.Installs cs)
    (hroom : e.broker.HasRoom cs) :
    ∃ e', Environment.run who hook x e = (.ok, e') ∧ Gains cs e e' := by
  induction hx generalizing e with
  | finish => exact ⟨e, rfl, .refl⟩
  | @exclusive cs s ticket next _ ih =>
      have hfree := hroom.free _ List.mem_cons_self
      obtain ⟨e₁, hperform, hone⟩ := publishInterface_gains (.member who.member) ticket hfree
      obtain ⟨e', hrun, hrest⟩ := ih (hone.hasRoom hroom)
      refine ⟨e', ?_, hone.trans hrest⟩
      rw [Environment.run, Environment.perform, hperform]
      exact hrun
  | @advisory cs s priority ticket next _ ih =>
      obtain ⟨e₁, hperform, hone⟩ :=
        @publishAdvisor_gains e s (.member who.member) ticket priority
      obtain ⟨e', hrun, hrest⟩ := ih (hone.hasRoom hroom)
      refine ⟨e', ?_, hone.trans hrest⟩
      rw [Environment.run, Environment.perform, hperform]
      exact hrun
  | @entropy cs next _ ih =>
      let drawn : Environment := { e with entropy := e.entropy.next }
      have hsame : Gains [] e drawn := Gains.refl.same rfl rfl
      obtain ⟨e', hrun, hrest⟩ := ih e.entropy (hsame.hasRoom hroom)
      exact ⟨e', hrun, hsame.trans hrest⟩
  | @report cs event next _ ih =>
      have hsame : Gains [] e (e.reportAll [event]) := Gains.refl.same rfl rfl
      obtain ⟨e', hrun, hrest⟩ := ih (hsame.hasRoom hroom)
      exact ⟨e', hrun, hsame.trans hrest⟩

theorem runHook_gains (who : Actor) {hooks : Hooks} (hx : (hooks.of hook).Installs cs)
    (hroom : e.broker.HasRoom cs) :
    ∃ e', e.runHook who hooks hook = (none, e') ∧ Gains cs e e' := by
  let begun := (e.note (.began who hook)).mark (.began who hook)
  have hbegun : Gains [] e begun := Gains.refl.same rfl rfl
  obtain ⟨e', hrun, hgains⟩ := run_gains who hook hx (hbegun.hasRoom hroom)
  refine ⟨e'.mark (.ended who hook none), ?_, (hbegun.trans hgains).same rfl rfl⟩
  rw [Environment.runHook, hrun]
  rfl

end Environment

end Backplane
