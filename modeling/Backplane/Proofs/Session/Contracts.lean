import Backplane.Proofs.Environment.Publishing
import Backplane.Proofs.Lifecycle.Records
import Backplane.Proofs.Session.Consultations
/-!
# `Backplane.Proofs.Session.Contracts`: services keep to their contracts

A registration says under which contract its service is published, and by which number the service
is known.  Services are never given up, and the only ones that change are generators, which stay
generators.  So whatever is done, the number of a registration leads to a service of its contract:

    publishing        a service more, under the next number, and a registration of its contract
    drawing           another generator where the generator was
    whatever else     no registration is made, and the services are what they were

This holds of everything that can be found on a rack.

A contract is a type that is a `Capability`.
-/
namespace Backplane

namespace Listing

def contract : Listing → Contract
  | interface e => e.contract
  | advisor e => e.contract

def service : Listing → ServiceId
  | interface e => e.service
  | advisor e => e.service

end Listing

/-! ## Registries -/

namespace Broker

variable {b b' : Broker} {kinds kinds' : List Contract} {xs : List Listing} {ts : List Ticket}

/-- Whether every registration is of the contract that its service has, by a list of what the
services are. -/
def Regular (kinds : List Contract) (b : Broker) : Prop :=
  ∀ x ∈ b.published, kinds[x.service]? = some x.contract

theorem regular_empty : Regular [] {} := fun _ hx => absurd hx List.not_mem_nil

namespace Regular

theorem mono (h : b.Regular kinds) (hk : kinds <+: kinds') : b.Regular kinds' := by
  intro x hx
  obtain ⟨more, rfl⟩ := hk
  have hkind := h x hx
  rwa [List.getElem?_append_left (List.getElem?_eq_some_iff.mp hkind).1]

theorem alters (h : b.Regular kinds) (hb : b.WellFormed) (ha : b.Alters xs ts b')
    (hxs : ∀ x ∈ xs, kinds[x.service]? = some x.contract) : b'.Regular kinds := by
  intro x hx
  rcases List.mem_append.mp (List.mem_of_mem_filter ((ha.published hb).mem_iff.mp hx)) with hx | hx
  · exact h x hx
  · exact hxs x hx

theorem removeAll (h : b.Regular kinds) (hb : b.WellFormed) : (b.removeAll ts).Regular kinds := by
  induction ts generalizing b with
  | nil => exact h
  | cons t ts ih =>
      exact ih (h.alters hb (.remove t) (by simp)) hb.forceRemove.wellFormed

theorem interface (h : b.Regular kinds) {e : Registration Unit} (he : e ∈ b.interfaces.entries) :
    kinds[e.service]? = some e.contract := by
  refine h (Listing.asMade (.interface e)) ?_
  exact List.mem_map_of_mem (List.mem_append_left _ (List.mem_map_of_mem he))

theorem advisor (h : b.Regular kinds) {e : Registration Int} (he : e ∈ b.advisors.entries) :
    kinds[e.service]? = some e.contract := by
  refine h (Listing.asMade (.advisor e)) ?_
  exact List.mem_map_of_mem (List.mem_append_right _ (List.mem_map_of_mem he))

end Regular

end Broker

/-! ## Services -/

namespace Environment

variable {env : Environment} {p : Party} {h : Hold} {s : Service} {kill : Kill} {seats : List Seat}

/-- The contracts of the services, by their numbers. -/
def kinds (env : Environment) : List Contract := env.services.map Service.contract

/-- An environment with regular registries. -/
def Regular (env : Environment) : Prop := env.broker.Regular env.kinds

theorem getElem?_kinds {n : ServiceId} : env.kinds[n]? = env.services[n]?.map Service.contract :=
  List.getElem?_map

/-! ### What does not change them -/

theorem remote_kinds : Remote Environment.kinds := ⟨⟨fun _ _ _ _ => rfl⟩, fun _ _ => rfl⟩

theorem aloof_kinds : Aloof Environment.kinds := ⟨⟨fun _ _ _ _ => rfl⟩, fun _ _ _ _ _ => rfl⟩

/-! ### Generators -/

/-- Who takes a lease on a contract finds a service of that contract. -/
theorem Regular.leased {k : Contract} {l : Lease} {b : Broker} (hr : env.Regular)
    (hl : env.broker.lease env.alive k = .ok (l, b)) :
    ∃ s, env.services[l.service]? = some s ∧ s.contract = k := by
  obtain ⟨i, hi, -⟩ := Broker.lease_cases hl
  obtain ⟨e, he, hc, hshape, -, -, rfl, -⟩ := Interfaces.lease_cases hi
  have hkind := hr.interface he
  rw [Contract.eq_of_shape hc hshape, getElem?_kinds] at hkind
  exact Option.map_eq_some_iff.mp hkind

theorem Regular.kinds_withGenerator {α : Type} {f : Xorshift → α × Xorshift} {r : α × Environment}
    (hr : env.Regular) (hb : env.broker.WellFormed) (hg : env.withGenerator f = .ok r) :
    r.2.kinds = env.kinds := by
  cases hl : env.broker.lease env.alive .generator with
  | error e => simp [withGenerator, hl, Except.map] at hg
  | ok x =>
      obtain ⟨s, hs, hc⟩ := hr.leased hl
      have hkind : env.kinds[x.1.service]? = some .generator := by
        rw [getElem?_kinds, hs, Option.map_some, hc]
      obtain ⟨hlt, hget⟩ := List.getElem?_eq_some_iff.mp hkind
      rw [withGenerator_eq hb hl, Except.ok.injEq] at hg
      subst hg
      show (env.services.set x.1.service (.generator _)).map Service.contract = env.kinds
      -- a generator is put where a generator was
      rw [List.map_set, Service.contract, ← hget]
      exact List.set_getElem_self hlt

theorem Regular.kinds_score (hr : env.Regular) (hb : env.broker.WellFormed) {s : Option Service} :
    (env.score kill s).2.kinds = env.kinds := by
  unfold score
  split
  · rfl
  · rfl
  · rfl
  · split
    · next hg => exact hr.kinds_withGenerator hb hg
    · rfl
  · rfl

/-- Registries stay regular while they and what the services are stay the same. -/
theorem Regular.same {env' : Environment} (hr : env.Regular) (hb : env'.broker = env.broker)
    (hk : env'.kinds = env.kinds) : env'.Regular := by
  rw [Regular, hb, hk]
  exact hr

theorem Regular.score (hr : env.Regular) (kill : Kill) (hb : env.broker.WellFormed)
    (s : Option Service) :
    (env.score kill s).2.Regular ∧ (env.score kill s).2.broker.WellFormed := by
  have hstill : env.Undisturbed (env.score kill s).2 := score_undisturbed hb
  have hbroker : (env.score kill s).2.broker = env.broker := by rw [hstill]
  exact ⟨hr.same hbroker (hr.kinds_score hb), hbroker ▸ hb⟩

theorem Regular.kinds_scores (hr : env.Regular) (hb : env.broker.WellFormed) :
    (scores kill seats env).2.kinds = env.kinds := by
  induction seats generalizing env with
  | nil => rfl
  | cons seat seats ih =>
      obtain ⟨hnext, hwf⟩ := hr.score kill hb env.services[seat.service]?
      exact (ih hnext hwf).trans (hr.kinds_score hb)

/-- The environment in which a panel has been taken. -/
def seating (env : Environment) (k : Contract) : Environment :=
  { env with broker := (env.broker.panel env.alive k).2 }

theorem Regular.seating {k : Contract} (hr : env.Regular) (hb : env.broker.WellFormed) :
    (env.seating k).Regular ∧ (env.seating k).broker.WellFormed := by
  cases hp : (env.broker.panel env.alive k).1 with
  | error e =>
      rw [Environment.seating, panel_failed hb hp]
      exact ⟨hr, hb⟩
  | ok p =>
      have htakes : env.broker.Takes (.panel p) (env.seating k).broker := .panel hp
      have hrevise : env.broker.Alters [] [] (env.seating k).broker := by
        rw [htakes.eq hb]
        exact .revise _
      exact ⟨Broker.Regular.alters hr hb hrevise (by simp), hrevise.wellFormed hb⟩

theorem Regular.kinds_award (hr : env.Regular) (hb : env.broker.WellFormed) :
    (env.award kill).2.kinds = env.kinds := by
  obtain ⟨hseating, hwf⟩ := hr.seating (k := .killPoints) hb
  rw [award]
  cases (env.broker.panel env.alive .killPoints).1 with
  | error e => rfl
  | ok p =>
      exact remote_kinds.giveUp.trans (hseating.kinds_scores hwf)

theorem Regular.kinds_draw {requests : List Xorshift.Draw} (hr : env.Regular)
    (hb : env.broker.WellFormed) : (env.draw requests).2.kinds = env.kinds := by
  rw [draw]
  cases hg : env.withGenerator (Xorshift.drawAll requests) with
  | error e => rfl
  | ok r => exact hr.kinds_withGenerator (r := r) hb hg

/-! ## Actions -/

theorem kinds_addService : (env.addService s).kinds = env.kinds ++ [s.contract] := List.map_append

/-- A service more, published by a registration of its contract. -/
theorem Regular.publishes {b : Broker} {x : Listing} (hr : env.Regular) (hb : env.broker.WellFormed)
    (ha : env.broker.Alters [x] [] b) (hservice : x.service = env.services.length)
    (hcontract : x.contract = s.contract) : b.Regular (env.addService s).kinds := by
  rw [kinds_addService]
  refine (hr.mono (List.prefix_append _ _)).alters hb ha ?_
  intro y hy
  rw [List.mem_singleton.mp hy, hservice, hcontract]
  simp [kinds]

theorem Regular.publishInterface {name : Option String} (hr : env.Regular)
    (hb : env.broker.WellFormed) : (env.publishInterface p s name).2.Regular := by
  rw [Environment.publishInterface]
  cases hreg : env.broker.interfaces.register s.contract (env.ownerName p) env.services.length with
  | error e => exact hr
  | ok r =>
      have hpublished := hr.publishes hb (.interface hreg) rfl rfl
      rw [Regular, broker_retain, aloof_kinds.retain, aloof_kinds.announce]
      exact hpublished

theorem Regular.publishAdvisor {priority : Int} {name : Option String} (hr : env.Regular)
    (hb : env.broker.WellFormed) : (env.publishAdvisor p s priority name).2.Regular := by
  have hpublished := hr.publishes hb
    (.advisor s.contract (env.ownerName p) priority env.services.length) rfl rfl
  rw [Environment.publishAdvisor, Regular, broker_retain, aloof_kinds.retain, aloof_kinds.announce]
  exact hpublished

theorem Regular.withdraw {name : String} (hr : env.Regular) (hb : env.broker.WellFormed) :
    (env.withdraw p name).2.Regular := by
  rw [Regular, aloof_kinds.withdraw, Environment.withdraw]
  cases Keyed.get? env.tickets name with
  | none => exact hr
  | some t =>
      cases hw : env.broker.withdraw t with
      | error e =>
          simp only [withdrawTicket, hw, Except.map]
          exact hr
      | ok b =>
          obtain rfl := Broker.forceRemove_of_withdraw hw
          have hleft := Broker.Regular.alters hr hb (.remove t) (by simp)
          simp only [withdrawTicket, hw, Except.map, forget]
          cases p.dossier? <;> exact hleft

/-- Whoever does something, registries stay regular. -/
theorem Regular.perform {gone : List Ticket} (hr : env.Regular) (hs : env.Sound gone)
    (hhome : ∀ n, p.home = .member n → n < env.nextMember) (a : Action) :
    (env.perform p a).2.Regular := by
  have hb := hs.wellFormed
  -- whatever neither publishes nor withdraws only has to leave the kinds of services what they are
  have hquiet : (env.perform p a).2.history = env.history →
      (env.perform p a).2.kinds = env.kinds → (env.perform p a).2.Regular := by
    intro hsame hkinds
    obtain ⟨-, f, hf⟩ := Scene.Sound.quiet hs (perform_moves a) hhome hsame
    have hf : (env.perform p a).2.broker = env.broker.revise f := hf
    rw [Regular, hkinds, hf]
    exact Broker.Regular.alters hr hb (.revise f) (by simp)
  cases a with
  | publishInterface s name => exact hr.publishInterface hb
  | publishAdvisor s priority name => exact hr.publishAdvisor hb
  | withdraw name => exact hr.withdraw hb
  | lease k slot => exact hquiet remote_history.lease remote_kinds.lease
  | panel k slot => exact hquiet remote_history.panel remote_kinds.panel
  | release slot => exact hquiet remote_history.release remote_kinds.release
  | drop slot => exact hquiet remote_history.drop remote_kinds.drop
  | award k => exact hquiet steady_history.award (hr.kinds_award hb)
  | banner => exact hquiet remote_history.banner remote_kinds.banner
  | filter text => exact hquiet remote_history.filter remote_kinds.filter
  | draw requests => exact hquiet steady_history.draw (hr.kinds_draw hb)
  | keepDossier name =>
      exact hquiet (keepDossier_same fun _ => rfl) (keepDossier_same fun _ => rfl)
  | call request => exact hquiet remote_history.answerInside remote_kinds.answerInside
  | _ => exact hr

end Environment

/-! ## Whatever happens -/

variable {e e' : Environment} {xs : List Moment} {r : Rack}

/-- Regular registries are regular at every moment, and afterwards. -/
theorem Unfolds.regular (h : Unfolds e xs e') (he : e.Stands) (hr : e.Regular) :
    (∀ x ∈ xs, x.env.Regular) ∧ e'.Regular := by
  have hnone : ∀ x ∈ ([] : List Moment), x.env.Regular := List.forall_mem_nil _
  induction h with
  | refl e | begin e p | detach e m | join needs quiet hnew hlt => exact ⟨hnone, hr⟩
  | trans h _ ih ih' =>
      obtain ⟨hxs, hmid⟩ := ih he hr
      obtain ⟨hys, hlast⟩ := ih' (h.stands he).2 hmid
      exact ⟨List.forall_mem_append.mpr ⟨hxs, hys⟩, hlast⟩
  | act a hhome =>
      obtain ⟨gone, hs⟩ := he
      exact ⟨List.forall_mem_singleton.mpr hr, hr.perform hs hhome a⟩
  | rest e => exact ⟨List.forall_mem_singleton.mpr hr, hr⟩
  | retire h =>
      obtain ⟨gone, hs⟩ := he
      obtain ⟨-, b, log, hb, heq⟩ := hs.retire h
      obtain ⟨f, rfl⟩ := hb.recast
      rw [heq]
      exact ⟨List.forall_mem_singleton.mpr hr,
        Broker.Regular.alters hr hs.wellFormed (.revise f) (by simp)⟩
  | refuse _ _ hscene _ hservices ih =>
      obtain ⟨hxs, hmid⟩ := ih he hr
      refine ⟨List.forall_mem_append.mpr ⟨hxs, List.forall_mem_singleton.mpr hmid⟩, ?_⟩
      exact hr.same (congrArg Scene.broker hscene) (congrArg (List.map Service.contract) hservices)
  | @remove e e' who hscene _ hservices =>
      obtain ⟨gone, hs⟩ := he
      refine ⟨List.forall_mem_singleton.mpr hr, ?_⟩
      have hb : e'.broker = e.broker.removeAll (e.ticketsOf who.member).reverse :=
        congrArg Scene.broker hscene
      rw [Environment.Regular, hb, Environment.kinds, hservices]
      exact Broker.Regular.removeAll hr hs.wellFormed
  | emptySlots e n =>
      obtain ⟨gone, hs⟩ := he
      have hmoves : Moves .shared (e.scene []) ((e.emptySlots n).scene []) :=
        Environment.emptySlots_moves
      obtain ⟨-, f, hf⟩ :=
        Scene.Sound.quiet hs hmoves (by simp) Environment.remote_history.emptySlots
      have hf : (e.emptySlots n).broker = e.broker.revise f := hf
      refine ⟨hnone, ?_⟩
      rw [Environment.Regular, hf, Environment.remote_kinds.emptySlots]
      exact Broker.Regular.alters hr hs.wellFormed (.revise f) (by simp)
  | same hscene hservices =>
      exact ⟨hnone, hr.same (congrArg Scene.broker hscene)
        (congrArg (List.map Service.contract) hservices)⟩
  | claimed _ _ ih =>
      obtain ⟨hxs, hlast⟩ := ih (he.withClaims _) hr
      exact ⟨hxs, hlast⟩

theorem Reachable.regular (hr : Reachable r) : r.env.Regular := by
  induction hr with
  | start depot => exact Broker.regular_empty
  | step hr s ih => exact ((Session.step_unfolds hr.sound.1 s).regular hr.stands ih).2
  | clear hr ih => exact ih
  | restock hr depot ih => exact ih

/-- Whoever looks, whenever he does, finds the registries regular. -/
theorem Reachable.visits_regular (hr : Reachable r) (he : r.Visits e) : e.Regular := by
  rcases he with rfl | ⟨s, x, hx, rfl⟩
  · exact hr.regular
  · exact ((Session.step_unfolds hr.sound.1 s).regular hr.stands hr.regular).1 x hx

end Backplane
