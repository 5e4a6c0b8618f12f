import Backplane.Proofs.Lifecycle.Tenure
import Backplane.Proofs.Session.Lawful
/-!
# `Backplane.Proofs.Session.Quiescence`: between two requests

Between two requests nothing is hidden, nobody is between two stages, and no name is claimed.  The
dossier of everybody who is loaded is attached, so that it keeps alive what has been published
through it: whoever looks that up finds it.  And no request fails half-way, once its checks have been
passed.

The requests are those to the `ModuleLoader`.
-/
namespace Backplane

variable {r : Rack} {env : Environment} {m : Member} {t : Ticket} {s : ServiceId}

namespace Session

theorem perform_tenured {p : Party} (h : r.env.Tenured) (a : Action) :
    (perform r p a).2.env.Tenured :=
  h.moves_annals (Environment.perform_moves a) (Environment.perform_annals a)

theorem through_tenured (h : r.env.Tenured) (n : Nat) (x : ScriptStep) :
    (through r n x).2.env.Tenured := by
  cases x with
  | act a must => exact perform_tenured h a
  | keep name => exact perform_tenured h (.keepDossier name)
  | fail e => exact h
  | panic reason => exact h

theorem learn_tenured (h : r.env.Tenured) (source : Source) : (r.learn source).env.Tenured := by
  unfold Rack.learn
  split <;> exact h

theorem planSource_tenured (h : r.env.Tenured) (source : Source) :
    (r.planSource source).2.env.Tenured := by
  rw [Rack.planSource]
  cases source.read with
  | error e => exact h
  | ok m =>
      simp only
      cases (r.plan m).1 <;> exact h

theorem answer_tenured (h : r.env.Tenured) (request : LifecycleCall) :
    (r.answer request).2.env.Tenured := by
  cases request with
  | load source => exact Rack.load_tenured (learn_tenured h source)
  | add name unit => exact Rack.loadManifest_tenured h
  | postLoad => exact Rack.postLoad_tenured h
  | preUnload => exact Rack.preUnload_tenured h
  | unloadAll => exact Rack.unloadAll_tenured h
  | unload name => exact Rack.unload_tenured h
  | plan source => exact planSource_tenured (learn_tenured h source) source
  | _ => exact h

theorem step_tenured (h : r.env.Tenured) (x : SessionStep) : (step r x).2.env.Tenured := by
  cases x with
  | act owner a => exact perform_tenured h a
  | through name x =>
      rw [step]
      cases Keyed.get? r.env.kept name with
      | none => exact h
      | some n => exact through_tenured h n x
  | call request => exact answer_tenured h request
  | _ => exact h

end Session

/-- On every rack that can be reached, dossiers are attached until their instances are dropped. -/
theorem Reachable.tenured (hr : Reachable r) : r.env.Tenured := by
  induction hr with
  | start depot => simp [Environment.Tenured]
  | step hr x ih => exact Session.step_tenured ih x
  | clear hr ih => exact ih
  | restock hr depot ih => exact ih

/-! ## Keeping alive -/

theorem Environment.alive_of_record {d : Dossier} {x : Record} (hd : d ∈ env.dossiers)
    (ha : d.attached = true) (hx : x ∈ d.records) : env.alive x.service = true := by
  have hheld : env.dossiers.any (fun d => env.isHeld d && d.records.any fun r => r.service = x.service)
      = true :=
    List.any_eq_true.mpr ⟨d, hd, by
      rw [isHeld, ha, Bool.true_or, Bool.true_and]
      exact List.any_eq_true.mpr ⟨x, hx, decide_eq_true rfl⟩⟩
  rw [alive, hheld]
  rfl

namespace Rack

/-- What has been published through the dossier of somebody who is loaded is kept alive. -/
theorem alive_of_published (hs : r.Sound) (hl : r.roll.Lawful) (ht : r.env.Tenured)
    (hm : m ∈ r.members) (hpub : .published (some m.actor.member) t ∈ r.env.history)
    (hserves : r.env.broker.Serves t s) : r.env.alive s = true := by
  obtain ⟨d, hd, hdn, hfiled⟩ := hs.env.chronicled.filed _ t hpub hserves.isSome_usage?
  obtain ⟨x, hx, rfl⟩ := List.mem_map.mp hfiled
  have hservice : s = x.service := (hs.env.tended.kept d hd).served x hx s hserves
  have hattached : d.attached = true := by
    by_contra hout
    obtain ⟨who, hwho, hdropped⟩ := ht d hd (by simpa using hout)
    have hlived := hl.traced.living m.life (List.mem_map_of_mem hm)
    exact hlived.alive.2 who (mem_lifeline.mpr ⟨hdropped, hwho.trans hdn⟩)
  rw [hservice]
  exact Environment.alive_of_record hd hattached hx

/-- Whether no request is under way. -/
structure AtRest (r : Rack) : Prop where
  interfaces : ∀ e ∈ r.env.broker.interfaces.entries, e.usage.retired = false
  advisors : ∀ e ∈ r.env.broker.advisors.entries, e.usage.retired = false
  stages : ∀ m ∈ r.members, m.stage = .loaded ∨ m.stage = .postLoaded ∨ m.stage = .preUnloaded
  unclaimed : r.env.claims = []

/-- Whether everything that has been published through the dossier of somebody who is loaded, and is
present, is found by those who look it up. -/
structure Available (r : Rack) : Prop where
  interfaces : ∀ m ∈ r.members, ∀ e ∈ r.env.broker.interfaces.entries,
    .published (some m.actor.member) (.interface e.contract.capability e.serial) ∈ r.env.history →
      (∃ b, r.env.broker.lease r.env.alive e.contract =
        .ok (⟨e.contract, e.serial, e.owner, e.service⟩, b)) ∧
      ∀ p slot, (r.env.perform p (.lease e.contract slot)).1 =
        .leased e.contract.capability e.owner (r.env.numberOf e.service)
  advisors : ∀ m ∈ r.members, ∀ e ∈ r.env.broker.advisors.entries,
    .published (some m.actor.member) (.advisor e.contract.capability e.serial) ∈ r.env.history →
      ∀ panel, (r.env.broker.panel r.env.alive e.contract).1 = .ok panel → e.seat ∈ panel.seats

/-- Whether requests reach their end that cannot be refused, or have not been. -/
structure Unfailing (r : Rack) : Prop where
  postLoad : ∃ n, r.postLoad.1 = .ok n
  preUnload : ∃ n, r.preUnload.1 = .ok n
  unloadAll : r.MayUnloadAll → ∃ names, r.unloadAll.1 = .ok names
  unload : ∀ name m, r.MayUnload name m → (r.unload name).1 = .ok ()

theorem Sound.open_interface (hs : r.Sound) {e : Registration Unit}
    (he : e ∈ r.env.broker.interfaces.entries) : e.usage.retired = false :=
  hs.env.isOpen (.interface e.contract.capability e.serial) e.usage
    (hs.env.wellFormed.interfaces.usage?_of_mem he)

theorem Sound.open_advisor (hs : r.Sound) {e : Registration Int}
    (he : e ∈ r.env.broker.advisors.entries) : e.usage.retired = false :=
  hs.env.isOpen (.advisor e.contract.capability e.serial) e.usage
    (hs.env.wellFormed.advisors.book.usage?_of_mem he)

theorem Sound.available (hs : r.Sound) (hl : r.roll.Lawful) (ht : r.env.Tenured) : r.Available where
  interfaces := fun m hm e he hpub => by
    have hcard : r.env.broker.Serves (.interface e.contract.capability e.serial) e.service :=
      List.mem_map_of_mem he
    have hexclusive : r.env.broker.Exclusive := hs.env.tended.exclusive
    obtain ⟨i, hi⟩ := Interfaces.lease_of_mem hexclusive he (hs.open_interface he)
      (alive_of_published hs hl ht hm hpub hcard)
    have hlease : r.env.broker.lease r.env.alive e.contract =
        .ok (⟨e.contract, e.serial, e.owner, e.service⟩, { r.env.broker with interfaces := i }) := by
      rw [Broker.lease, hi]
      rfl
    refine ⟨⟨_, hlease⟩, fun p slot => ?_⟩
    show (r.env.lease p e.contract slot).1 = _
    rw [Environment.lease, hlease]
    rfl
  advisors := fun m hm e he hpub panel hp => by
    have hcard : r.env.broker.Serves (.advisor e.contract.capability e.serial) e.service :=
      List.mem_map_of_mem he
    exact hs.env.wellFormed.advisors.mem_panel hp he (hs.open_advisor he) (alive_of_published hs hl ht hm hpub hcard)

theorem Sound.unfailing (hs : r.Sound) : r.Unfailing where
  postLoad := hs.postLoad.imp fun _ h => h.1
  preUnload := hs.preUnload.imp fun _ h => h.1
  unloadAll := fun h => ⟨_, (hs.unloadAll_granted h).1⟩
  unload := fun _ _ h => (hs.unload_granted h).1

end Rack

/-- Between two requests everything is at rest and can be looked up, and whatever claims other
requests hold, the next one does not fail half-way. -/
theorem Reachable.quiescent (hr : Reachable r) :
    r.AtRest ∧ r.Available ∧ ∀ claims, (r.withClaims claims).Unfailing := by
  obtain ⟨hs, hclaims⟩ := hr.sound
  refine ⟨⟨fun e he => hs.open_interface he, fun e he => hs.open_advisor he,
    fun m hm => (hs.settled m hm).stage, hclaims⟩, hs.available hr.lawful hr.tenured, fun claims => ?_⟩
  exact (hs.withClaims claims).unfailing

/-- A module that publishes a number, and an advisor on banners, when it is loaded. -/
def provider : Blueprint :=
  plain "provider"
    { load := .perform (.publishInterface (.value ⟨"chat"⟩ false 7) none) fun _ =>
        .perform (.publishAdvisor (.permit true "asked") 0 none) .settle }

/-- That module has been loaded, attached and detached. -/
def providing : Rack :=
  Session.after (.offering [provider])
    [.call (.add "provider" none), .call .postLoad, .call .preUnload]

theorem providing_reachable : Reachable providing := (Reachable.offering _).after _

/-- What that module has published is found, and it can be unloaded. -/
theorem quiescent_providing :
    Reachable providing ∧ providing.AtRest ∧
    (∃ m ∈ providing.members, ∃ e ∈ providing.env.broker.interfaces.entries,
      .published (some m.actor.member) (.interface e.contract.capability e.serial) ∈
        providing.env.history ∧
      (providing.env.perform (.host "host") (.lease e.contract none)).1 = .leased ⟨"chat"⟩ "provider" 7) ∧
    (∃ m ∈ providing.members, ∃ e ∈ providing.env.broker.advisors.entries,
      .published (some m.actor.member) (.advisor e.contract.capability e.serial) ∈
        providing.env.history ∧
      ∃ panel, (providing.env.broker.panel providing.env.alive e.contract).1 = .ok panel ∧
        e.seat ∈ panel.seats) ∧
    (providing.MayUnloadAll ∧ ∃ names, providing.unloadAll.1 = .ok names) ∧
    ∃ m, providing.MayUnload "provider" m ∧ (providing.unload "provider").1 = .ok () := by
  obtain ⟨hrest, havailable, hunfailing⟩ := providing_reachable.quiescent
  have hall : providing.MayUnloadAll :=
    ⟨fun m hm => by rw [List.mem_singleton.mp hm]; exact Stage.noConfusion, rfl⟩
  have hone : ∃ m, providing.MayUnload "provider" m :=
    ⟨_, ⟨List.not_mem_nil, rfl, rfl, rfl⟩⟩
  refine ⟨providing_reachable, hrest, ⟨_, List.mem_singleton_self _, _, List.mem_singleton_self _,
    List.mem_cons_self, ?_⟩, ⟨_, List.mem_singleton_self _, _, List.mem_singleton_self _,
    List.mem_cons_of_mem _ List.mem_cons_self, _, rfl, ?_⟩, ⟨hall, (hunfailing []).unloadAll hall⟩,
    hone.imp fun m h => ⟨h, (hunfailing []).unload "provider" m h⟩⟩
  · exact (havailable.interfaces _ (List.mem_singleton_self _) _ (List.mem_singleton_self _)
      List.mem_cons_self).2 (.host "host") none
  · exact havailable.advisors _ (List.mem_singleton_self _) _ (List.mem_singleton_self _)
      (List.mem_cons_of_mem _ List.mem_cons_self) _ rfl

end Backplane
