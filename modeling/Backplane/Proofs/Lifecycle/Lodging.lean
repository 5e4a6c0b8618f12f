import Backplane.Lifecycle.Stages
import Backplane.Proofs.Environment.Publishing
import Backplane.Proofs.Lifecycle.Registrations
/-!
# `Backplane.Proofs.Lifecycle.Lodging`: a publishing module from its building to its end

A module whose hook on loading only publishes, and whose other hooks do nothing, is followed through
the lifecycle: it is built and loaded, it may be attached and made ready, its registrations are
hidden and removed, and it is dropped.  At each of these steps the environment is what it was before
the module was built, but for what is filed in the dossier of the module.

It is one `ModuleRecord` from `load_one` to `teardown`.
-/
namespace Backplane

namespace Environment

variable {e₀ e : Environment} {ts : List Ticket} {who : Actor} {m : Member} {hook : Hook}

/-- Nothing is done for an instance that has nothing in its slots. -/
theorem emptySlots_of_none {n : Nat} (h : ∀ x ∈ e.slots, x.1.home ≠ .member n) :
    e.emptySlots n = e := by
  have hown : (e.slots.filter fun x => decide (x.1.home = .member n)) = [] :=
    List.filter_eq_nil_iff.mpr fun x hx => by simpa using h x hx
  have hleft : (e.slots.filter fun x => !decide (x.1.home = .member n)) = e.slots :=
    List.filter_eq_self.mpr fun x hx => by simpa using h x hx
  simp only [emptySlots, hown, hleft]
  rfl

namespace Lodges

theorem ticketsOf (h : Lodges e₀ ts e) : e.ticketsOf e₀.nextMember = ts := by
  obtain ⟨d, hd, hts, heq⟩ := h.dossiers
  have hnone : e₀.dossiers.find? (fun d => d.member = e₀.nextMember) = none :=
    List.find?_eq_none.mpr fun x hx => by
      have hne : x.member ≠ e₀.nextMember := fun hxn => h.fresh (hxn ▸ List.mem_map_of_mem hx)
      simpa using hne
  have hfound : e.dossier? e₀.nextMember = some d := by
    rw [dossier?, heq, List.find?_append, hnone, List.find?_singleton]
    simp [hd]
  rw [Environment.ticketsOf, hfound]
  exact hts

/-! ## Hooks -/

theorem runHook {hooks : Hooks} {ps : List Publication} (h : Lodges e₀ ts e)
    (hx : (hooks.of hook).Publishes ps) (ha : e.broker.Admits ps)
    (hwho : who.member = e₀.nextMember) :
    ∃ ts' e', e.runHook who hooks hook = (none, e') ∧
      ts'.map Ticket.isExclusive = ps.map Publication.isExclusive ∧ Lodges e₀ (ts ++ ts') e' := by
  have hbegun : Lodges e₀ ts ((e.note (.began who hook)).mark (.began who hook)) := h.noted
  obtain ⟨ts', e', hrun, hts, hall⟩ := Lodges.run hook hx hbegun ha hwho
  refine ⟨ts', e'.mark (.ended who hook none), ?_, hts, hall.noted⟩
  rw [Environment.runHook, hrun]
  rfl

/-- A hook that does nothing does not fail. -/
theorem runReported (h : Lodges e₀ ts e) (hq : (m.body.hooks.of hook).Publishes [])
    (hm : m.actor.member = e₀.nextMember) : Lodges e₀ ts (m.runReported hook e) := by
  obtain ⟨ts', e', hrun, hts, hall⟩ := h.runHook hq .nil hm
  obtain rfl : ts' = [] := by simpa using hts
  rw [Member.runReported, hrun]
  rwa [List.append_nil] at hall

/-! ## Hiding -/

theorem retireAll {module : String} {done ts' : List Ticket} (h : Lodges e₀ ts e) (hts : ts' ⊆ ts) :
    (Environment.retireAll module done ts' e).1 = none ∧
      Lodges e₀ ts (Environment.retireAll module done ts' e).2 := by
  induction ts' generalizing done e with
  | nil => exact ⟨rfl, h⟩
  | cons t ts' ih =>
      obtain ⟨ht, hrest⟩ := List.cons_subset.mp hts
      obtain ⟨u, hu, ho⟩ := h.broker.idle t ht
      rw [retireAll_cons h.broker.wellFormed, hu]
      simp only [ho, if_true]
      exact ih (h.withBroker (h.broker.hide ht)) hrest

/-- All that the instance has registered can be hidden. -/
theorem retire (h : Lodges e₀ ts e) (hwho : who.member = e₀.nextMember) :
    (e.retireRegistrations who).1 = none ∧ Lodges e₀ ts (e.retireRegistrations who).2 := by
  rw [retireRegistrations, hwho, h.ticketsOf]
  exact h.retireAll (List.Subset.refl ts)

/-! ## Removing -/

theorem foldl_removeTicket {module : String} :
    ∃ log, ts.foldl (removeTicket module) e = { e with broker := e.broker.removeAll ts, log } := by
  induction ts generalizing e with
  | nil => exact ⟨e.log, rfl⟩
  | cons t ts ih =>
      have hone : ∃ log, removeTicket module e t =
          { e with broker := (e.broker.forceRemove t).2, log } := by
        unfold removeTicket withdrawTicket
        cases hw : e.broker.withdraw t with
        | error x =>
            unfold forceRemove
            simp only [Except.map]
            split <;> exact ⟨_, rfl⟩
        | ok b =>
            obtain rfl := Broker.forceRemove_of_withdraw hw
            exact ⟨_, rfl⟩
      obtain ⟨log, hlog⟩ := hone
      obtain ⟨log', hlog'⟩ := @ih (removeTicket module e t)
      refine ⟨log', ?_⟩
      rw [List.foldl_cons, hlog', hlog]
      rfl

/-- When all that the instance has registered has been removed, its dossier is empty, and the
registries are what they were but for the numbers. -/
theorem removeRegistrations (h : Lodges e₀ ts e) (hwho : who.member = e₀.nextMember) :
    Lodges { e₀ with broker := e₀.broker.skipAll ts } [] (e.removeRegistrations who) := by
  obtain ⟨d, hd, hts, heq⟩ := h.dossiers
  obtain ⟨log, hlog⟩ := @foldl_removeTicket (e.clearRecords e₀.nextMember) ts.reverse who.module
  have hbroker : (e.clearRecords e₀.nextMember).broker.removeAll ts.reverse = e₀.broker.skipAll ts :=
    h.broker.removeAll
  have hwf : (e₀.broker.skipAll ts).WellFormed :=
    h.broker.removeAll ▸ h.broker.wellFormed.removeAll.wellFormed
  have hcleared := h.changeIn_dossiers (f := fun d => { d with records := [] }) hd heq
  rw [Environment.removeRegistrations, hwho, h.ticketsOf, hlog, hbroker]
  exact ⟨.refl hwf, ⟨{ d with records := [] }, hd, rfl, hcleared⟩, h.fresh, h.services, h.kept,
    h.hosted, h.slots, h.nextMember⟩

end Lodges

/-- What an environment has become when an instance has come and gone that has published under some
tickets: an empty dossier more, services that nobody keeps, and numbers that have been given out. -/
structure Outlives (e₀ : Environment) (ts : List Ticket) (e : Environment) : Prop where
  broker : e.broker = e₀.broker.skipAll ts
  dossiers : ∃ d : Dossier, d.records = [] ∧ e.dossiers = e₀.dossiers ++ [d]
  services : e₀.services <+: e.services
  kept : e.kept = e₀.kept
  hosted : e.hosted = e₀.hosted
  slots : e.slots = e₀.slots
  nextMember : e.nextMember = e₀.nextMember + 1

/-- The same services are kept as before. -/
theorem Outlives.alive (h : Outlives e₀ ts e) : e.alive = e₀.alive := by
  funext s
  obtain ⟨d, hd, heq⟩ := h.dossiers
  have hheld : e.isHeld = e₀.isHeld := by
    funext x
    rw [isHeld, isHeld, h.kept]
  rw [Environment.alive, Environment.alive, heq, hheld, h.hosted, h.slots, List.any_append]
  simp [hd]

end Environment

/-! ## The steps of a member -/

section Steps

open Environment (Lodges Outlives)

variable {e₀ e : Environment} {ts : List Ticket} {m : Member} {ps : List Publication}

theorem Member.advance_lodges {next : Stage} (h : Lodges e₀ ts e)
    (hstage : m.stage.mayBecome next = true) :
    ∃ e', m.advance next e = .ok ({ m with stage := next }, e') ∧ Lodges e₀ ts e' :=
  ⟨_, if_pos hstage, h.noted⟩

/-- The member is loaded if there is room for what it publishes. -/
theorem Member.load_lodges (h : Lodges e₀ [] e) (hm : m.actor.member = e₀.nextMember)
    (hstage : m.stage = .unloaded) (hload : m.body.hooks.load.Publishes ps)
    (ha : e₀.broker.Admits ps) :
    ∃ ts e', m.load e = (.ok { m with stage := .loaded }, e') ∧
      ts.map Ticket.isExclusive = ps.map Publication.isExclusive ∧ Lodges e₀ ts e' := by
  have hmay : m.stage.mayBecome .loading = true := by
    rw [hstage]
    rfl
  obtain ⟨e₁, hfirst, hloading⟩ := Member.advance_lodges h hmay
  have hroom : e₁.broker.Admits ps := hloading.broker.eq ▸ ha
  have hfirstHook : (m.body.hooks.of .load).Publishes ps := hload
  obtain ⟨ts, e₂, hrun, hts, hpublished⟩ := hloading.runHook hfirstHook hroom hm
  let m₁ : Member := { m with stage := .loading }
  have hmay₁ : m₁.stage.mayBecome .loaded = true := rfl
  obtain ⟨e₃, hlast, hloaded⟩ := Member.advance_lodges hpublished hmay₁
  refine ⟨ts, e₃.report .info .loader
    ("Module " ++ m.name ++ " v" ++ m.body.version ++ " loaded from unit " ++ m.unit), ?_, hts,
    hloaded.noted⟩
  rw [Member.load, hfirst]
  simp only [hrun]
  rw [hlast]
  rfl

/-- A module is built and loaded if there is room for what it publishes. -/
theorem PlannedModule.load_lodges {p : PlannedModule} {body : Instance} (batch : Nat)
    (hwf : e.broker.WellFormed) (hfresh : e.nextMember ∉ e.dossiers.map (·.member))
    (hprepared : p.blueprint.preparations = []) (hbuilt : p.blueprint.construction = .built body)
    (hload : body.hooks.load.Publishes ps) (ha : e.broker.Admits ps) :
    ∃ ts e', p.load batch e =
        (.ok { actor := ⟨e.nextMember, p.name, p.blueprint.watched⟩, body, unit := p.unit.reference,
               stage := .loaded, batch, dependencies := p.dependencies }, e') ∧
      ts.map Ticket.isExclusive = ps.map Publication.isExclusive ∧ Lodges e ts e' := by
  let who : Actor := ⟨e.nextMember, p.name, p.blueprint.watched⟩
  let there := (p.checkName body (p.begin e).2).mark (.built who p.dependencies)
  have hopened : Lodges e [] (there.openDossier who p.unit.isDynamic) := by
    have hsame : ∃ log, p.checkName body (p.begin e).2 = { (p.begin e).2 with log } := by
      unfold PlannedModule.checkName
      split
      · exact ⟨_, rfl⟩
      · exact ⟨_, rfl⟩
    obtain ⟨log, hlog⟩ := hsame
    simp only [there, hlog]
    exact ⟨.refl hwf, ⟨_, rfl, rfl, rfl⟩, hfresh, List.prefix_refl _, rfl, rfl, rfl, rfl⟩
  let m : Member :=
    { actor := who, body, unit := p.unit.reference, batch, dependencies := p.dependencies }
  obtain ⟨ts, e', hloaded, hts, hlodges⟩ := Member.load_lodges (m := m) hopened rfl rfl hload ha
  refine ⟨ts, e', ?_, hts, hlodges⟩
  rw [PlannedModule.load, hprepared, hbuilt]
  exact hloaded

/-- The member is made ready for its end. -/
theorem Member.preUnload_lodges (h : Lodges e₀ ts e) (hm : m.actor.member = e₀.nextMember)
    (hstage : m.stage = .postLoaded) (hq : m.body.hooks.preUnload.Publishes []) :
    ∃ e', m.preUnload e = (.ok (), { m with stage := .preUnloaded }, e') ∧ Lodges e₀ ts e' := by
  have hmay : m.stage.mayBecome .preUnloading = true := by
    rw [hstage]
    rfl
  obtain ⟨e₁, hfirst, hbegun⟩ := Member.advance_lodges h hmay
  let m₁ : Member := { m with stage := .preUnloading }
  have hrun : Lodges e₀ ts (m₁.runReported .preUnload e₁) := hbegun.runReported hq hm
  have hmay₁ : m₁.stage.mayBecome .preUnloaded = true := rfl
  obtain ⟨e₂, hlast, hready⟩ := Member.advance_lodges hrun hmay₁
  refine ⟨e₂, ?_, hready⟩
  rw [Member.preUnload, hfirst]
  simp only
  rw [hlast]

/-- When it has been taken down nothing is left of the member. -/
theorem Member.teardown_outlives (h : Lodges e₀ ts e) (hm : m.actor.member = e₀.nextMember)
    (hstage : m.stage.mayBecome .unloaded = true) (hq : m.body.hooks.unload.Publishes [])
    (hslots : ∀ x ∈ e₀.slots, x.1.home ≠ .member e₀.nextMember) :
    ∃ e', m.teardown e = (.ok (), e') ∧ Outlives e₀ ts e' := by
  have hremoved := h.removeRegistrations hm
  have hlastHook : (m.body.hooks.of .unload).Publishes [] := hq
  have hrun := hremoved.runReported hlastHook hm
  obtain ⟨e₁, hlast, hgone⟩ := Member.advance_lodges hrun hstage
  let last := e₁.report .info .loader ("🔌 Module " ++ m.name ++ " unloaded")
  refine ⟨m.leave last, ?_, ?_⟩
  · rw [Member.teardown, hlast]
  have hnone : ∀ x ∈ last.slots, x.1.home ≠ .member m.actor.member := by
    rw [hm]
    exact fun x hx => hslots x (hgone.slots ▸ hx)
  have hdrop : m.dropInstance last = (last.note (.dropped m.actor)).mark (.dropped m.actor) :=
    Environment.emptySlots_of_none hnone
  obtain ⟨d, hd, hts, heq⟩ := hgone.dossiers
  have hdetached := hgone.changeIn_dossiers (f := fun d => { d with attached := false }) hd heq
  rw [Member.leave, hdrop, Member.detach, hm]
  exact ⟨hgone.broker.eq, ⟨{ d with attached := false }, List.map_eq_nil_iff.mp hts, hdetached⟩,
    hgone.services, hgone.kept, hgone.hosted, hgone.slots, hgone.nextMember⟩

end Steps

end Backplane
