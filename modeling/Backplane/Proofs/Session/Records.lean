import Backplane.Proofs.Lifecycle.Records
import Backplane.Proofs.Session.Lawful
import Backplane.Proofs.Session.Moments
/-!
# `Backplane.Proofs.Session.Records`: what a module publishes is what its dossier lists

There are two accounts of what a module has published: the records of its dossier, and the
registrations of both registries that were made through it.  As long as everybody withdraws through
the dossier that he published through, the two agree, between the steps of a host and at every
moment of a step; and no ticket is unknown to a registry when registrations are retired or removed.

A dossier is a `ModuleContext`, and its records are what `registrations` yields.
-/
namespace Backplane

variable {e : Environment} {r : Rack} {gone ts done : List Ticket} {t : Ticket} {n : Nat} {who : Actor}
  {module : String}

/-! ## What is present -/

namespace Broker

variable {b : Broker}

theorem WellFormed.isSome_usage?_iff (h : b.WellFormed) :
    (b.usage? t).isSome ↔ t ∈ b.listings.map Listing.ticket := by
  rw [usage?_eq_map, Option.isSome_map, ← not_iff_not, ← listing?_eq_none_iff h,
    Option.not_isSome_iff_eq_none]

theorem WellFormed.withdraw_ne_unknown {c : Capability} (hb : b.WellFormed)
    (h : (b.usage? t).isSome) : b.withdraw t ≠ .error (.unknownTicket c) := by
  obtain ⟨u, hu⟩ := Option.isSome_iff_exists.mp h
  rw [hb.withdraw_eq, hu]
  simp only
  split <;> simp

theorem WellFormed.forceRemove_ne_none (hb : b.WellFormed) (h : (b.usage? t).isSome) :
    (b.forceRemove t).1 ≠ none := by
  obtain ⟨u, hu⟩ := Option.isSome_iff_exists.mp h
  rw [hb.forceRemove_fst, hu]
  simp

/-- Removing distinct registrations that are present finds each of them present. -/
theorem WellFormed.stepwise_removeAll (hb : b.WellFormed) (hd : ts.Nodup)
    (hts : ∀ t ∈ ts, (b.usage? t).isSome) :
    Stepwise (fun before t => ((b.removeAll before).usage? t).isSome) ts := by
  rintro before t after rfl
  have hout : t ∉ before := fun hin => (List.nodup_append.mp hd).2.2 t hin t List.mem_cons_self rfl
  rw [hb.removeAll.usage?, if_neg hout]
  exact hts t (by simp)

end Broker

namespace Environment

/-- The tickets of what an instance has published and the registries still have, in the order of
publication. -/
def publishing (e : Environment) (n : Nat) : List Ticket :=
  (publishedBy n e.history).filter fun t => t ∈ e.broker.listings.map Listing.ticket

theorem mem_publishing : t ∈ e.publishing n ↔
    .published (some n) t ∈ e.history ∧ t ∈ e.broker.listings.map Listing.ticket := by
  rw [publishing, List.mem_filter, mem_publishedBy, decide_eq_true_iff]

/-- On record is what is present of what was published. -/
theorem Upright.ticketsOf_eq (hu : e.Upright) (hs : e.Sound gone) : e.ticketsOf n = e.publishing n := by
  rw [hs.ticketsOf_eq, publishing]
  refine List.filter_congr fun t ht => decide_eq_decide.mpr ?_
  rw [hs.mem_ticketsOf, ← hs.wellFormed.isSome_usage?_iff]
  constructor
  · rintro ⟨d, hd, -, hin⟩
    have howner := hu.owned d hd t hin
    rw [hs.wellFormed.ownerOf_eq_map, Option.map_eq_some_iff] at howner
    obtain ⟨x, hx, -⟩ := howner
    rw [Broker.usage?_eq_map, hx]
    rfl
  · exact hs.chronicled.filed n t (mem_publishedBy.mp ht)

/-! ## Retiring and removing what is present -/

/-- Retiring what is present reports nothing: only a ticket that names nothing is reported. -/
theorem retireAll_log (hb : e.broker.WellFormed) (hts : ∀ t ∈ ts, (e.broker.usage? t).isSome) :
    (retireAll module done ts e).2.log = e.log := by
  induction ts generalizing done e with
  | nil => rfl
  | cons t ts ih =>
      obtain ⟨ht, hrest⟩ := List.forall_mem_cons.mp hts
      rw [retireAll_cons hb]
      cases hu : e.broker.usage? t with
      | none => simp [hu] at ht
      | some u =>
          by_cases ho : u.outstanding = 0
          · simp only [ho, if_true]
            refine ih hb.revise fun x hx => ?_
            rw [Broker.usage?_revise, Option.isSome_map]
            exact hrest x hx
          · simp only [ho, if_false]
            rfl

theorem removeTicket_broker :
    (ts.foldl (removeTicket module) e).broker = e.broker.removeAll ts :=
  congrArg Scene.broker (@foldl_scene e [] ts _ fun _ _ => removeTicket_scene)

theorem forceRemove_broker :
    (ts.foldl (forceRemove module) e).broker = e.broker.removeAll ts :=
  congrArg Scene.broker (@foldl_scene e [] ts _ fun _ _ => forceRemove_scene)

/-! ## Agreement -/

/-- Whether the dossier of an instance and the registries agree on what it publishes. -/
structure Agrees (e : Environment) (who : Actor) : Prop where
  /-- The dossier lists what is present, whoever asks it. -/
  registrations : ∀ home, (e.perform ⟨home, .dossier who.member⟩ .registrations).1 =
    .tickets (e.publishing who.member)
  once : (e.publishing who.member).Nodup
  /-- What is present and was made through the dossier bears the module's name. -/
  owned : ∀ x ∈ e.broker.listings, x.ticket ∈ e.publishing who.member → x.owner = who.module
  /-- Nothing unknown is met if the registrations are retired. -/
  retired : (e.retireRegistrations who).2.log = e.log
  /-- Nor if they are removed, the last one first. -/
  removed : Stepwise
    (fun before t => (before.foldl (removeTicket who.module) (e.clearRecords who.member)).broker.withdraw t
      ≠ .error (.unknownTicket t.capability))
    (e.ticketsOf who.member).reverse
  /-- Nor if they are removed by force. -/
  pulled : Stepwise
    (fun before t => ((before.foldl (forceRemove who.module)
      (e.clearRecords who.member)).broker.forceRemove t).1 ≠ none)
    (e.ticketsOf who.member).reverse

/-- Whether that is so for everybody who has been built. -/
def InAgreement (e : Environment) : Prop := ∀ who needs, .built who needs ∈ e.turns → e.Agrees who

/-- The dossier of whoever has been built. -/
theorem Upright.dossier? {needs : List String} (hu : e.Upright) (hs : e.Sound gone)
    (hbuilt : .built who needs ∈ e.turns) :
    ∃ d ∈ e.dossiers, e.dossier? who.member = some d ∧ d.module = who.module ∧
      d.tickets = e.publishing who.member := by
  obtain ⟨d, hd, hbearer⟩ := List.mem_map.mp (hu.named who needs hbuilt)
  obtain ⟨hn, hm⟩ := Prod.mk.inj hbearer
  have hfound : e.dossier? who.member = some d := hn ▸ dossier?_of_mem hs.chronicled.members hd
  refine ⟨d, hd, hfound, hm, ?_⟩
  rw [← hu.ticketsOf_eq hs, ticketsOf, hfound]
  rfl

theorem Upright.inAgreement (hu : e.Upright) (he : e.Stands) : e.InAgreement := by
  obtain ⟨gone, hs⟩ := he
  intro who needs hbuilt
  obtain ⟨d, hmem, hd, hm, htickets⟩ := hu.dossier? hs hbuilt
  have hall : e.ticketsOf who.member = e.publishing who.member := hu.ticketsOf_eq hs
  have honce : (e.publishing who.member).Nodup := (hu.once who.member).filter _
  have hpresent : ∀ t ∈ e.ticketsOf who.member, (e.broker.usage? t).isSome := fun t ht =>
    hs.wellFormed.isSome_usage?_iff.mpr (mem_publishing.mp (hall ▸ ht)).2
  have hsteps : Stepwise (fun before t => ((e.broker.removeAll before).usage? t).isSome)
      (e.ticketsOf who.member).reverse :=
    hs.wellFormed.stepwise_removeAll (by rwa [List.nodup_reverse, hall])
      fun t ht => hpresent t (List.mem_reverse.mp ht)
  refine ⟨fun home => ?_, honce, fun x hx hin => ?_, retireAll_log hs.wellFormed hpresent,
    hsteps.mono fun before t ht => ?_, hsteps.mono fun before t ht => ?_⟩
  · simp only [Environment.perform, askDossier, dossierOf, Party.dossier?, Option.bind_some, hd]
    exact congrArg Reply.tickets htickets
  · have howner := hu.owned d hmem x.ticket (htickets ▸ hin)
    rw [hs.wellFormed.ownerOf_eq_map, hs.wellFormed.listing?_of_mem hx, hm] at howner
    exact Option.some.inj howner
  · rw [removeTicket_broker]
    exact hs.wellFormed.removeAll.wellFormed.withdraw_ne_unknown ht
  · rw [forceRemove_broker]
    exact hs.wellFormed.removeAll.wellFormed.forceRemove_ne_none ht

end Environment

/-! ## Runs in which everybody withdraws his own -/

/-- A rack that a host can come to have if nobody ever withdraws, through one dossier or none, what
was published through another. -/
inductive Orderly : Rack → Prop
  | start (depot : Depot) : Orderly { env := { depot } }
  | step {r : Rack} (hr : Orderly r) (s : SessionStep) (hs : ∀ x ∈ Session.moments r s, x.Own) :
      Orderly (Session.step r s).2
  | clear {r : Rack} (hr : Orderly r) : Orderly (Session.clear r)
  /-- Other units come to lie about. -/
  | restock {r : Rack} (hr : Orderly r) (depot : Depot) :
      Orderly (r.mapEnv fun env => { env with depot })

namespace Orderly

theorem reachable (hr : Orderly r) : Reachable r := by
  induction hr with
  | start depot => exact .start depot
  | step hr s hs ih => exact ih.step s
  | clear hr ih => exact ih.clear
  | restock hr depot ih => exact ih.restock depot

theorem upright (hr : Orderly r) : r.env.Upright := by
  induction hr with
  | start depot => exact ⟨by simp, fun n => .nil, by simp⟩
  | step hr s hs ih =>
      exact ((Session.step_unfolds hr.reachable.sound.1 s).upright hr.reachable.stands ih).2 hs
  | clear hr ih => exact ih.unchanged rfl (fun _ => rfl) rfl fun _ _ h => h
  | restock hr depot ih => exact ih.unchanged rfl (fun _ => rfl) rfl fun _ _ h => h

end Orderly

theorem Reachable.built_of_mem {m : Member} (hr : Reachable r) (hm : m ∈ r.members) :
    .built m.actor m.dependencies ∈ r.env.turns := by
  have hlife : m.life ∈ r.roll.lives := List.mem_map_of_mem hm
  have hlived := hr.lawful.traced.living m.life hlife
  exact (mem_lifeline.mp (hlived.mem_built.mpr ⟨rfl, rfl⟩)).1

/-- As long as everybody withdraws his own, dossiers and registries agree: between two steps, at every
moment of a step up to the first at which somebody else's registration is withdrawn, and in what is
told of a member. -/
theorem Orderly.records_agree (hr : Orderly r) :
    r.env.InAgreement ∧
    (∀ m ∈ r.members, r.env.Agrees m.actor ∧ (m.info r.env).capabilities =
      (r.env.publishing m.actor.member).map Ticket.capability) ∧
    ∀ s, Stepwise (fun before x => (∀ y ∈ before, y.Own) → x.env.InAgreement) (Session.moments r s) := by
  have hs := hr.reachable.sound.1
  have hall := hr.upright.inAgreement hr.reachable.stands
  refine ⟨hall, fun m hm => ⟨hall m.actor _ (hr.reachable.built_of_mem hm), ?_⟩, fun s => ?_⟩
  · rw [Member.info, hr.upright.ticketsOf_eq hs.env]
  · intro before x after heq hown
    have hunfolds := Session.step_unfolds hs s
    have hmem : x ∈ Session.moments r s := by simp [heq]
    have hupright := (hunfolds.upright hr.reachable.stands hr.upright).1 before x after heq hown
    exact hupright.inAgreement ((hunfolds.stands hr.reachable.stands).1 x hmem)

/-! ## A run -/

/-- Whether everybody withdraws his own in steps that are taken in order. -/
def Session.AllOwn : Rack → List SessionStep → Prop
  | _, [] => True
  | r, s :: rest => (∀ x ∈ moments r s, x.Own) ∧ AllOwn (step r s).2 rest

instance Session.decidableAllOwn :
    ∀ (r : Rack) (steps : List SessionStep), Decidable (Session.AllOwn r steps)
  | _, [] => isTrue trivial
  | r, s :: rest =>
    have := decidableAllOwn (Session.step r s).2 rest
    inferInstanceAs (Decidable ((∀ x ∈ Session.moments r s, x.Own) ∧
      Session.AllOwn (Session.step r s).2 rest))

theorem Orderly.after {steps : List SessionStep} (hr : Orderly r) (h : Session.AllOwn r steps) :
    Orderly (Session.after r steps) := by
  induction steps generalizing r with
  | nil => exact hr
  | cons s steps ih => exact ih (hr.step s h.1) h.2

/-- A module that publishes a number and an advisor when it is loaded, and another advisor in the
place of the first when it is attached. -/
def trader : Blueprint :=
  plain "trader"
    { load := .perform (.publishInterface (.value ⟨"chat"⟩ false 7) none) fun _ =>
        .perform (.publishAdvisor (.permit true "asked") 0 (some "first")) .settle
      postLoad := .perform (.withdraw "first") fun _ =>
        .perform (.publishAdvisor (.permit false "asked") 1 none) .settle }

/-- A module that publishes an advisor and fails to load. -/
def bankrupt : Blueprint :=
  plain "bankrupt"
    { load := .perform (.publishAdvisor (.permit true "asked") 0 none) fun _ =>
        .finish (.panicked none) }

/-- The one has been loaded and attached, and the other could not be loaded. -/
def trading : Rack :=
  Session.after (.offering [trader, bankrupt])
    [.call (.add "trader" none), .call (.add "bankrupt" none), .call .postLoad]

theorem trading_orderly : Orderly trading := Orderly.after (.start _) (by decide)

theorem records_agree_trading :
    Orderly trading ∧ trading.env.InAgreement ∧
    trading.env.publishing 0 = [.interface ⟨"chat"⟩ 1, .advisor ⟨"banner-advisor"⟩ 3] ∧
    trading.env.publishing 1 = [] ∧
    (∃ m ∈ trading.members,
      (m.info trading.env).capabilities = [⟨"chat"⟩, ⟨"banner-advisor"⟩]) ∧
    (Session.moments trading (.call (.unload "trader"))).length = 4 ∧
    ∀ x ∈ Session.moments trading (.call (.unload "trader")), x.env.InAgreement := by
  obtain ⟨hagree, hmembers, hmoments⟩ := trading_orderly.records_agree
  have hown : ∀ x ∈ Session.moments trading (.call (.unload "trader")), x.Own := by decide
  refine ⟨trading_orderly, hagree, rfl, rfl, ⟨_, List.mem_singleton_self _,
    (hmembers _ (List.mem_singleton_self _)).2.trans rfl⟩, rfl, fun x hx => ?_⟩
  obtain ⟨before, hbefore, hsub⟩ := (hmoments (.call (.unload "trader"))).exists_of_mem hx
  exact hbefore fun y hy => hown y (hsub hy)

end Backplane
