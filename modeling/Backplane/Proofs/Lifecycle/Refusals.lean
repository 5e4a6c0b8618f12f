import Backplane.Proofs.Lifecycle.Passages
/-!
# `Backplane.Proofs.Lifecycle.Refusals`: why an unloading is refused

Unloading is refused for one reason only, the first of these that there is:

    everything      somebody is attached
                    a registration is in use
    one module      it is not loaded
                    others depend on it
                    one of its registrations is in use

Whoever stands in the way is named: of the members the one loaded last, of its registrations the one
made first.

These are the errors of `unload_all` and of `unload_module`.
-/
namespace Backplane

variable {b : Broker} {env : Environment} {gone : List Ticket} {n k : Nat} {t : Ticket}
  {c : Capability} {done ms : List Member} {m : Member}

/-! ## Registrations in use -/

namespace Broker

/-- What stands in the way of retiring a registration: its capability, and its count. -/
def obstacle? (b : Broker) (t : Ticket) : Option (Capability × Nat) :=
  match b.outstanding t with
  | some (refs + 1) => some (t.capability, refs + 1)
  | _ => none

theorem obstacle?_eq_some :
    b.obstacle? t = some (c, k) ↔ t.capability = c ∧ b.outstanding t = some k ∧ 0 < k := by
  rw [obstacle?]
  rcases b.outstanding t with _ | _ | refs
  · simp
  · simp only [reduceCtorEq, Option.some.injEq, false_iff]
    rintro ⟨-, rfl, hpos⟩
    exact absurd hpos (Nat.lt_irrefl 0)
  · simp only [Option.some.injEq, Prod.mk.injEq]
    exact ⟨fun ⟨hc, hk⟩ => ⟨hc, hk, hk ▸ Nat.succ_pos refs⟩, fun ⟨hc, hk, _⟩ => ⟨hc, hk⟩⟩

theorem Hides.obstacle? {b' : Broker} {ts : List Ticket} (h : b.Hides ts b') (hb : b.WellFormed) :
    b'.obstacle? = b.obstacle? := by
  funext t
  have hsame : b'.outstanding t = b.outstanding t := by
    rw [(h.wellFormed hb).outstanding_eq, hb.outstanding_eq]
    rcases h.usage? t with ⟨hu, -⟩ | ⟨-, u, hu, -, hu'⟩
    · rw [hu]
    · rw [hu, hu']
      rfl
  rw [Broker.obstacle?, Broker.obstacle?, hsame]

end Broker

namespace Environment

/-- Whether a registration that an instance has on record is present, with references out. -/
structure InUse (env : Environment) (n : Nat) (t : Ticket) (refs : Nat) : Prop where
  recorded : t ∈ env.ticketsOf n
  counted : env.broker.outstanding t = some refs
  positive : 0 < refs

/-- Whether it is the first that the instance has published of those that are in use. -/
structure FirstInUse (env : Environment) (n : Nat) (t : Ticket) (refs : Nat) : Prop
    extends InUse env n t refs where
  first : ∃ past rest, env.history = past ++ .published (some n) t :: rest ∧
    ∀ x k, .published (some n) x ∈ past → ¬ env.InUse n x k

theorem inUse_iff :
    env.InUse n t k ↔ t ∈ env.ticketsOf n ∧ env.broker.obstacle? t = some (t.capability, k) := by
  rw [Broker.obstacle?_eq_some]
  exact ⟨fun h => ⟨h.recorded, rfl, h.counted, h.positive⟩, fun ⟨hr, _, hc, hp⟩ => ⟨hr, hc, hp⟩⟩

/-- What stands in the way of retiring an instance's registrations. -/
def obstacle? (env : Environment) (n : Nat) : Option (Capability × Nat) :=
  (env.ticketsOf n).findSome? env.broker.obstacle?

theorem obstacle?_eq_none : env.obstacle? n = none ↔ ∀ t k, ¬ env.InUse n t k := by
  rw [obstacle?, List.findSome?_eq_none_iff]
  constructor
  · intro h t k hu
    obtain ⟨hr, ho⟩ := inUse_iff.mp hu
    simp [h t hr] at ho
  · intro h t ht
    by_contra hne
    obtain ⟨⟨c, k⟩, hx⟩ := Option.ne_none_iff_exists'.mp hne
    obtain ⟨-, hc, hp⟩ := Broker.obstacle?_eq_some.mp hx
    exact h t k ⟨ht, hc, hp⟩

/-- Of the registrations in use the first one is named. -/
theorem Sound.obstacle?_eq_some (hs : env.Sound gone) :
    env.obstacle? n = some (c, k) ↔ ∃ t, env.FirstInUse n t k ∧ t.capability = c := by
  -- a search of the record is a search of the history for what is on record
  let named (e : Episode) : Option (Capability × Nat) :=
    ((e.publishedBy? n).filter (· ∈ env.ticketsOf n)).bind env.broker.obstacle?
  have hsearch : env.obstacle? n = env.history.findSome? named := by
    rw [obstacle?, hs.ticketsOf_eq, publishedBy, List.filter_filterMap, ← List.head?_filterMap,
      List.filterMap_filterMap, List.head?_filterMap]
  have hnamed : ∀ e c k, named e = some (c, k) ↔
      ∃ t, e = .published (some n) t ∧ env.InUse n t k ∧ t.capability = c := by
    intro e c k
    simp only [named, Option.bind_eq_some_iff, Option.filter_eq_some_iff, decide_eq_true_eq,
      Episode.publishedBy?_eq_some, inUse_iff]
    constructor
    · rintro ⟨t, ⟨he, ht⟩, ho⟩
      obtain ⟨rfl, -⟩ := Broker.obstacle?_eq_some.mp ho
      exact ⟨t, he, ⟨ht, ho⟩, rfl⟩
    · rintro ⟨t, he, ⟨ht, ho⟩, rfl⟩
      exact ⟨t, ⟨he, ht⟩, ho⟩
  rw [hsearch, List.findSome?_eq_some_iff]
  constructor
  · rintro ⟨past, e, rest, heq, he, hpast⟩
    obtain ⟨t, rfl, hu, hc⟩ := (hnamed e c k).mp he
    refine ⟨t, ⟨hu, past, rest, heq, fun x k' hx hu' => ?_⟩, hc⟩
    have hnone := hpast _ hx
    rw [(hnamed _ x.capability k').mpr ⟨x, rfl, hu', rfl⟩] at hnone
    simp at hnone
  · rintro ⟨t, ⟨hu, past, rest, heq, hpast⟩, hc⟩
    refine ⟨past, _, rest, heq, (hnamed _ c k).mpr ⟨t, rfl, hu, hc⟩, fun e he => ?_⟩
    by_contra hne
    obtain ⟨⟨c', k'⟩, hx⟩ := Option.ne_none_iff_exists'.mp hne
    obtain ⟨x, rfl, hu', -⟩ := (hnamed e c' k').mp hx
    exact hpast x k' he hu'

theorem retireAll_fst {module : String} {past ts : List Ticket} (hb : env.broker.WellFormed) :
    (retireAll module past ts env).1 = ts.findSome? env.broker.obstacle? := by
  induction ts generalizing past env with
  | nil => rfl
  | cons t ts ih =>
      rw [retireAll_cons hb, List.findSome?_cons, Broker.obstacle?, hb.outstanding_eq]
      cases hu : env.broker.usage? t with
      | none => exact ih hb
      | some u =>
          have hhides : u.outstanding = 0 →
              env.broker.Hides [t] (env.broker.revise (Broker.only [t] Usage.hide)) := fun ho =>
            (Broker.Hides.refl _).retire hb (retire_ok_of_idle hb hu ho)
          simp only [Option.map_some]
          cases ho : u.outstanding with
          | zero =>
              rw [if_pos rfl, ← (hhides ho).obstacle? hb]
              exact ih hb.revise
          | succ refs => simp

/-- Retiring an instance's registrations fails exactly if one of them is in use. -/
theorem retireRegistrations_fst {who : Actor} (hb : env.broker.WellFormed) :
    (env.retireRegistrations who).1 = env.obstacle? who.member :=
  retireAll_fst hb

end Environment

/-! ## Members in the way -/

namespace Environment

/-- Whether an instance has a registration on record that is in use. -/
def IsBusy (env : Environment) (n : Nat) : Prop := ∃ t refs, env.InUse n t refs

/-- What stands in the way of retiring a member's registrations, and whose they are. -/
def hindrance? (env : Environment) (m : Member) : Option (Member × Capability × Nat) :=
  (env.obstacle? m.actor.member).map fun x => (m, x)

theorem isSome_hindrance? : (env.hindrance? m).isSome ↔ env.IsBusy m.actor.member := by
  rw [hindrance?, Option.isSome_map, ← not_iff_not, Option.not_isSome_iff_eq_none, obstacle?_eq_none]
  simp [IsBusy]

theorem Sound.hindrance?_eq_some {m' : Member} (hs : env.Sound gone) :
    env.hindrance? m = some (m', c, k) ↔
      m = m' ∧ ∃ t, env.FirstInUse m.actor.member t k ∧ t.capability = c := by
  rw [← hs.obstacle?_eq_some, hindrance?, Option.map_eq_some_iff]
  constructor
  · rintro ⟨x, hx, heq⟩
    obtain ⟨rfl, rfl⟩ := Prod.mk.inj heq
    exact ⟨rfl, hx⟩
  · rintro ⟨rfl, hx⟩
    exact ⟨_, hx, rfl⟩

end Environment

theorem retireMembers_fst (hs : env.Sound gone) :
    (retireMembers done ms env).1 = ms.findSome? env.hindrance? := by
  induction ms generalizing done gone env with
  | nil => rfl
  | cons m ms ih =>
      have hone : (env.retireRegistrations m.actor).1 = env.obstacle? m.actor.member :=
        Environment.retireRegistrations_fst hs.wellFormed
      rw [retireMembers, List.findSome?_cons, Environment.hindrance?, ← hone]
      cases hr : (env.retireRegistrations m.actor).1 with
      | some x => rfl
      | none =>
          obtain ⟨hnext, b, log, hb, heq⟩ := hs.retire hr
          have hsame : (env.retireRegistrations m.actor).2.hindrance? = env.hindrance? := by
            funext x
            rw [heq, Environment.hindrance?, Environment.hindrance?, Environment.obstacle?,
              Environment.obstacle?]
            simp only [hb.obstacle? hs.wellFormed]
            rfl
          simp only [Option.map_none]
          rw [ih hnext, hsame]

namespace Rack

variable {r : Rack} {P : Member → Prop} {e : LifecycleError}

/-- Whether a member is the one loaded last of those of which something holds. -/
def IsLatest (r : Rack) (P : Member → Prop) (m : Member) : Prop :=
  ∃ older newer, r.members = older ++ m :: newer ∧ P m ∧ ∀ x ∈ newer, ¬ P x

theorem findSome?_latest {β : Type} {f : Member → Option β} {x : β}
    (hP : ∀ m, (f m).isSome ↔ P m) :
    r.members.reverse.findSome? f = some x ↔ ∃ m, r.IsLatest P m ∧ f m = some x := by
  have hnone : ∀ m, f m = none ↔ ¬ P m := fun m => by
    rw [← hP, Option.not_isSome_iff_eq_none]
  rw [List.findSome?_eq_some_iff]
  constructor
  · rintro ⟨newer, m, older, heq, hm, hall⟩
    have hmembers : r.members = older.reverse ++ m :: newer.reverse := by
      rw [List.reverse_eq_append_iff, List.reverse_cons, List.append_assoc] at heq
      exact heq
    refine ⟨m, ⟨_, _, hmembers, (hP m).mp (by simp [hm]), fun y hy => ?_⟩, hm⟩
    exact (hnone y).mp (hall y (List.mem_reverse.mp hy))
  · rintro ⟨m, ⟨older, newer, heq, -, hall⟩, hm⟩
    refine ⟨newer.reverse, m, older.reverse, by simp [heq], hm, fun y hy => ?_⟩
    exact (hnone y).mpr (hall y (List.mem_reverse.mp hy))

/-! ## Unloading everything -/

/-- Why unloading everything is refused. -/
inductive RefusesAll (r : Rack) : LifecycleError → Prop
  | attached {m : Member} (h : r.IsLatest (fun x => x.stage = .postLoaded) m) :
      RefusesAll r (.invalidTransition m.name .postLoaded .unloaded)
  | busy {m : Member} {t : Ticket} {refs : Nat}
      (hdetached : ∀ x ∈ r.members, x.stage ≠ .postLoaded)
      (hlatest : r.IsLatest (fun x => r.env.IsBusy x.actor.member) m)
      (hfirst : r.env.FirstInUse m.actor.member t refs) :
      RefusesAll r (.busy m.name t.capability refs)

/-- What unloading everything comes to if there is no reason to refuse it. -/
structure UnloadsAll (r : Rack) (done : Except LifecycleError (List String) × Rack) : Prop where
  names : done.1 = .ok r.names.reverse
  members : done.2.members = []
  /-- Each member has its last hook and is dropped, the last one first, and nothing else befalls
  anybody. -/
  turns : ∃ partings : List (Member × Option ModuleError),
    partings.map Prod.fst = r.members.reverse ∧
    done.2.env.turns = r.env.turns ++ partings.flatMap fun x => parting x.1.actor x.2

theorem find?_attached : (r.members.reverse.find? fun m => m.stage = .postLoaded) = some m ↔
    r.IsLatest (fun x => x.stage = .postLoaded) m := by
  rw [← List.findSome?_guard, findSome?_latest (P := fun x => x.stage = .postLoaded)]
  · constructor
    · rintro ⟨x, hx, heq⟩
      obtain ⟨rfl, -⟩ := Option.guard_eq_some_iff.mp heq
      exact hx
    · intro h
      obtain ⟨-, -, -, hm, -⟩ := id h
      exact ⟨m, h, Option.guard_eq_some_iff.mpr ⟨rfl, by simpa using hm⟩⟩
  · intro x
    simp [Option.isSome_guard]

/-- Of the members that are busy the one loaded last is named, with its first registration in use. -/
theorem Sound.retireMembers_latest (hs : r.Sound) :
    (retireMembers [] r.members.reverse r.announced).1 = some (m, c, k) ↔
      r.IsLatest (fun x => r.env.IsBusy x.actor.member) m ∧
        ∃ t, r.env.FirstInUse m.actor.member t k ∧ t.capability = c := by
  have hannounced : r.announced.Sound [] := hs.env.same rfl
  rw [retireMembers_fst hannounced]
  show r.members.reverse.findSome? r.env.hindrance? = _ ↔ _
  rw [findSome?_latest fun _ => Environment.isSome_hindrance?]
  constructor
  · rintro ⟨x, hlatest, hx⟩
    obtain ⟨rfl, hfirst⟩ := hs.env.hindrance?_eq_some.mp hx
    exact ⟨hlatest, hfirst⟩
  · exact fun ⟨hlatest, hfirst⟩ => ⟨m, hlatest, hs.env.hindrance?_eq_some.mpr ⟨rfl, hfirst⟩⟩

theorem Sound.mayUnloadAll (hs : r.Sound) (h : ∀ e, ¬ r.RefusesAll e) : r.MayUnloadAll := by
  have hdetached : ∀ x ∈ r.members, x.stage ≠ .postLoaded := by
    rw [← find?_attached_eq_none]
    cases hfind : r.members.reverse.find? fun m => m.stage = .postLoaded with
    | none => rfl
    | some m => exact absurd (.attached (find?_attached.mp hfind)) (h _)
  refine ⟨hdetached, ?_⟩
  cases hret : (retireMembers [] r.members.reverse r.announced).1 with
  | none => rfl
  | some x =>
      obtain ⟨hlatest, t, hfirst, -⟩ := hs.retireMembers_latest.mp hret
      exact absurd (.busy hdetached hlatest hfirst) (h _)

theorem RefusesAll.unloadAll (hs : r.Sound) (h : r.RefusesAll e) : r.unloadAll.1 = .error e := by
  rw [Rack.unloadAll]
  cases h with
  | @attached m hlatest =>
      obtain ⟨-, -, -, hstage, -⟩ := id hlatest
      rw [find?_attached.mpr hlatest, ← hstage]
  | busy hdetached hlatest hfirst =>
      have hret := hs.retireMembers_latest.mpr ⟨hlatest, _, hfirst, rfl⟩
      rw [find?_attached_eq_none.mpr hdetached]
      show (Rack.retireAndTearDown { r with env := r.announced }).1 = _
      simp only [retireAndTearDown, hret]

/-- Unloading everything is refused for just the reasons there are. -/
theorem Sound.unloadAll_refused (hs : r.Sound) : r.unloadAll.1 = .error e ↔ r.RefusesAll e := by
  refine ⟨fun he => ?_, fun h => h.unloadAll hs⟩
  by_contra hnot
  have hnone : ∀ e', ¬ r.RefusesAll e' := fun e' h' => by
    have hsame := he.symm.trans (h'.unloadAll hs)
    exact hnot (Except.error.inj hsame ▸ h')
  have hok := (hs.unloadAll_granted (hs.mayUnloadAll hnone)).1
  simp [he] at hok

theorem tearDownAll_annals (hms : ∀ m ∈ ms, m.stage.mayBecome .unloaded = true) :
    ∃ partings : List (Member × Option ModuleError), partings.map Prod.fst = ms ∧
      (tearDownAll ms env).2.2.annals =
        (env.turns ++ partings.flatMap fun x => parting x.1.actor x.2, env.nextMember) := by
  induction ms generalizing env with
  | nil => exact ⟨[], rfl, by simp [tearDownAll, Environment.annals]⟩
  | cons m ms ih =>
      obtain ⟨hok, f, ha⟩ := @Member.teardown_annals env m (hms m List.mem_cons_self)
      obtain ⟨hturns, hnext⟩ := Prod.mk.inj ha
      obtain ⟨partings, hpartings, hrest⟩ :=
        @ih (m.teardown env).2 fun x hx => hms x (List.mem_cons_of_mem _ hx)
      refine ⟨(m, f) :: partings, by rw [List.map_cons, hpartings], ?_⟩
      simp only [tearDownAll, hok]
      rw [hrest, hturns, hnext, List.flatMap_cons, List.append_assoc]

/-- Otherwise everybody goes. -/
theorem Sound.unloadAll_unopposed (hs : r.Sound) (h : ∀ e, ¬ r.RefusesAll e) :
    r.UnloadsAll r.unloadAll := by
  have hmay := hs.mayUnloadAll h
  obtain ⟨hok, hempty, -⟩ := hs.unloadAll_granted hmay
  refine ⟨hok, hempty, ?_⟩
  have hready : ∀ m ∈ r.members.reverse, m.stage.mayBecome .unloaded = true := by
    intro m hm
    have hmem := List.mem_reverse.mp hm
    exact (hs.settled m hmem).mayBecome_unloaded (hmay.detached m hmem)
  obtain ⟨partings, hpartings, ha⟩ := @tearDownAll_annals r.committedAll r.members.reverse hready
  have hbefore : r.committedAll.annals = r.announced.annals := Environment.retireMembers_annals
  obtain ⟨log, henv⟩ := hmay.unloadAll_env
  refine ⟨partings, hpartings, ?_⟩
  rw [henv]
  show (tearDownAll r.members.reverse r.committedAll).2.2.turns = _
  rw [(Prod.mk.inj ha).1, (Prod.mk.inj hbefore).1]
  rfl

/-! ## Unloading one module -/

variable {name : String}

/-- Why unloading a module is refused that no other operation is working on. -/
inductive Refuses (r : Rack) (name : String) : LifecycleError → Prop
  | missing (h : name ∉ r.names) : Refuses r name (.notLoaded name)
  /-- Whoever depends on the module is named, in load order. -/
  | needed (hloaded : name ∈ r.names) (h : ∃ x ∈ r.members, name ∈ x.dependencies) :
      Refuses r name
        (.hasDependents name ((r.members.filter fun x => name ∈ x.dependencies).map Member.name))
  | busy {m : Member} {t : Ticket} {refs : Nat} (hm : m ∈ r.members) (hname : m.name = name)
      (hfree : ∀ x ∈ r.members, name ∉ x.dependencies)
      (hfirst : r.env.FirstInUse m.actor.member t refs) :
      Refuses r name (.busy name t.capability refs)

/-- What unloading a module comes to if there is no reason to refuse it. -/
structure Unloads (r : Rack) (name : String) (done : Except LifecycleError Unit × Rack) : Prop where
  ok : done.1 = .ok ()
  loaded : name ∈ r.names
  members : done.2.members = r.members.filter fun m => m.name ≠ name

theorem find?_eq_some (hn : r.names.Nodup) :
    r.find? name = some m ↔ m ∈ r.members ∧ m.name = name := by
  refine ⟨mem_of_find?, fun ⟨hm, hname⟩ => ?_⟩
  cases hfind : r.find? name with
  | none => exact absurd hname (by simpa using List.find?_eq_none.mp hfind m hm)
  | some x =>
      obtain ⟨hx, hxname⟩ := mem_of_find? hfind
      rw [List.inj_on_of_nodup_map hn hx hm (hxname.trans hname.symm)]

theorem find?_eq_none : r.find? name = none ↔ name ∉ r.names := by
  simp [find?, names]

theorem dependentsOf_eq : r.dependentsOf name =
    (r.members.filter fun x => name ∈ x.dependencies).map Member.name := by
  simp only [dependentsOf, List.contains_eq_mem]

theorem dependentsOf_eq_nil : r.dependentsOf name = [] ↔ ∀ x ∈ r.members, name ∉ x.dependencies := by
  simp [dependentsOf]

theorem unload_fst (hclaims : name ∉ r.env.claims) :
    (r.unload name).1 = ((r.withClaims (r.env.claims ++ [name])).unloadNamed name).1 := by
  rw [unload_eq, claimAll_singleton hclaims]

theorem Sound.retire_first (hs : r.Sound) (claims : List String) :
    ((r.withClaims claims).env.retireRegistrations m.actor).1 = some (c, k) ↔
      ∃ t, r.env.FirstInUse m.actor.member t k ∧ t.capability = c := by
  rw [Environment.retireRegistrations_fst (hs.withClaims claims).env.wellFormed]
  exact hs.env.obstacle?_eq_some

theorem Refuses.unload (hs : r.Sound) (hn : r.names.Nodup) (hclaims : name ∉ r.env.claims)
    (h : r.Refuses name e) : (r.unload name).1 = .error e := by
  rw [unload_fst hclaims, Rack.unloadNamed]
  cases h with
  | missing h =>
      have hfind : (r.withClaims (r.env.claims ++ [name])).find? name = none := find?_eq_none.mpr h
      rw [hfind]
  | needed hloaded h =>
      obtain ⟨m, hm, hname⟩ := List.mem_map.mp hloaded
      have hfind : (r.withClaims (r.env.claims ++ [name])).find? name = some m :=
        (find?_eq_some hn).mpr ⟨hm, hname⟩
      have hne : (r.withClaims (r.env.claims ++ [name])).dependentsOf name ≠ [] := fun hnil => by
        obtain ⟨x, hx, hneed⟩ := h
        exact dependentsOf_eq_nil.mp hnil x hx hneed
      obtain ⟨d, ds, hdep⟩ := List.exists_cons_of_ne_nil hne
      have hsame : r.dependentsOf name = d :: ds := hdep
      simp only [hfind, hdep, ← dependentsOf_eq, hsame]
  | @busy m t refs hm hname hfree hfirst =>
      have hfind : (r.withClaims (r.env.claims ++ [name])).find? name = some m :=
        (find?_eq_some hn).mpr ⟨hm, hname⟩
      have halone : (r.withClaims (r.env.claims ++ [name])).dependentsOf name = [] :=
        dependentsOf_eq_nil.mpr hfree
      have hret := (hs.retire_first (r.env.claims ++ [name])).mpr ⟨t, hfirst, rfl⟩
      simp only [hfind, halone, unloadMember, hret, hname]

theorem Sound.mayUnload (hs : r.Sound) (hclaims : name ∉ r.env.claims)
    (h : ∀ e, ¬ r.Refuses name e) : ∃ m, r.MayUnload name m := by
  cases hfind : r.find? name with
  | none => exact absurd (.missing (find?_eq_none.mp hfind)) (h _)
  | some m =>
      obtain ⟨hm, hname⟩ := mem_of_find? hfind
      have hloaded : name ∈ r.names := hname ▸ List.mem_map_of_mem hm
      have hfree : ∀ x ∈ r.members, name ∉ x.dependencies := fun x hx hneed =>
        absurd (.needed hloaded ⟨x, hx, hneed⟩) (h _)
      refine ⟨m, hclaims, hfind, dependentsOf_eq_nil.mpr hfree, ?_⟩
      cases hret : ((r.withClaims (r.env.claims ++ [name])).env.retireRegistrations m.actor).1 with
      | none => rfl
      | some x =>
          obtain ⟨t, hfirst, -⟩ := (hs.retire_first _).mp hret
          exact absurd (.busy hm hname hfree hfirst) (h _)

/-- Unloading a module is refused for just the reasons there are. -/
theorem Sound.unload_refused (hs : r.Sound) (hn : r.names.Nodup) (hclaims : name ∉ r.env.claims) :
    (r.unload name).1 = .error e ↔ r.Refuses name e := by
  refine ⟨fun he => ?_, fun h => h.unload hs hn hclaims⟩
  by_contra hnot
  have hnone : ∀ e', ¬ r.Refuses name e' := fun e' h' => by
    have hsame := he.symm.trans (h'.unload hs hn hclaims)
    exact hnot (Except.error.inj hsame ▸ h')
  obtain ⟨m, hmay⟩ := hs.mayUnload hclaims hnone
  have hok := (hs.unload_granted hmay).1
  simp [he] at hok

/-- Otherwise just that module goes. -/
theorem Sound.unload_unopposed (hs : r.Sound) (hn : r.names.Nodup) (hclaims : name ∉ r.env.claims)
    (h : ∀ e, ¬ r.Refuses name e) : r.Unloads name (r.unload name) := by
  obtain ⟨m, hmay⟩ := hs.mayUnload hclaims h
  obtain ⟨hok, hmembers, -⟩ := hs.unload_granted hmay
  obtain ⟨hm, rfl⟩ := mem_of_find? hmay.found
  refine ⟨hok, List.mem_map_of_mem hm, hmembers.trans (List.filter_congr fun x hx => ?_)⟩
  have hsame : x.actor.member = m.actor.member ↔ x.name = m.name := by
    constructor
    · exact fun heq => by rw [List.inj_on_of_nodup_map hs.distinct hx hm heq]
    · exact fun heq => by rw [List.inj_on_of_nodup_map hn hx hm heq]
  simp only [ne_eq, hsame]

end Rack

end Backplane
