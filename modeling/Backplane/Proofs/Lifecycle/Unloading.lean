import Backplane.Proofs.Lifecycle.Rack
import Backplane.Proofs.Lifecycle.Teardown
/-!
# `Backplane.Proofs.Lifecycle.Unloading`: refusing to unload, and unloading

To unload members is to hide their registrations and to take them down.  If the registrations of one
of them cannot be hidden, those of all that came before are restored, and the environment is what it
was.

This is `retire_all`, and what `unload_all` does then.
-/
namespace Backplane

variable {e₀ e : Environment} {gone : List Ticket} {done ms : List Member} {m : Member} {b : Broker}
  {log : List LogEvent}

/-- The tickets that members have on record. -/
def Environment.ticketsOfAll (e : Environment) (ms : List Member) : List Ticket :=
  ms.flatMap fun m => e.ticketsOf m.actor.member

/-! ## Hiding, and restoring -/

/-- Restoring all that was hidden brings the environment back. -/
theorem restoreMembers (hs : e₀.Sound []) (hh : e₀.broker.Hides (e₀.ticketsOfAll done) b) :
    done.foldl (fun env x => env.restoreRegistrations x.actor) { e₀ with broker := b, log }
      = { e₀ with log } := by
  induction done generalizing b with
  | nil =>
      have hb : b = e₀.broker := hh.eq hs.wellFormed
      rw [hb]
      rfl
  | cons m done ih => exact ih (hh.restore_foldl hs.wellFormed hs.isOpen)

/-- However many members have had their registrations hidden, a refusal leaves the environment as it
was. -/
theorem retireMembers_some {x : Member × Capability × Nat} (hs : e₀.Sound [])
    (hnow : Environment.Sound gone { e₀ with broker := b, log })
    (hh : e₀.broker.Hides (e₀.ticketsOfAll done) b)
    (h : (retireMembers done ms { e₀ with broker := b, log }).1 = some x) :
    ∃ more, (retireMembers done ms { e₀ with broker := b, log }).2 =
      { e₀ with log := log ++ more } := by
  induction ms generalizing done gone b log with
  | nil => simp [retireMembers] at h
  | cons m ms ih =>
      rw [retireMembers] at h ⊢
      cases hr : (Environment.retireRegistrations { e₀ with broker := b, log } m.actor).1 with
      | none =>
          obtain ⟨hnext, b', more, hb', heq⟩ := hnow.retire hr
          simp only [hr] at h ⊢
          rw [heq] at h hnext ⊢
          have hall : e₀.broker.Hides (e₀.ticketsOfAll (done ++ [m])) b' := by
            rw [Environment.ticketsOfAll, List.flatMap_append, List.flatMap_singleton]
            exact hh.trans hb'
          obtain ⟨rest, hrest⟩ := ih hnext hall h
          exact ⟨more ++ rest, by rw [hrest, List.append_assoc]⟩
      | some y =>
          have hpast : e₀.broker.Hides ([] ++ e₀.ticketsOfAll done) b := hh
          obtain ⟨b', more, hb', heq⟩ := Environment.retireAll_some hs.wellFormed hs.isOpen hpast hr
          have hback : (Environment.retireRegistrations { e₀ with broker := b, log } m.actor).2
              = { e₀ with broker := b', log := log ++ more } := heq
          simp only
          rw [hback, restoreMembers hs hb']
          exact ⟨_, rfl⟩

/-- When all can be hidden they are. -/
theorem retireMembers_none (hs : e.Sound gone) (h : (retireMembers done ms e).1 = none) :
    (retireMembers done ms e).2.Sound (gone ++ e.ticketsOfAll ms) ∧
      ∃ b log, e.broker.Hides (e.ticketsOfAll ms) b ∧
      (retireMembers done ms e).2 = { e with broker := b, log } := by
  induction ms generalizing done gone e with
  | nil =>
    exact ⟨by simpa [Environment.ticketsOfAll, retireMembers] using hs, e.broker, e.log, .refl _,
      rfl⟩
  | cons m ms ih =>
      rw [retireMembers] at h ⊢
      cases hr : (e.retireRegistrations m.actor).1 with
      | some y => simp [hr] at h
      | none =>
          obtain ⟨hnext, b, more, hb, heq⟩ := hs.retire hr
          simp only [hr] at h ⊢
          have htickets : (e.retireRegistrations m.actor).2.ticketsOfAll ms =
              e.ticketsOfAll ms := by
            rw [heq]
            rfl
          obtain ⟨hlast, b', log', hb', heq'⟩ := ih hnext h
          rw [htickets] at hlast hb'
          have hcons : e.ticketsOfAll (m :: ms) = e.ticketsOf m.actor.member ++ e.ticketsOfAll ms :=
            List.flatMap_cons
          refine ⟨by rwa [hcons, ← List.append_assoc], b', log', ?_, by rw [heq', heq]⟩
          rw [heq] at hb'
          rw [hcons]
          exact hb.trans hb'

/-! ## Taking down -/

/-- Whether the members are those that have their registrations hidden. -/
def Hidden (gone : List Ticket) (e₀ : Environment) (ms : List Member) : Prop :=
  ∀ t, t ∈ gone ↔ ∃ m ∈ ms, t ∈ e₀.ticketsOf m.actor.member

/-- Whether a registration has been made through a member's dossier before its removal, but not
before the operation. -/
def Late (e₀ : Environment) (x : Member × Environment) (t : Ticket) : Prop :=
  .published (some x.1.actor.member) t ∈ x.2.history ∧
  .published (some x.1.actor.member) t ∉ e₀.history

/-- What is pulled from under a user has been registered since the registrations were hidden. -/
theorem Pulls.late {p : Nat → Prop} {t : Ticket} {x : Member × Environment} (hs : e₀.Sound [])
    (hc : Course p gone e₀ x.2) (hgone : ∀ t ∈ e₀.ticketsOf x.1.actor.member, t ∈ gone)
    (hp : Pulls x t) :
    Late e₀ x t := by
  obtain ⟨hmem, u, hu, hpos⟩ := hp
  have hpub := hc.sound.chronicled.source _ t (hc.sound.mem_ticketsOf.mp hmem)
  refine ⟨hpub, fun hold => ?_⟩
  cases hwas : e₀.broker.usage? t with
  | none =>
      rw [hc.absent hs hold hwas] at hu
      simp at hu
  | some v =>
      have hfiled := hs.chronicled.filed _ t hold (by simp [Environment.scene, hwas])
      have hhid : x.2.broker.hidden? t = some u.retired := by
        rw [Broker.hidden?, hu, Option.map_some]
      have hret : u.retired = true :=
        (hc.sound.chronicled.hidden t _ hhid).mpr (hgone t (hs.mem_ticketsOf.mpr hfiled))
      -- it was hidden with the others, and nobody can have come to refer to it since
      have hzero := hc.sound.balanced.exact.idle t u (Broker.held?_of_usage? hu) hret
      exact absurd hpos (by simp [hzero])

/-- Members whose registrations are hidden are taken down, and then nothing is hidden any more. -/
theorem takeDown {e : Environment} (hs : e₀.Sound []) (hc : Calm gone e₀ e) (hh : Hidden gone e₀ ms)
    (hms : ∀ m ∈ ms, m.actor.member < e₀.nextMember ∧ m.stage.mayBecome .unloaded = true)
    (hd : (ms.map (·.actor.member)).Nodup) :
    ∃ e', tearDownAll ms e = (.ok (ms.map Member.name), [], e') ∧
      Course (fun n => ∃ m ∈ ms, m.actor.member = n) [] e₀ e' ∧
      (∀ t, t ∈ e'.broker.departures ↔ t ∈ e₀.broker.departures ∨ ∃ x ∈ removals ms e, Pulls x t) ∧
      (∀ x ∈ removals ms e, ∀ t, Pulls x t → Late e₀ x t) ∧ ∀ x ∈ removals ms e, Emptied x e' := by
  let p (n : Nat) : Prop := ∃ m ∈ ms, m.actor.member = n
  have hready : Removable p e ms := fun m hm =>
    ⟨⟨m, hm, rfl⟩, Nat.lt_of_lt_of_le (hms m hm).1 hc.course.later, (hms m hm).2⟩
  obtain ⟨e', heq, hdown, hdep, hout⟩ := hc.course.sound.tearDownAll hready
  have hall : Course p gone e₀ e' := (hc.course.mono fun _ hn => hn.elim).trans hdown
  have hgone : ∀ t ∈ gone, e'.broker.usage? t = none := by
    intro t ht
    obtain ⟨m, hm, hmem⟩ := (hh t).mp ht
    have hpub := hs.chronicled.source _ t (hs.mem_ticketsOf.mp hmem)
    exact hout m hm t (hc.course.history_subset hpub)
  refine ⟨e', heq, ⟨hall.sound.settle hgone, hall.claims, hall.later, hall.history⟩, fun t => ?_,
    fun x hx t ht => ?_, fun x hx => ?_⟩
  · rw [hdep, hc.departures]
  · obtain ⟨hmem, hx'⟩ := hc.course.sound.removals hready x hx
    have hupto : Course p gone e₀ x.2 := (hc.course.mono fun _ hn => hn.elim).trans hx'
    exact ht.late hs hupto fun t' ht' => (hh t').mpr ⟨x.1, hmem, ht'⟩
  · obtain ⟨hx', hafter⟩ := hc.course.sound.removals_after hready hd x hx
    rw [heq] at hafter
    exact hx'.emptied hafter

/-! ## Unloading everything -/

/-- Runs the hook before unloading, if it is due. -/
def Member.makeReady (m : Member) (env : Environment) :
    Except LifecycleError Unit × Member × Environment :=
  if m.stage = .postLoaded then m.preUnload env else (.ok (), m, env)

/-- A member between two operations can be taken down once it has been made ready. -/
theorem Member.makeReady_ok (hm : m.Settled e.nextMember) (hs : e.Sound gone) :
    ∃ m' e', m.makeReady e = (.ok (), m', e') ∧ Calm gone e e' ∧ m'.actor = m.actor ∧
      m'.stage.mayBecome .unloaded = true := by
  rcases hm.stage with hl | hl | hl
  · exact ⟨m, e, by simp [makeReady, hl], .refl hs, rfl, by rw [hl]; rfl⟩
  · obtain ⟨e', hpre, hc⟩ := preUnload_calm hs hm hl
    exact ⟨{ m with stage := .preUnloaded }, e', by simp [makeReady, hl, hpre], hc, rfl, rfl⟩
  · exact ⟨m, e, by simp [makeReady, hl], .refl hs, rfl, by rw [hl]; rfl⟩

namespace Rack

variable {r r' r'' : Rack}

/-- A rack on which nothing has changed but that something has been reported. -/
def Reported (r r' : Rack) : Prop := ∃ more, r' = { r with env := r.env.reportAll more }

theorem Reported.refl : r.Reported r := ⟨[], by rw [Environment.reportAll, List.append_nil]⟩

theorem Reported.trans (h : r.Reported r') (h' : r'.Reported r'') : r.Reported r'' := by
  obtain ⟨more, rfl⟩ := h
  obtain ⟨rest, rfl⟩ := h'
  exact ⟨more ++ rest, by simp only [Environment.reportAll, List.append_assoc]⟩

theorem Reported.report {level : Level} {origin : Origin} {text : String} :
    r.Reported { r with env := r.env.report level origin text } :=
  ⟨[⟨level, origin, text⟩], rfl⟩

theorem Reported.withClaims {claims : List String} (h : (r.withClaims claims).Reported r') :
    r.Reported (r'.withClaims r.env.claims) := by
  obtain ⟨more, rfl⟩ := h
  exact ⟨more, rfl⟩

/-- What an unloading makes of a rack: the members left are some of those before, what has been taken
away from users is what the removals pulled, and the dossiers of the others have been emptied. -/
structure Shrinks (r : Rack) (xs : List (Member × Environment)) (r' : Rack) : Prop where
  course : Course (fun n => ∃ m ∈ r.members, m.actor.member = n) [] r.env r'.env
  members : r'.members.Sublist r.members
  departures : ∀ t, t ∈ r'.env.broker.departures ↔ t ∈ r.env.broker.departures ∨ ∃ x ∈ xs, Pulls x t
  late : ∀ x ∈ xs, ∀ t, Pulls x t → Late r.env x t
  emptied : ∀ x ∈ xs, Emptied x r'.env

theorem Shrinks.sound {xs : List (Member × Environment)} (hs : r.Sound) (h : r.Shrinks xs r') :
    r'.Sound where
  env := h.course.sound
  settled := fun m hm => (hs.settled m (h.members.subset hm)).mono h.course.later
  distinct := (h.members.map _).nodup hs.distinct

/-- What unloading everything begins with. -/
def announced (r : Rack) : Environment :=
  r.env.report .info .loader ("Unloading " ++ toString r.members.length ++ " modules")

/-- The removals that unloading everything comes to, if it is not refused. -/
def removalsOfAll (r : Rack) : List (Member × Environment) :=
  removals r.members.reverse (retireMembers [] r.members.reverse r.announced).2

theorem retireAndTearDown_refused {x : Member × Capability × Nat} (hs : r.Sound)
    (h : (retireMembers [] r.members.reverse r.env).1 = some x) :
    (∃ e, r.retireAndTearDown.1 = .error e) ∧ r.Reported r.retireAndTearDown.2 := by
  obtain ⟨more, heq⟩ := retireMembers_some hs.env hs.env (.refl _) h
  have hback : (retireMembers [] r.members.reverse r.env).2 = r.env.reportAll more := heq
  have hrep : r.Reported { r with env := r.env.reportAll more } := ⟨more, rfl⟩
  simp only [retireAndTearDown, h, hback]
  exact ⟨⟨_, rfl⟩, hrep.trans .report⟩

theorem retireAndTearDown_done (hs : r.Sound)
    (h : (retireMembers [] r.members.reverse r.env).1 = none)
    (hstage : ∀ m ∈ r.members, m.stage ≠ .postLoaded) :
    r.retireAndTearDown.1 = .ok r.names.reverse ∧ r.retireAndTearDown.2.members = [] ∧
      r.Shrinks (removals r.members.reverse (retireMembers [] r.members.reverse r.env).2)
        r.retireAndTearDown.2 := by
  obtain ⟨hhid, b, log, hb, heq⟩ := retireMembers_none hs.env h
  rw [heq] at hhid
  let hidden : Environment := { r.env with broker := b, log }
  have hcalm : Calm ([] ++ r.env.ticketsOfAll r.members.reverse) r.env hidden :=
    ⟨⟨hhid, rfl, Nat.le_refl _, [], by simp [hidden], by simp⟩, fun t => by rw [← hb.departures]⟩
  have hgone : Hidden ([] ++ r.env.ticketsOfAll r.members.reverse) r.env r.members.reverse :=
    fun t => by
    rw [List.nil_append, Environment.ticketsOfAll, List.mem_flatMap]
  have hready : ∀ m ∈ r.members.reverse, m.actor.member < r.env.nextMember ∧
      m.stage.mayBecome .unloaded = true := by
    intro m hm
    have hmem := List.mem_reverse.mp hm
    exact ⟨(hs.settled m hmem).issued, (hs.settled m hmem).mayBecome_unloaded (hstage m hmem)⟩
  have hd : (r.members.reverse.map (·.actor.member)).Nodup := by
    rw [List.map_reverse, List.nodup_reverse]
    exact hs.distinct
  obtain ⟨e', hdown, hc, hdep, hlate, hemptied⟩ := takeDown hs.env hcalm hgone hready hd
  have hcourse : Course (fun n => ∃ m ∈ r.members, m.actor.member = n) [] r.env e' :=
    hc.mono fun n ⟨m, hm, hn⟩ => ⟨m, List.mem_reverse.mp hm, hn⟩
  simp only [retireAndTearDown, h, heq, tearDown]
  rw [hdown]
  exact ⟨by rw [names, List.map_reverse], rfl, hcourse.same rfl, List.nil_sublist _, hdep, hlate,
    hemptied⟩

theorem find?_attached_eq_none : (r.members.reverse.find? fun m => m.stage = .postLoaded) = none ↔
    ∀ x ∈ r.members, x.stage ≠ .postLoaded := by
  simp

/-- Whether unloading everything passes its checks: nobody is attached, and all registrations can be
hidden. -/
structure MayUnloadAll (r : Rack) : Prop where
  detached : ∀ m ∈ r.members, m.stage ≠ .postLoaded
  idle : (retireMembers [] r.members.reverse r.announced).1 = none

/-- The environment when every registration has been hidden. -/
def committedAll (r : Rack) : Environment := (retireMembers [] r.members.reverse r.announced).2

/-- Once the checks have been passed the members are taken down, and nothing else is done. -/
theorem MayUnloadAll.unloadAll_env (h : r.MayUnloadAll) : ∃ log, r.unloadAll.2.env =
    { (tearDownAll r.members.reverse r.committedAll).2.2 with log } := by
  rw [Rack.unloadAll, find?_attached_eq_none.mpr h.detached]
  show ∃ log, (Rack.retireAndTearDown { r with env := r.announced }).2.env = _
  simp only [retireAndTearDown, h.idle, tearDown]
  split
  · exact ⟨_, rfl⟩
  · exact ⟨_, rfl⟩

/-- Once the checks have been passed nothing can fail. -/
theorem Sound.unloadAll_granted (hs : r.Sound) (h : r.MayUnloadAll) :
    r.unloadAll.1 = .ok r.names.reverse ∧ r.unloadAll.2.members = [] ∧
      r.Shrinks r.removalsOfAll r.unloadAll.2 := by
  let begun : Rack := { r with env := r.announced }
  have hbegun : begun.Sound := hs.same rfl rfl
  have hun : r.unloadAll = begun.retireAndTearDown := by
    rw [Rack.unloadAll, find?_attached_eq_none.mpr h.detached]
    rfl
  obtain ⟨hok, hempty, hshrinks⟩ := retireAndTearDown_done hbegun h.idle h.detached
  have hc := hshrinks.course
  rw [hun]
  exact ⟨hok, hempty, ⟨hc.sound, hc.claims, hc.later, hc.history⟩, hshrinks.members,
    hshrinks.departures, hshrinks.late, hshrinks.emptied⟩

/-- Unloading everything either is refused, and then nothing but the reports has changed, or leaves
no member. -/
theorem Sound.unloadAll (hs : r.Sound) :
    (∃ e, r.unloadAll.1 = .error e) ∧ r.Reported r.unloadAll.2 ∨
      r.unloadAll.1 = .ok r.names.reverse ∧ r.unloadAll.2.members = [] ∧
        r.Shrinks r.removalsOfAll r.unloadAll.2 := by
  let begun : Rack := { r with env := r.announced }
  have hbegun : begun.Sound := hs.same rfl rfl
  cases hfind : r.members.reverse.find? fun m => m.stage = .postLoaded with
  | some m =>
      rw [Rack.unloadAll, hfind]
      exact Or.inl ⟨⟨_, rfl⟩, .report⟩
  | none =>
      have hstage : ∀ m ∈ r.members, m.stage ≠ .postLoaded := find?_attached_eq_none.mp hfind
      cases hret : (retireMembers [] begun.members.reverse begun.env).1 with
      | some x =>
          have hun : r.unloadAll = begun.retireAndTearDown := by
            rw [Rack.unloadAll, hfind]
            rfl
          obtain ⟨herr, hrep⟩ := retireAndTearDown_refused hbegun hret
          rw [hun]
          exact Or.inl ⟨herr, Reported.report.trans hrep⟩
      | none => exact Or.inr (hs.unloadAll_granted ⟨hstage, hret⟩)

/-! ## Unloading one module -/

variable {m : Member}

/-- The member and the environment with which taking down a member begins: after the hook before
unloading, if it is due. -/
def ready (r : Rack) (m : Member) : Member × Environment :=
  (m.makeReady (r.env.retireRegistrations m.actor).2).2

theorem unloadMember_refused {x : Capability × Nat} (hs : r.Sound)
    (h : (r.env.retireRegistrations m.actor).1 = some x) :
    (∃ e, (r.unloadMember m).1 = .error e) ∧ r.Reported (r.unloadMember m).2 := by
  obtain ⟨more, heq⟩ := Environment.retireRegistrations_some hs.env h
  have hrep : r.Reported { r with env := { r.env with log := r.env.log ++ more } } := ⟨more, rfl⟩
  simp only [unloadMember, h, heq]
  exact ⟨⟨_, rfl⟩, hrep.trans .report⟩

theorem takeOut_eq {m' : Member} {e' : Environment} (h : m.makeReady r.env = (.ok (), m', e')) :
    r.takeOut m =
      ((m'.teardown e').1,
        { r with members := without r.members m, env := (m'.teardown e').2 }) := by
  have hready :
      (if m.stage = .postLoaded then m.preUnload r.env else (.ok (), m, r.env)) =
        (.ok (), m', e') := h
  simp only [takeOut, hready]

theorem unloadMember_done (hs : r.Sound) (hm : m ∈ r.members)
    (h : (r.env.retireRegistrations m.actor).1 = none) :
    (r.unloadMember m).1 = .ok () ∧ (r.unloadMember m).2.members = without r.members m ∧
      r.Shrinks [r.ready m] (r.unloadMember m).2 := by
  obtain ⟨hhid, b, log, hb, heq⟩ := hs.env.retire h
  let hidden := (r.env.retireRegistrations m.actor).2
  have hcalm : Calm ([] ++ r.env.ticketsOf m.actor.member) r.env hidden := by
    refine ⟨⟨hhid, ?_, ?_, [], ?_, by simp⟩, fun t => ?_⟩
    all_goals simp only [hidden, heq, List.append_nil, Nat.le_refl]
    rw [hb.departures]
  have hsettled : m.Settled hidden.nextMember := (hs.settled m hm).mono hcalm.course.later
  obtain ⟨m', e₁, hready, hc, hactor, hstage⟩ := Member.makeReady_ok hsettled hhid
  have hpair : r.ready m = (m', e₁) := congrArg Prod.snd hready
  have hgone : Hidden ([] ++ r.env.ticketsOf m.actor.member) r.env [m'] := fun t => by simp [hactor]
  have hone : ∀ x ∈ [m'], x.actor.member < r.env.nextMember ∧
      x.stage.mayBecome .unloaded = true := by
    intro x hx
    rw [List.mem_singleton.mp hx, hactor]
    exact ⟨(hs.settled m hm).issued, hstage⟩
  obtain ⟨e', hdown, hcourse, hdep, hlate, hemptied⟩ :=
    takeDown hs.env (hcalm.trans hc) hgone hone (List.nodup_singleton _)
  have hok : (m'.teardown e₁).1 = .ok () := (Member.teardown_ok hstage).1
  have hlast : (m'.teardown e₁).2 = e' := by
    simp only [tearDownAll, hok] at hdown
    exact congrArg (·.2.2) hdown
  have hdone : r.unloadMember m =
      (.ok (), { r with members := without r.members m, env := e' }) := by
    have htake : { r with env := hidden }.takeOut m = _ := takeOut_eq hready
    rw [unloadMember, h]
    exact htake.trans (by rw [hok, hlast])
  rw [hdone, hpair]
  refine ⟨rfl, rfl, hcourse.mono ?_, List.filter_sublist, hdep, hlate, hemptied⟩
  rintro n ⟨x, hx, rfl⟩
  exact ⟨m, hm, by rw [List.mem_singleton.mp hx, hactor]⟩

/-- Unloading a member either is refused, and then nothing but the reports has changed, or takes it
out. -/
theorem Sound.unloadMember (hs : r.Sound) (hm : m ∈ r.members) :
    (∃ e, (r.unloadMember m).1 = .error e) ∧ r.Reported (r.unloadMember m).2 ∨
      (r.unloadMember m).1 = .ok () ∧ (r.unloadMember m).2.members = without r.members m ∧
        r.Shrinks [r.ready m] (r.unloadMember m).2 := by
  cases h : (r.env.retireRegistrations m.actor).1 with
  | some x => exact Or.inl (unloadMember_refused hs h)
  | none => exact Or.inr (unloadMember_done hs hm h)

theorem mem_of_find? {name : String} (h : r.find? name = some m) : m ∈ r.members ∧ m.name = name :=
  ⟨List.mem_of_find?_eq_some h, by simpa using List.find?_some h⟩

theorem Sound.unloadNamed (hs : r.Sound) (name : String) :
    (∃ e, (r.unloadNamed name).1 = .error e) ∧ r.Reported (r.unloadNamed name).2 ∨
      ∃ m, r.find? name = some m ∧ (r.unloadNamed name).1 = .ok () ∧
        (r.unloadNamed name).2.members = without r.members m ∧
        r.Shrinks [r.ready m] (r.unloadNamed name).2 := by
  rw [Rack.unloadNamed]
  cases hfind : r.find? name with
  | none => exact Or.inl ⟨⟨_, rfl⟩, .refl⟩
  | some m =>
      obtain ⟨hm, -⟩ := mem_of_find? hfind
      simp only
      cases r.dependentsOf name with
      | cons d ds => exact Or.inl ⟨⟨_, rfl⟩, .refl⟩
      | nil =>
          rcases hs.unloadMember hm with hrefused | hdone
          · exact Or.inl hrefused
          · exact Or.inr ⟨m, rfl, hdone⟩

/-- The removals that unloading a module comes to, if it is not refused. -/
def removalsOf (r : Rack) (name : String) : List (Member × Environment) :=
  match claimAll r.env.claims [name], r.find? name with
  | .ok claims, some m => [(r.withClaims claims).ready m]
  | _, _ => []

theorem Shrinks.release {xs : List (Member × Environment)} {claims names : List String}
    (h : (r.withClaims claims).Shrinks xs r') (hback : unclaim claims names = r.env.claims) :
    r.Shrinks xs (r'.release names) where
  course := by
    have hclaims : r'.env.claims = claims := h.course.claims
    refine Course.rebase h.course rfl rfl ?_
    simp only [Rack.release, Rack.withClaims, mapEnv, hclaims, hback]
  members := h.members
  departures := h.departures
  late := h.late
  emptied := h.emptied

/-- Whether unloading a member by its name passes its checks: no other operation is working on it,
nobody depends on it, and its registrations can be hidden. -/
structure MayUnload (r : Rack) (name : String) (m : Member) : Prop where
  unclaimed : name ∉ r.env.claims
  found : r.find? name = some m
  alone : r.dependentsOf name = []
  idle : ((r.withClaims (r.env.claims ++ [name])).env.retireRegistrations m.actor).1 = none

theorem claimAll_singleton {claims : List String} {name : String} (h : name ∉ claims) :
    claimAll claims [name] = .ok (claims ++ [name]) := by
  simp [claimAll, h, distinct]

/-- The environment when a member's registrations have been hidden. -/
def committed (r : Rack) (name : String) (m : Member) : Environment :=
  ((r.withClaims (r.env.claims ++ [name])).env.retireRegistrations m.actor).2

/-- Once the checks have been passed the member is made ready and taken down, and nothing else is
done. -/
theorem MayUnload.unload_env {name : String} {m' : Member} {e' : Environment}
    (h : r.MayUnload name m) (hready : m.makeReady (r.committed name m) = (.ok (), m', e')) :
    (r.unload name).2.env =
      { (m'.teardown e').2 with claims := unclaim (m'.teardown e').2.claims [name] } := by
  let claimed := r.withClaims (r.env.claims ++ [name])
  have hfound : claimed.find? name = some m := h.found
  have halone : claimed.dependentsOf name = [] := h.alone
  have htake : { claimed with env := r.committed name m }.takeOut m = _ := takeOut_eq hready
  have hnamed : claimed.unloadNamed name = { claimed with env := r.committed name m }.takeOut m := by
    simp only [Rack.unloadNamed, hfound, halone, unloadMember]
    rw [h.idle]
    rfl
  have hunload : (r.unload name).2 = (claimed.unloadNamed name).2.release [name] := by
    rw [unload_eq, claimAll_singleton h.unclaimed]
  rw [hunload, hnamed, htake]
  rfl

/-- Once the checks have been passed nothing can fail. -/
theorem Sound.unload_granted {name : String} (hs : r.Sound) (h : r.MayUnload name m) :
    (r.unload name).1 = .ok () ∧ (r.unload name).2.members = without r.members m ∧
      r.Shrinks (r.removalsOf name) (r.unload name).2 := by
  have hclaim := claimAll_singleton h.unclaimed
  let claimed := r.withClaims (r.env.claims ++ [name])
  obtain ⟨hok, hmembers, hshrinks⟩ :=
    unloadMember_done (r := claimed) (hs.withClaims _) (mem_of_find? h.found).1 h.idle
  have hnamed : claimed.unloadNamed name = claimed.unloadMember m := by
    have hfound : claimed.find? name = some m := h.found
    have halone : claimed.dependentsOf name = [] := h.alone
    simp only [Rack.unloadNamed, hfound, halone]
  simp only [unload_eq, removalsOf, hclaim, h.found]
  show (claimed.unloadNamed name).1 = _ ∧ (claimed.unloadNamed name).2.members = _ ∧
    r.Shrinks [claimed.ready m] ((claimed.unloadNamed name).2.release [name])
  rw [hnamed]
  exact ⟨hok, hmembers, hshrinks.release (unclaim_claimAll hclaim)⟩

/-- Unloading a module either is refused, and then nothing but the reports has changed, or takes it
out. -/
theorem Sound.unload (hs : r.Sound) (name : String) :
    (∃ e, (r.unload name).1 = .error e) ∧ r.Reported (r.unload name).2 ∨
      ∃ m, r.find? name = some m ∧ (r.unload name).1 = .ok () ∧
        (r.unload name).2.members = without r.members m ∧
        r.Shrinks (r.removalsOf name) (r.unload name).2 := by
  rw [unload_eq, removalsOf]
  cases hclaim : claimAll r.env.claims [name] with
  | error other => exact Or.inl ⟨⟨_, rfl⟩, .refl⟩
  | ok claims =>
      have hback : unclaim claims [name] = r.env.claims := unclaim_claimAll hclaim
      simp only
      rcases (hs.withClaims claims).unloadNamed name with
        ⟨herr, hrep⟩ | ⟨m, hfind, hok, hmembers, hshrinks⟩
      · refine Or.inl ⟨herr, ?_⟩
        have hclaims : ((r.withClaims claims).unloadNamed name).2.env.claims = claims := by
          obtain ⟨more, heq⟩ := hrep
          rw [heq]
          rfl
        rw [Rack.release, hclaims, hback]
        exact hrep.withClaims
      · have hsame : r.find? name = some m := hfind
        rw [hsame]
        exact Or.inr ⟨m, rfl, hok, hmembers, hshrinks.release hback⟩

end Rack

end Backplane
