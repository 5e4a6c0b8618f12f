import Backplane.Lifecycle.Stages
import Backplane.Proofs.Environment.Claims
import Backplane.Proofs.Lifecycle.Loading
import Backplane.Proofs.Lifecycle.Stages
/-!
# `Backplane.Proofs.Lifecycle.Rack`: racks between operations

On a sound rack the environment is sound with nothing hidden, and the members are between two
operations.  The passes keep a rack sound, and so does loading, whether a batch is loaded, unwound
or refused.

A rack is the `ModuleLoader`.
-/
namespace Backplane

/-! ## Claims -/

/-- Claims are nothing that soundness depends on. -/
theorem Environment.Sound.withClaims {e : Environment} {gone : List Ticket} (hs : e.Sound gone)
    (claims : List String) :
    Environment.Sound gone { e with claims } where
  balanced := ⟨hs.balanced.exact, hs.balanced.keys, hs.balanced.homes⟩
  chronicled := { hs.chronicled with }
  tended := hs.tended.thin (.refl _)

namespace Rack

variable {r r' : Rack} {m : Manifest} {plan : List PlannedModule}

/-- Loading a manifest, as if its modules were claimed together. -/
theorem loadManifest_eq : r.loadManifest m = match claimAll r.env.claims (m.modules.map (·.name)) with
    | .error name => (.error (.inFlight name), r)
    | .ok claims =>
      (((r.withClaims claims).loadPlanned m).1,
        ((r.withClaims claims).loadPlanned m).2.release (m.modules.map (·.name))) := by
  rw [Rack.loadManifest, Claim.takeAll_eq]
  cases claimAll r.env.claims (m.modules.map (·.name)) with
  | error name => rfl
  | ok claims => simp only [release, unclaim_distinct]

theorem unload_eq {name : String} : r.unload name = match claimAll r.env.claims [name] with
    | .error other => (.error (.inFlight other), r)
    | .ok claims =>
      (((r.withClaims claims).unloadNamed name).1,
        ((r.withClaims claims).unloadNamed name).2.release [name]) := by
  rw [Rack.unload, Claim.takeAll_eq]
  cases claimAll r.env.claims [name] with
  | error other => rfl
  | ok claims => simp only [release, unclaim_distinct]

/-! ## Sound racks -/

/-- A rack whose environment is sound, with nothing hidden, and whose members are between two
operations. -/
structure Sound (r : Rack) : Prop where
  env : r.env.Sound []
  settled : ∀ m ∈ r.members, m.Settled r.env.nextMember
  distinct : (r.members.map (·.actor.member)).Nodup

theorem sound_start (depot : Depot) : Sound { env := { depot } } where
  env :=
    { balanced := ⟨Broker.exact_empty, .nil, by simp [Environment.scene]⟩
      chronicled :=
        { members := .nil
          numbered := by simp [Environment.scene]
          issued := by simp [Environment.scene]
          once := by simp [Environment.scene]
          ended := by simp [Environment.scene]
          present := fun t => by
            cases t <;> simp [Environment.scene, Broker.usage?, Book.usage?, Book.usageIn,
              Advisors.book, Advisors.entries, Advisors.flat]
          opened := by simp [Environment.scene]
          filed := by simp [Environment.scene]
          source := by simp [Environment.scene, FiledIn]
          hidden := fun t x hx => by
            cases t <;>
              simp [Environment.scene, Broker.hidden?, Broker.usage?, Book.usage?, Book.usageIn,
              Advisors.book, Advisors.entries, Advisors.flat]
                at hx
          known := by simp }
      tended := ⟨.nil, by simp [Environment.scene]⟩ }
  settled := by simp
  distinct := .nil

/-- The same members in an environment that is sound. -/
theorem Sound.withEnv (hs : r.Sound) (he : r'.env.Sound []) (hm : r'.members = r.members)
    (hnext : r.env.nextMember ≤ r'.env.nextMember) : r'.Sound where
  env := he
  settled := fun m hmem => (hs.settled m (hm ▸ hmem)).mono hnext
  distinct := hm ▸ hs.distinct

theorem Sound.same (hs : r.Sound) (hm : r'.members = r.members)
    (he : r'.env.scene [] = r.env.scene []) : r'.Sound :=
  hs.withEnv (hs.env.same he) hm (Nat.le_of_eq (congrArg Scene.nextMember he).symm)

theorem Sound.withClaims (hs : r.Sound) (claims : List String) : (r.withClaims claims).Sound :=
  ⟨hs.env.withClaims claims, hs.settled, hs.distinct⟩

/-- A pass that has gone through all members in order, or in the opposite order. -/
theorem Sound.passed (hs : r.Sound) {ms' : List Member} (hc : Calm [] r.env r'.env)
    (hp : Passed r'.env.nextMember r.members ms') (hm : r'.members = ms') : r'.Sound where
  env := hc.course.sound
  settled := hm ▸ hp.settled
  distinct := by
    have hids := congrArg (List.map Actor.member) hp.actors
    rw [List.map_map, List.map_map] at hids
    rw [hm]
    exact hids ▸ hs.distinct

/-! ## Passes -/

theorem Sound.postLoad (hs : r.Sound) :
    ∃ n, r.postLoad.1 = .ok n ∧ r.postLoad.2.Sound ∧ Calm [] r.env r.postLoad.2.env := by
  obtain ⟨n, ms', e', heq, hc, hp⟩ := attachAll_calm hs.env hs.settled
  have hcalm : Calm [] r.env r.postLoad.2.env := by
    simp only [Rack.postLoad, heq, reportPass, mapEnv]
    exact hc.same rfl
  have hmembers : r.postLoad.2.members = ms' := by
    simp only [Rack.postLoad, heq, reportPass, mapEnv]
  have hnext : r.postLoad.2.env.nextMember = e'.nextMember := by
    simp only [Rack.postLoad, heq, reportPass, mapEnv]
    rfl
  refine ⟨n, by simp only [Rack.postLoad, heq], hs.passed hcalm ?_ hmembers, hcalm⟩
  rw [hnext]
  exact hp

theorem Sound.preUnload (hs : r.Sound) :
    ∃ n, r.preUnload.1 = .ok n ∧ r.preUnload.2.Sound ∧ Calm [] r.env r.preUnload.2.env := by
  have hsettled : ∀ m ∈ r.members.reverse, m.Settled r.env.nextMember :=
    fun m hm => hs.settled m (List.mem_reverse.mp hm)
  obtain ⟨n, ms', e', heq, hc, hp⟩ := detachAll_calm hs.env hsettled
  have hcalm : Calm [] r.env r.preUnload.2.env := by
    simp only [Rack.preUnload, heq, reportPass, mapEnv]
    exact hc.same rfl
  have hmembers : r.preUnload.2.members = ms'.reverse := by
    simp only [Rack.preUnload, heq, reportPass, mapEnv]
  have hnext : r.preUnload.2.env.nextMember = e'.nextMember := by
    simp only [Rack.preUnload, heq, reportPass, mapEnv]
    rfl
  refine ⟨n, by simp only [Rack.preUnload, heq], hs.passed hcalm ⟨fun m hm => ?_, ?_⟩ hmembers,
    hcalm⟩
  · rw [hnext]
    exact hp.settled m (List.mem_reverse.mp hm)
  · rw [List.map_reverse, hp.actors, List.map_reverse, List.reverse_reverse]

end Rack

/-! ## Loading -/

section Rebase

variable {ids : List Nat} {e₀ e₁ e e' : Environment} {p : Nat → Prop} {gone : List Ticket}

/-- Planning before, and claims made for the time of the operation, are nothing that a course
depends on. -/
theorem Course.rebase (hc : Course p gone e₀ e) (hnext : e₁.nextMember = e₀.nextMember)
    (hhist : e₁.history = e₀.history) (he : e' = { e with claims := e₁.claims }) :
    Course p gone e₁ e' := by
  subst he
  exact ⟨hc.sound.withClaims _, rfl, hnext ▸ hc.later, hhist ▸ hc.history⟩

theorem Batch.rebase (hb : Batch ids e₀ e) (hnext : e₁.nextMember = e₀.nextMember)
    (hhist : e₁.history = e₀.history) (hbroker : e₁.broker = e₀.broker)
    (he : e' = { e with claims := e₁.claims }) :
    Batch ids e₁ e' := by
  have hc : Course (e₁.nextMember ≤ ·) [] e₁ e' := by
    rw [hnext]
    exact hb.course.rebase hnext hhist he
  subst he
  exact ⟨hc, hnext ▸ hb.issued, hnext ▸ hb.dossiers, hnext ▸ hb.slots, hbroker ▸ hb.departures⟩

theorem Unwinding.rebase (hu : Unwinding ids e₀ e) (hnext : e₁.nextMember = e₀.nextMember)
    (hhist : e₁.history = e₀.history) (he : e' = { e with claims := e₁.claims }) :
    Unwinding ids e₁ e' := by
  have hc : Course (e₁.nextMember ≤ ·) [] e₁ e' := by
    rw [hnext]
    exact hu.course.rebase hnext hhist he
  subst he
  exact ⟨hc, hnext ▸ hu.issued, hnext ▸ hu.filed, hnext ▸ hu.slots⟩

end Rebase

theorem PlannedModule.Becomes.map_name {batch : Nat} {plan : List PlannedModule}
    {added : List Member} (h : List.Forall₂ (PlannedModule.Becomes · batch) plan added) :
    added.map Member.name = plan.map (·.name) := by
  induction h with
  | nil => rfl
  | cons hp _ ih => rw [List.map_cons, List.map_cons, hp.name, ih]

theorem PlannedModule.Becomes.all_loaded {batch : Nat} {plan : List PlannedModule}
    {added : List Member} (h : List.Forall₂ (PlannedModule.Becomes · batch) plan added) :
    ∀ m ∈ added, m.stage = .loaded := by
  induction h with
  | nil => simp
  | cons hp _ ih =>
      intro m hm
      rcases List.mem_cons.mp hm with rfl | hm
      · exact hp.stage
      · exact ih m hm

namespace Rack

variable {r r' : Rack} {m : Manifest} {plan : List PlannedModule} {names : List String}
  {err : LifecycleError}

/-- What a batch adds to a rack. -/
structure Adds (r : Rack) (plan : List PlannedModule) (added : List Member) (r' : Rack) : Prop where
  becomes : List.Forall₂ (PlannedModule.Becomes · r.nextBatch) plan added
  distinct : (added.map (·.actor.member)).Nodup
  batch : Batch (added.map (·.actor.member)) r.env r'.env
  members : r'.members = r.members ++ added
  nextBatch : r'.nextBatch = r.nextBatch + 1

/-- What can come of loading what has been planned, or could not be planned. -/
inductive Outcome (r : Rack) (planned : Except PlanError (List PlannedModule)) :
    Except LifecycleError (List String) → Rack → Prop
  /-- The batch is loaded, behind the members. -/
  | loaded {plan : List PlannedModule} {added : List Member} {r' : Rack}
      (hplan : planned = .ok plan)
      (hadds : r.Adds plan added r') : Outcome r planned (.ok (plan.map (·.name))) r'
  /-- A module of the batch fails, and all of it is unwound. -/
  | unwound {name : String} {x : ModuleError} {r' : Rack} (hunwound : Unwinding [] r.env r'.env)
      (hmembers : r'.members = r.members) : Outcome r planned (.error (.load name x)) r'
  /-- Nothing is built. -/
  | refused {e : LifecycleError} {depot : Depot} {log : List LogEvent}
      (he : (∃ x, e = .config x) ∨ ∃ x, e = .inFlight x) :
      Outcome r planned (.error e) { r with env := { r.env with depot, log } }

/-- What loading a batch begins with. -/
def beginBatch (r : Rack) (plan : List PlannedModule) : Environment :=
  r.env.report .info .loader
    ("Loading batch " ++ toString r.nextBatch ++ " with " ++ toString plan.length ++ " modules")

theorem loadBatch_eq : r.loadBatch plan = match loadAll r.nextBatch plan [] (r.beginBatch plan) with
    | (.error e, env) => (.error e, { r with env, nextBatch := r.nextBatch + 1 })
    | (.ok members, env) =>
      (.ok (members.map Member.name),
        { env := env.report .info .loader
            ("✅ Batch " ++ toString r.nextBatch ++ " loaded: "
              ++ String.intercalate ", " (members.map Member.name))
          members := r.members ++ members
          nextBatch := r.nextBatch + 1 }) := by
  rw [loadBatch, beginBatch]
  cases loadAll r.nextBatch plan [] _ with
  | mk res env => cases res <;> rfl

theorem Sound.beginBatch (hs : r.Sound) :
    Batch (([] : List Member).map (·.actor.member)) r.env (r.beginBatch plan) :=
  (Batch.start hs.env).same rfl

theorem Sound.loadBatch_ok (hs : r.Sound) (h : r.loadBatch plan = (.ok names, r')) :
    ∃ added, names = plan.map (·.name) ∧ r.Adds plan added r' := by
  rw [loadBatch_eq] at h
  cases hl : loadAll r.nextBatch plan [] (r.beginBatch plan) with
  | mk out after =>
      rw [hl] at h
      cases out with
      | error e => simp at h
      | ok members =>
          obtain ⟨added, hadded, hall, hb, hd⟩ := hs.beginBatch.loadAll_ok .nil hl
          rw [List.nil_append] at hadded
          subst hadded
          obtain ⟨hok, rfl⟩ := Prod.mk.inj h
          have hnames : names = plan.map (·.name) :=
            (Except.ok.inj hok).symm.trans (PlannedModule.Becomes.map_name hall)
          exact ⟨members, hnames, hall, hd, hb.same rfl, rfl, rfl⟩

theorem Sound.loadBatch_error (hs : r.Sound) (h : r.loadBatch plan = (.error err, r')) :
    (∃ name x, err = .load name x) ∧ Unwinding [] r.env r'.env ∧ r'.members = r.members := by
  rw [loadBatch_eq] at h
  cases hl : loadAll r.nextBatch plan [] (r.beginBatch plan) with
  | mk out after =>
      rw [hl] at h
      cases out with
      | ok members => simp at h
      | error e =>
          obtain ⟨hu, p, -, x, rfl⟩ := hs.beginBatch.loadAll_error hl
          obtain ⟨herr, rfl⟩ := Prod.mk.inj h
          exact ⟨⟨p.name, x, (Except.error.inj herr).symm⟩, hu, rfl⟩

/-- A manifest is loaded, or unwound, or refused. -/
theorem Sound.loadManifest (hs : r.Sound) (m : Manifest) :
    Outcome r (r.plan m).1 (r.loadManifest m).1 (r.loadManifest m).2 := by
  rw [loadManifest_eq]
  cases hclaim : claimAll r.env.claims (m.modules.map (·.name)) with
  | error name => exact .refused (Or.inr ⟨name, rfl⟩)
  | ok claims =>
      have hback : unclaim claims (m.modules.map (·.name)) = r.env.claims := unclaim_claimAll hclaim
      let ready := ((r.withClaims claims).plan m).2
      have hready : ready.Sound := (hs.withClaims claims).same rfl rfl
      simp only [loadPlanned]
      cases hplan : ((r.withClaims claims).plan m).1 with
      | error e =>
          simp only [Rack.release, Rack.plan, Rack.withClaims, mapEnv, Environment.reportAll, hback]
          exact .refused (Or.inl ⟨e, rfl⟩)
      | ok plan =>
          have hafter : ∀ {after : Rack}, after.env.claims = claims →
              (after.release (m.modules.map (·.name))).env =
                  { after.env with claims := r.env.claims } := by
            intro after hclaims
            simp only [Rack.release, Rack.withClaims, mapEnv, hclaims, hback]
          cases hl : ready.loadBatch plan with
          | mk res after =>
              simp only [ready] at hl
              simp only [hl]
              cases res with
              | ok names =>
                  obtain ⟨added, rfl, hadds⟩ := hready.loadBatch_ok hl
                  have he := hafter hadds.batch.course.claims
                  exact .loaded hplan ⟨hadds.becomes, hadds.distinct,
                    hadds.batch.rebase rfl rfl rfl he,
                    hadds.members, hadds.nextBatch⟩
              | error e =>
                  obtain ⟨⟨name, x, rfl⟩, hu, hmembers⟩ := hready.loadBatch_error hl
                  have he := hafter hu.course.claims
                  exact .unwound (hu.rebase rfl rfl he) hmembers

/-- What is planned for the manifest of a source. -/
def planOf (r : Rack) (source : Source) : Except PlanError (List PlannedModule) :=
  source.read.bind fun m => (r.plan m).1

variable {planned : Except PlanError (List PlannedModule)}
  {res : Except LifecycleError (List String)}

/-- A report before loading makes no difference. -/
theorem Outcome.reported {level : Level} {origin : Origin} {text : String}
    (ho : Outcome (r.mapEnv fun env => env.report level origin text) planned res r') :
    Outcome r planned res r' := by
  cases ho with
  | loaded hplan hadds =>
      have hclaims : r'.env.claims = r.env.claims := hadds.batch.course.claims
      refine .loaded hplan ⟨hadds.becomes, hadds.distinct, ?_, hadds.members, hadds.nextBatch⟩
      exact hadds.batch.rebase rfl rfl rfl (by rw [← hclaims])
  | unwound hu hmembers =>
      have hclaims : r'.env.claims = r.env.claims := hu.course.claims
      exact .unwound (hu.rebase rfl rfl (by rw [← hclaims])) hmembers
  | refused he => exact .refused he

theorem Sound.load (hs : r.Sound) (source : Source) :
    Outcome r (r.planOf source) (r.load source).1 (r.load source).2 := by
  rw [Rack.load, planOf]
  cases source.read with
  | error e => exact .refused (Or.inl ⟨e, rfl⟩)
  | ok m =>
      have hstart : (r.mapEnv fun env =>
          env.report .info .loader (Environment.readingText source m)).Sound :=
        hs.same rfl rfl
      exact (hstart.loadManifest m).reported

theorem Outcome.sound (hs : r.Sound) (ho : Outcome r planned res r') : r'.Sound := by
  cases ho with
  | refused he => exact hs.same rfl rfl
  | unwound hu hm => exact hs.withEnv hu.course.sound hm hu.course.later
  | @loaded plan added _ hplan ha =>
      have hnew : ∀ x ∈ added, r.env.nextMember ≤ x.actor.member ∧
          x.actor.member < r'.env.nextMember :=
        fun x hx => ha.batch.issued _ (List.mem_map_of_mem hx)
      refine ⟨ha.batch.course.sound, fun x hx => ?_, ?_⟩
      · rw [ha.members] at hx
        rcases List.mem_append.mp hx with hx | hx
        · exact (hs.settled x hx).mono ha.batch.course.later
        · exact ⟨Or.inl (PlannedModule.Becomes.all_loaded ha.becomes x hx), (hnew x hx).2⟩
      · rw [ha.members, List.map_append]
        refine List.nodup_append.mpr ⟨hs.distinct, ha.distinct, fun n hn k hk => ?_⟩
        obtain ⟨x, hx, rfl⟩ := List.mem_map.mp hn
        obtain ⟨y, hy, rfl⟩ := List.mem_map.mp hk
        exact Nat.ne_of_lt (Nat.lt_of_lt_of_le (hs.settled x hx).issued (hnew y hy).1)

end Rack

end Backplane
