import Backplane.Proofs.Session.Reachable
/-!
# `Backplane.Proofs.Session.Load`: requests to load

A batch is loaded as a whole or not at all.  If one of its modules fails, at whatever point, nothing
that the batch has registered is left, its instances hold nothing any more, and what was there
before is there still.

These are `load_from_config` and `add_module` of the `ModuleLoader`.
-/
namespace Backplane

variable {r r' : Rack} {planned : Except PlanError (List PlannedModule)}
  {res : Except LifecycleError (List String)}

namespace Rack

/-- What a batch that fails leaves behind. -/
structure Undone (r r' : Rack) : Prop where
  members : r'.members = r.members
  /-- Nothing is present that was registered through the dossier of an instance of the batch. -/
  nothingLeft : ∀ n t, r.env.nextMember ≤ n → .published (some n) t ∈ r'.env.history →
    r'.env.broker.usage? t = none
  /-- What was present, and nobody has withdrawn, is present and visible, and its count is that of
  the references which are left. -/
  kept : ∀ t, (r.env.broker.usage? t).isSome → .withdrawn t ∉ r'.env.history →
    r'.env.broker.usage? t = some ⟨r'.env.slots.countP fun x => t ∈ x.2.tickets, false⟩
  /-- The instances of the batch hold nothing. -/
  givenBack : ∀ x ∈ r'.env.slots, ∀ n, r.env.nextMember ≤ n → x.1.home ≠ .member n

/-- What loading a batch promises. -/
structure AllOrNothing (r : Rack) (planned : Except PlanError (List PlannedModule))
    (res : Except LifecycleError (List String)) (r' : Rack) : Prop where
  undone : ∀ e, res = .error e → r.Undone r'
  /-- Unless a module has failed, none has been built: only units have been opened, and reports
  made. -/
  untouched : ∀ e, res = .error e → (∀ name x, e ≠ .load name x) →
    ∃ depot log, r' = { r with env := { r.env with depot, log } }
  loaded : ∀ names, res = .ok names → ∃ plan added, planned = .ok plan ∧ names = plan.map (·.name) ∧
    r'.members = r.members ++ added ∧
    List.Forall₂ (PlannedModule.Becomes · r.nextBatch) plan added ∧
    r'.nextBatch = r.nextBatch + 1

/-- The count of a registration that is present is the number of references in slots that cover
it. -/
theorem Sound.usage? {t : Ticket} (hs : r.Sound) (ht : (r.env.broker.usage? t).isSome) :
    r.env.broker.usage? t = some ⟨r.env.slots.countP fun x => t ∈ x.2.tickets, false⟩ := by
  obtain ⟨u, hu⟩ := Option.isSome_iff_exists.mp ht
  have hopen : u.retired = false := hs.env.isOpen t u hu
  have hcount : r.env.broker.refs t = (r.env.slots.map (·.2)).countP fun h => t ∈ h.tickets :=
    hs.env.balanced.exact.count t
  rw [Broker.refs_of_usage? hu, List.countP_map] at hcount
  have husage : u = ⟨r.env.slots.countP fun x => t ∈ x.2.tickets, false⟩ := by
    rw [← hopen]
    exact congrArg (Usage.mk · u.retired) hcount
  rw [hu, ← husage]

theorem Undone.of_unwinding (hs : r.Sound) (hu : Unwinding [] r.env r'.env)
    (hm : r'.members = r.members) :
    r.Undone r' := by
  have hs' : r'.Sound := hs.withEnv hu.course.sound hm hu.course.later
  refine ⟨hm, fun n t hn hpub => ?_, fun t ht hw => ?_, fun x hx n hn heq => ?_⟩
  · rw [← Option.not_isSome_iff_eq_none]
    intro hsome
    rcases hu.filed n t (hs'.env.chronicled.filed n t hpub hsome) with hlt | hin
    · exact Nat.not_lt.mpr hn hlt
    · simp at hin
  · exact hs'.usage? (hu.course.usage?_isSome hs.env (fun _ h => h) ht hw)
  · rcases hu.slots x hx n heq with hlt | hin
    · exact Nat.not_lt.mpr hn hlt
    · simp at hin

theorem Outcome.allOrNothing (hs : r.Sound) (ho : Outcome r planned res r') :
    r.AllOrNothing planned res r' := by
  cases ho with
  | @loaded plan added _ hplan hadds =>
      refine ⟨by simp, by simp, fun names hnames => ?_⟩
      exact ⟨plan, added, hplan, (Except.ok.inj hnames).symm, hadds.members, hadds.becomes,
        hadds.nextBatch⟩
  | unwound hu hm =>
      refine ⟨fun _ _ => .of_unwinding hs hu hm, fun e he hne => ?_, by simp⟩
      exact absurd (Except.error.inj he).symm (hne _ _)
  | @refused e depot log he =>
      refine ⟨fun _ _ => ?_, fun _ _ _ => ⟨depot, log, rfl⟩, by simp⟩
      exact .of_unwinding hs ((Batch.start hs.env).unwinding.same rfl) rfl

end Rack

/-- Whether a manifest is loaded or one module, on whatever has been reached and whatever hooks do,
the batch is loaded as planned or nothing of it is left.  A request made by a hook that fails
changes nothing. -/
theorem Reachable.all_or_nothing (hr : Reachable r) (claims : List String) :
    (∀ source, (r.withClaims claims).AllOrNothing ((r.withClaims claims).planOf source)
      ((r.withClaims claims).load source).1 ((r.withClaims claims).load source).2) ∧
    (∀ name unit, ∃ res, ((r.withClaims claims).add name unit).1 = res.map (fun _ => ()) ∧
      (r.withClaims claims).AllOrNothing ((r.withClaims claims).plan ⟨[{ name, unit }]⟩).1 res
        ((r.withClaims claims).add name unit).2) ∧
    (∀ (env : Environment) p source e,
      (env.perform p (.call (.load source))).1 = .called (.failed e) →
      ∃ log, (env.perform p (.call (.load source))).2 = { env with log }) ∧
    (∀ (env : Environment) p name unit e,
      (env.perform p (.call (.add name unit))).1 = .called (.failed e) →
      (env.perform p (.call (.add name unit))).2 = env) := by
  have hs : (r.withClaims claims).Sound := hr.sound.1.withClaims claims
  refine ⟨fun source => (hs.load source).allOrNothing hs, fun name unit => ?_,
    fun env p source e _ => ?_,
    fun env p name unit e _ => congrArg Prod.snd env.tryClaim_eq⟩
  · exact ⟨_, rfl, (hs.loadManifest ⟨[{ name, unit }]⟩).allOrNothing hs⟩
  · simp only [Environment.perform, Environment.answerInside]
    cases source.read with
    | error e => exact ⟨env.log, rfl⟩
    | ok m => exact ⟨_, congrArg Prod.snd (env.report _ _ _).tryClaim_eq⟩

/-- A module that, when it is loaded, publishes a number, keeps a reference to another, and then
fails. -/
def stumbler : Blueprint where
  name := "stumbler"
  construction := .built
    { selfName := "stumbler"
      version := "1.0.0"
      hooks :=
        { load := .perform (.publishInterface (.value ⟨"relay"⟩ false 0) none) fun _ =>
            .perform (.lease ⟨⟨"chat"⟩, .value⟩ (some "x")) fun _ => .finish (.panicked none) } }

/-- The host has published a number itself. -/
def hosting : Rack :=
  Session.after { env := { depot := { builtin := .ofList "core" [stumbler] } } }
    [.act "host" (.publishInterface (.value ⟨"chat"⟩ false 0) none)]

theorem hosting_reachable : Reachable hosting := (Reachable.start _).after _

/-- The module that fails leaves nothing behind, and the host's registration as it was. -/
theorem all_or_nothing_hosting :
    Reachable hosting ∧
      ∃ res : Except LifecycleError (List String),
        (hosting.add "stumbler" none).1 = res.map (fun _ => ()) ∧
        (∃ x, res = .error (.load "stumbler" x)) ∧
        hosting.Undone (hosting.add "stumbler" none).2 := by
  refine ⟨hosting_reachable, ?_⟩
  obtain ⟨res, hres, hall⟩ := (hosting_reachable.all_or_nothing []).2.1 "stumbler" none
  have hfails :
      res.map (fun _ => ()) = .error (.load "stumbler" (.panicked "unknown panic payload")) :=
    hres.symm
  cases res with
  | ok names => simp [Except.map] at hfails
  | error e =>
      have he := Except.error.inj hfails
      exact ⟨_, hres, ⟨_, congrArg _ he⟩, hall.undone _ rfl⟩

end Backplane
