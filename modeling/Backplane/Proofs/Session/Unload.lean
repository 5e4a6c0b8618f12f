import Backplane.Proofs.Session.Reachable
/-!
# `Backplane.Proofs.Session.Unload`: requests to unload

A request to unload that is refused changes nothing but the reports, wherever it is made.  One that
is granted may take a registration away from its users all the same: one that a hook has made
through the member's dossier since the registrations were hidden.

The requests are `unload_all` and `unload_module`.
-/
namespace Backplane

variable {r : Rack}

/-! ## Refusals -/

/-- The rack, or the environment of a hook, is what it was before an unloading that is refused,
however many registrations of however many members had been hidden when it was. -/
theorem Reachable.refused_unload (hr : Reachable r) (claims : List String) :
    (∀ e, (r.withClaims claims).unloadAll.1 = .error e →
      (r.withClaims claims).Reported (r.withClaims claims).unloadAll.2) ∧
    (∀ name e, ((r.withClaims claims).unload name).1 = .error e →
      (r.withClaims claims).Reported ((r.withClaims claims).unload name).2) ∧
    (∀ (env : Environment) p name e,
      (env.perform p (.call (.unload name))).1 = .called (.failed e) →
      (env.perform p (.call (.unload name))).2 = env) ∧
    (∀ (env : Environment) p, env.perform p (.call .unloadAll) = (.called .blocked, env)) := by
  have hs : (r.withClaims claims).Sound := hr.sound.1.withClaims claims
  refine ⟨fun e he => ?_, fun name e he => ?_,
    fun env p name e _ => congrArg Prod.snd env.tryClaim_eq, fun _ _ => rfl⟩
  · rcases hs.unloadAll with ⟨-, hrep⟩ | ⟨hok, -⟩
    · exact hrep
    · simp [hok] at he
  · rcases hs.unload name with ⟨-, hrep⟩ | ⟨m, -, hok, -⟩
    · exact hrep
    · simp [hok] at he

/-- A module that publishes a number when it is loaded. -/
def publisher (name capability : String) : Blueprint where
  name
  construction := .built
    { selfName := name
      version := "1.0.0"
      hooks := { load := .perform (.publishInterface (.value ⟨capability⟩ false 0) none) .settle } }

/-- Two modules are loaded, and the host refers to what the older one publishes. -/
def olderInUse : Rack :=
  Session.after
    { env := { depot :=
      { builtin := .ofList "core" [publisher "older" "chat", publisher "newer" "relay"] } } }
    [.call (.add "older" none), .call (.add "newer" none),
      .act "host" (.lease ⟨⟨"chat"⟩, .value⟩ (some "x"))]

theorem olderInUse_reachable : Reachable olderInUse := (Reachable.start _).after _

/-- When the older module is found to be in use the newer one has been hidden already. -/
theorem refused_unload_olderInUse :
    Reachable olderInUse ∧
    (olderInUse.withClaims []).unloadAll.1 = .error (.busy "older" ⟨"chat"⟩ 1) ∧
      (olderInUse.withClaims []).Reported (olderInUse.withClaims []).unloadAll.2 :=
  ⟨olderInUse_reachable, rfl, (olderInUse_reachable.refused_unload []).1 _ rfl⟩

/-! ## Registrations in use -/

/-- The removals that a step comes to, if it asks to unload and is not refused. -/
def removalsFor (r : Rack) : SessionStep → List (Member × Environment)
  | .call .unloadAll =>
    match r.unloadAll.1 with
    | .ok _ => r.removalsOfAll
    | .error _ => []
  | .call (.unload name) =>
    match (r.unload name).1 with
    | .ok () => r.removalsOf name
    | .error _ => []
  | _ => []

/-- A step takes from users what its removals pull, which is late, and nothing else. -/
structure Rack.Pulled (r : Rack) (xs : List (Member × Environment)) (r' : Rack) : Prop where
  departures : ∀ t, t ∈ r'.env.broker.departures ↔ t ∈ r.env.broker.departures ∨ ∃ x ∈ xs, Pulls x t
  late : ∀ x ∈ xs, ∀ t, Pulls x t → Late r.env x t

theorem Rack.Spares.pulled {r' : Rack} (h : r.Spares r') : r.Pulled [] r' :=
  ⟨fun t => by simpa using h.departures t, by simp⟩

theorem Rack.Sound.unloadAll_pulled (hs : r.Sound) :
    r.Pulled (removalsFor r (.call .unloadAll)) (r.answer .unloadAll).2 := by
  rw [removalsFor]
  rcases hs.unloadAll with ⟨⟨e, he⟩, hrep⟩ | ⟨hok, -, hshrinks⟩
  · rw [he]
    exact (hrep.spares hs).pulled
  · rw [hok]
    exact ⟨hshrinks.departures, hshrinks.late⟩

theorem Rack.Sound.unload_pulled (hs : r.Sound) (name : String) :
    r.Pulled (removalsFor r (.call (.unload name))) (r.answer (.unload name)).2 := by
  rw [removalsFor]
  rcases hs.unload name with ⟨⟨e, he⟩, hrep⟩ | ⟨m, -, hok, -, hshrinks⟩
  · rw [he]
    exact (hrep.spares hs).pulled
  · rw [hok]
    exact ⟨hshrinks.departures, hshrinks.late⟩

/-- Unless a batch is unwound, a registration in use is removed exactly if a member that is unloaded
has it on record, in use, when its turn comes; and then it was made through that member's dossier
during the unloading. -/
theorem Reachable.pulled_iff (hr : Reachable r) (claims : List String) (s : SessionStep)
    (hload : ∀ name x,
      (Session.step (r.withClaims claims) s).1 ≠ .called (.failed (.load name x))) :
    (r.withClaims claims).Pulled (removalsFor (r.withClaims claims) s)
      (Session.step (r.withClaims claims) s).2 := by
  have hs : (r.withClaims claims).Sound := hr.sound.1.withClaims claims
  cases s with
  | act owner a => exact (Session.perform_spares hs rfl a).pulled
  | through name s =>
      rw [Session.step]
      cases Keyed.get? (r.withClaims claims).env.kept name with
      | none => exact Rack.Spares.pulled (.of_same hs rfl rfl)
      | some n => exact (Session.through_spares hs n s).pulled
  | call request =>
      cases request with
      | load source =>
        exact (Session.load_spares hs fun name x heq =>
          hload name x (congrArg Reply.called heq)).pulled
      | add name unit =>
        exact (Session.add_spares hs fun n x heq => hload n x (congrArg Reply.called heq)).pulled
      | unloadAll => exact hs.unloadAll_pulled
      | unload name => exact hs.unload_pulled name
      | _ => exact (Session.answer_spares hs rfl).pulled
  | _ => exact Rack.Spares.pulled (.of_same hs rfl rfl)

/-- A module that, when it is about to be unloaded, publishes a number and leaves a reference to it
where others find it. -/
def clinger : Blueprint where
  name := "clinger"
  construction := .built
    { selfName := "clinger"
      version := "1.0.0"
      hooks :=
        { preUnload := .perform (.publishInterface (.value ⟨"chat"⟩ false 0) none) fun _ =>
            .perform (.lease ⟨⟨"chat"⟩, .value⟩ (some "g:x")) .settle } }

/-- That module has been loaded and attached. -/
def clinging : Rack :=
  Session.after { env := { depot := { builtin := .ofList "core" [clinger] } } }
    [.call (.add "clinger" none), .call .postLoad]

theorem clinging_reachable : Reachable clinging := (Reachable.start _).after _

/-- Unloading that module removes what it has published, which is in use. -/
theorem clinging_pulled :
    Reachable clinging ∧ (clinging.unload "clinger").1 = .ok () ∧
    clinging.env.broker.departures = [] ∧
      (clinging.unload "clinger").2.env.broker.departures = [.interface ⟨"chat"⟩ 1] ∧
    (clinging.unload "clinger").2.env.slots.map (fun x => x.2.tickets) =
      [[.interface ⟨"chat"⟩ 1]] ∧
      (clinging.unload "clinger").2.env.broker.usage? (.interface ⟨"chat"⟩ 1) = none :=
  ⟨clinging_reachable, rfl, rfl, rfl, rfl, rfl⟩

/-- It is pulled at the removal of that module, and has been made late. -/
theorem pulled_iff_clinging :
    Reachable clinging ∧ ∃ x ∈ removalsFor (clinging.withClaims []) (.call (.unload "clinger")),
      Pulls x (.interface ⟨"chat"⟩ 1) ∧ Late clinging.env x (.interface ⟨"chat"⟩ 1) := by
  refine ⟨clinging_reachable, ?_⟩
  have hpulled := clinging_reachable.pulled_iff [] (.call (.unload "clinger"))
    fun _ _ h => LifecycleReply.noConfusion (Reply.called.inj h)
  have hgone : Ticket.interface ⟨"chat"⟩ 1 ∈ [Ticket.interface ⟨"chat"⟩ 1] :=
    List.mem_singleton_self _
  rcases (hpulled.departures _).mp hgone with hbefore | ⟨x, hx, hpulls⟩
  · exact absurd hbefore (List.not_mem_nil (a := Ticket.interface ⟨"chat"⟩ 1))
  · exact ⟨x, hx, hpulls, hpulled.late x hx _ hpulls⟩

end Backplane
