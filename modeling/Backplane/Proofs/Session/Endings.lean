import Backplane.Proofs.Lifecycle.Passes
import Backplane.Proofs.Session.Commitment
import Backplane.Proofs.Session.Lifelines
import Backplane.Proofs.Session.Outline
/-!
# `Backplane.Proofs.Session.Endings`: however hooks end

Let two hosts do the same, with modules that do the same in each hook but end their hooks in
different ways.  Then both get the same replies and have the same modules at the same stages, the
same registries and the same journal; only what has been reported differs.  If hooks on loading fail
in both, but with different errors, the replies that say so differ in the error besides.

| how a hook ends | on loading | at any other time |
| :-- | :-- | :-- |
| well | the module is loaded | the module moves on |
| with an error | it is not, and that is the error | the module moves on, and the error is reported |
| it breaks off | it is not, and the reason is the error | the module moves on, and the reason is reported |

The hooks are those of a `Module`, the host has a `ModuleLoader`.
-/
namespace Backplane

variable {g : ModuleError → ModuleError} {r r₁ r₂ : Rack}

/-- Two racks that two hosts come to have by the same steps, if whatever there is to be loaded has the
same outline for both. -/
inductive Twins (g : ModuleError → ModuleError) : Rack → Rack → Prop
  | start {d₁ d₂ : Depot} (hd : d₁.outline g = d₂.outline g) :
      Twins g { env := { depot := d₁ } } { env := { depot := d₂ } }
  | step {r₁ r₂ : Rack} (h : Twins g r₁ r₂) (s : SessionStep) :
      Twins g (Session.step r₁ s).2 (Session.step r₂ s).2
  | clear {r₁ r₂ : Rack} (h : Twins g r₁ r₂) : Twins g (Session.clear r₁) (Session.clear r₂)
  | restock {r₁ r₂ : Rack} {d₁ d₂ : Depot} (h : Twins g r₁ r₂) (hd : d₁.outline g = d₂.outline g) :
      Twins g (r₁.mapEnv fun env => { env with depot := d₁ })
        (r₂.mapEnv fun env => { env with depot := d₂ })

/-- Whether two replies are the same, or both say that a module has failed to load, and `g` does not
tell apart what with. -/
def Reply.Agrees (g : ModuleError → ModuleError) (a b : Reply) : Prop :=
  a = b ∨ ∃ module x y, a = .called (.failed (.load module x)) ∧
    b = .called (.failed (.load module y)) ∧ g x = g y

namespace Twins

theorem symm (h : Twins g r₁ r₂) : Twins g r₂ r₁ := by
  induction h with
  | start hd => exact .start hd.symm
  | step h s ih => exact ih.step s
  | clear h ih => exact ih.clear
  | restock h hd ih => exact ih.restock hd.symm

theorem reachable (h : Twins g r₁ r₂) : Reachable r₁ := by
  induction h with
  | start hd => exact .start _
  | step h s ih => exact ih.step s
  | clear h ih => exact ih.clear
  | restock h hd ih => exact ih.restock _

theorem offering {xs ys : List Blueprint}
    (h : (Bundle.ofList "core" xs).outline g = (Bundle.ofList "core" ys).outline g) :
    Twins g (.offering xs) (.offering ys) :=
  .start (by simp only [Depot.outline, h])

theorem after (h : Twins g r₁ r₂) (steps : List SessionStep) :
    Twins g (Session.after r₁ steps) (Session.after r₂ steps) := by
  induction steps generalizing r₁ r₂ with
  | nil => exact h
  | cons s steps ih => exact ih (h.step s)

end Twins

/-- Racks with the same outline answer alike, and have the same outline afterwards. -/
theorem Session.step_outline (h : r₁.outline g = r₂.outline g) (s : SessionStep) :
    (step r₁ s).1.outline g = (step r₂ s).1.outline g ∧
      (step r₁ s).2.outline g = (step r₂ s).2.outline g := by
  obtain ⟨hreply₁, hrack₁⟩ := step_outlines (Rack.outlines_outline (g := g) (r := r₁)) s
  obtain ⟨hreply₂, hrack₂⟩ := step_outlines (Rack.outlines_outline (g := g) (r := r₂)) s
  rw [h] at hreply₁ hrack₁
  exact ⟨hreply₁.symm.trans hreply₂, hrack₁.outline_eq.trans hrack₂.outline_eq.symm⟩

/-- Twins have the same outline. -/
theorem Twins.outline_eq (h : Twins g r₁ r₂) : r₁.outline g = r₂.outline g := by
  induction h with
  | start hd => exact congrArg (fun d : Depot => ({ env := { depot := d } } : Rack)) hd
  | step h s ih => exact (Session.step_outline ih s).2
  | clear h ih => exact congrArg Session.clear ih
  | restock h hd ih =>
      exact congrArg₂ (fun (r : Rack) (d : Depot) => r.mapEnv fun env => { env with depot := d }) ih hd

/-! ## Replies -/

theorem LifecycleReply.agrees_of_outline {a b : LifecycleReply} (h : a.outline g = b.outline g) :
    a = b ∨ ∃ module x y, a = .failed (.load module x) ∧ b = .failed (.load module y) ∧ g x = g y := by
  unfold outline at h
  split at h
  case h_1 x =>
    split at h
    case h_1 y =>
      have herror : x.outline g = y.outline g := by simpa using h
      cases x <;> cases y <;> simp_all [LifecycleError.outline]
    case h_2 hb => exact absurd h.symm (hb _)
  case h_2 ha =>
    split at h
    case h_1 y => exact absurd h (ha _)
    case h_2 => exact .inl h

theorem Reply.agrees_of_outline {a b : Reply} (h : a.outline g = b.outline g) : a.Agrees g b := by
  unfold outline at h
  split at h
  case h_1 x =>
    split at h
    case h_1 y =>
      rcases LifecycleReply.agrees_of_outline (Reply.called.inj h) with
        rfl | ⟨module, x, y, rfl, rfl, hxy⟩
      · exact .inl rfl
      · exact .inr ⟨module, x, y, rfl, rfl, hxy⟩
    case h_2 hb => exact absurd h.symm (hb _)
  case h_2 ha =>
    split at h
    case h_1 y => exact absurd h (ha _)
    case h_2 => exact .inl h

/-! ## What no hook can hinder -/

/-- What the endings of hooks cannot hinder: nobody has a hook twice, a pass goes through all that are
due, and an unloading that has passed its checks succeeds, and then the modules are gone with what they
had registered. -/
structure Rack.Unhindered (r : Rack) : Prop where
  once : ∀ n, (hooksOf r.env.turns n).Nodup
  attached : GoesThrough .postLoad .loaded .postLoaded r.members r.env
    (r.postLoad.1, r.postLoad.2.members, r.postLoad.2.env)
  detached : GoesThrough .preUnload .postLoaded .preUnloaded r.members.reverse r.env
    (r.preUnload.1, r.preUnload.2.members.reverse, r.preUnload.2.env)
  allUnloaded : r.MayUnloadAll → r.unloadAll.1 = .ok r.names.reverse ∧ r.unloadAll.2.members = [] ∧
    ∀ m ∈ r.members, ∀ t ∈ r.env.ticketsOf m.actor.member, r.unloadAll.2.env.broker.usage? t = none
  unloaded : ∀ name m, r.MayUnload name m → (r.unload name).1 = .ok () ∧
    (r.unload name).2.members = without r.members m ∧
    ∀ t ∈ r.env.ticketsOf m.actor.member, (r.unload name).2.env.broker.usage? t = none

namespace Rack

theorem postLoad_goesThrough : GoesThrough .postLoad .loaded .postLoaded r.members r.env
    (r.postLoad.1, r.postLoad.2.members, r.postLoad.2.env) := by
  have hall : GoesThrough .postLoad .loaded .postLoaded r.members r.env _ := attachAll_goesThrough
  refine ⟨hall.count, ?_, ?_⟩
  all_goals simp only [postLoad, hall.count, reportPass]
  · exact hall.members
  · exact hall.turns

theorem preUnload_goesThrough :
    GoesThrough .preUnload .postLoaded .preUnloaded r.members.reverse r.env
      (r.preUnload.1, r.preUnload.2.members.reverse, r.preUnload.2.env) := by
  have hall : GoesThrough .preUnload .postLoaded .preUnloaded r.members.reverse r.env _ :=
    detachAll_goesThrough
  refine ⟨hall.count, ?_, ?_⟩
  all_goals simp only [preUnload, hall.count, reportPass, mapEnv, List.reverse_reverse]
  · exact hall.members
  · exact hall.turns

/-- Hiding registrations leaves the records of them. -/
theorem committedAll_ticketsOf {n : Nat} : r.committedAll.ticketsOf n = r.env.ticketsOf n :=
  Environment.detached_ticketsOf.retireMembers

theorem committed_ticketsOf {name : String} {m : Member} {n : Nat} :
    (r.committed name m).ticketsOf n = r.env.ticketsOf n :=
  Environment.detached_ticketsOf.retireAll

theorem Sound.unloadAll_leavesNothing (hs : r.Sound) (h : r.MayUnloadAll) :
    ∀ m ∈ r.members, ∀ t ∈ r.env.ticketsOf m.actor.member,
      r.unloadAll.2.env.broker.usage? t = none := fun m hm t ht =>
  (hs.unloadAll_seesOff h).gone t
    (List.mem_flatMap.mpr ⟨m, List.mem_reverse.mpr hm, committedAll_ticketsOf ▸ ht⟩)

theorem Sound.unload_leavesNothing {name : String} {m : Member} (hs : r.Sound) (h : r.MayUnload name m) :
    ∀ t ∈ r.env.ticketsOf m.actor.member, (r.unload name).2.env.broker.usage? t = none := fun t ht =>
  (hs.unload_seesOff h).gone t
    (List.mem_flatMap.mpr ⟨m, List.mem_singleton.mpr rfl, committed_ticketsOf ▸ ht⟩)

theorem InOrder.once (h : r.InOrder) (n : Nat) : (hooksOf r.env.turns n).Nodup := by
  have horders : ∀ hooks ∈ hookOrders, hooks.Nodup := by decide
  cases hlife : lifeline r.env.turns n with
  | nil => simp [hooksOf, hlife]
  | cons t ts =>
      obtain ⟨ht, rfl⟩ := mem_lifeline.mp (hlife ▸ List.mem_cons_self : t ∈ lifeline r.env.turns n)
      exact horders _ (h.hooks t ht)

end Rack

theorem Reachable.unhindered (hr : Reachable r) : r.Unhindered where
  once := (Rack.InOrder.of_lawful hr.lawful).once
  attached := Rack.postLoad_goesThrough
  detached := Rack.preUnload_goesThrough
  allUnloaded := fun h => by
    obtain ⟨hok, hmembers, -⟩ := hr.sound.1.unloadAll_granted h
    exact ⟨hok, hmembers, hr.sound.1.unloadAll_leavesNothing h⟩
  unloaded := fun name m h => by
    obtain ⟨hok, hmembers, -⟩ := hr.sound.1.unload_granted h
    exact ⟨hok, hmembers, hr.sound.1.unload_leavesNothing h⟩

/-! ## The same for all endings -/

theorem hooksOf_outline {turns : List Turn} {n : Nat} :
    hooksOf (turns.map (Turn.outline g)) n = hooksOf turns n := by
  have hwho : ∀ t : Turn, (t.outline g).who = t.who := fun t => by cases t <;> rfl
  have hhook : ∀ t : Turn, (t.outline g).hook? = t.hook? := fun t => by cases t <;> rfl
  simp only [hooksOf, lifeline, List.filter_map, List.filterMap_map, Function.comp_def, hwho, hhook]

/-- However hooks end, the host comes to have the same: but for the endings themselves and for what
has been reported nothing differs between twins, and they answer alike.  None of them is hindered by a
hook that fails. -/
theorem Twins.same_whatever_endings (h : Twins g r₁ r₂) :
    r₁.outline g = r₂.outline g ∧ r₁.env.broker = r₂.env.broker ∧ r₁.env.journal = r₂.env.journal ∧
    r₁.infos = r₂.infos ∧ (∀ n, hooksOf r₁.env.turns n = hooksOf r₂.env.turns n) ∧
    (∀ s, (Session.step r₁ s).1.Agrees g (Session.step r₂ s).1) ∧
    r₁.Unhindered ∧ r₂.Unhindered := by
  have houtline := h.outline_eq
  have h₁ : r₁.Outlines g (r₂.outline g) := houtline ▸ Rack.outlines_outline
  have h₂ : r₂.Outlines g (r₂.outline g) := Rack.outlines_outline
  refine ⟨houtline, ?_, ?_, ?_, ?_, ?_, ?_, ?_⟩
  · exact h₁.env.broker.symm.trans h₂.env.broker
  · exact h₁.env.journal.symm.trans h₂.env.journal
  · exact h₁.infos.symm.trans h₂.infos
  · intro n
    rw [← hooksOf_outline (g := g), ← h₁.env.turns, h₂.env.turns, hooksOf_outline]
  · exact fun s => Reply.agrees_of_outline (Session.step_outline houtline s).1
  · exact h.reachable.unhindered
  · exact h.symm.reachable.unhindered

/-- If errors are told apart, replies that agree are the same. -/
theorem Reply.agrees_id {a b : Reply} : a.Agrees id b ↔ a = b := by
  refine ⟨?_, .inl⟩
  rintro (rfl | ⟨module, x, y, rfl, rfl, hxy⟩)
  · rfl
  · rw [show x = y from hxy]

/-- A module that publishes, refers to what it has published and publishes something else, and ends
its hooks as it is told. -/
def performer (onLoad onPostLoad onPreUnload onUnload : Ending) : Blueprint :=
  plain "performer"
    { load := .perform (.publishInterface (.value ⟨"chat"⟩ false 0) (some "t")) fun _ => .finish onLoad
      postLoad := .perform (.lease ⟨⟨"chat"⟩, .value⟩ (some "x")) fun _ => .finish onPostLoad
      preUnload := .perform (.release "x") fun _ => .finish onPreUnload
      unload := .perform (.publishAdvisor (.scorer .bounty) 0 none) fun _ => .finish onUnload }

/-- A rack with a performer that is loaded, attached and detached. -/
def performed (onPostLoad onPreUnload onUnload : Ending) : Rack :=
  Session.after (.offering [performer .ok onPostLoad onPreUnload onUnload])
    [.call (.add "performer" none), .call .postLoad, .call .preUnload]

theorem performed_twins {a b c a' b' c' : Ending} :
    Twins id (performed a b c) (performed a' b' c') := by
  have hstart : Twins id (.offering [performer .ok a b c]) (.offering [performer .ok a' b' c']) :=
    .offering rfl
  exact hstart.after _

/-- A rack with a performer to be loaded. -/
def debut (onLoad : Ending) : Rack := .offering [performer onLoad .ok .ok .ok]

/-- Of two performers one fails in every hook but the first, and that is reported; of two that fail in
the first hook, one says so and one breaks off. -/
theorem same_whatever_endings_performed :
    ∃ well badly, well = performed .ok .ok .ok ∧
      badly = performed (.failed (.executionError "late")) (.panicked none) (.panicked (some "lost")) ∧
      Twins id well badly ∧ well.env.broker = badly.env.broker ∧ well.infos = badly.infos ∧
      hooksOf badly.env.turns 0 = [.load, .postLoad, .preUnload] ∧
      badly.env.log.length = well.env.log.length + 2 ∧
      (Session.step well (.call .unloadAll)).1 = .called (.names ["performer"]) ∧
      (Session.step badly (.call .unloadAll)).1 = .called (.names ["performer"]) ∧
    ∃ refused broken, refused = debut (.failed (.initializationFailed "late")) ∧
      broken = debut (.panicked (some "late")) ∧
      Twins (fun _ => .panicked "") refused broken ∧
      (Session.step refused (.call (.add "performer" none))).1 =
        .called (.failed (.load "performer" (.initializationFailed "late"))) ∧
      (Session.step broken (.call (.add "performer" none))).1 =
        .called (.failed (.load "performer" (.panicked "late"))) ∧
      (Session.step refused (.call (.add "performer" none))).2.env.broker =
        (Session.step broken (.call (.add "performer" none))).2.env.broker := by
  have hdebut : Twins (fun _ => .panicked "") (debut (.failed (.initializationFailed "late")))
      (debut (.panicked (some "late"))) := .offering rfl
  obtain ⟨-, hbroker, -, hinfos, -, hreplies, -, -⟩ := performed_twins.same_whatever_endings
  obtain ⟨-, hbroker', -⟩ := (hdebut.step (.call (.add "performer" none))).same_whatever_endings
  have hunload : (Session.step (performed .ok .ok .ok) (.call .unloadAll)).1 =
      .called (.names ["performer"]) := rfl
  exact ⟨_, _, rfl, rfl, performed_twins, hbroker, hinfos, rfl, rfl, hunload,
    (Reply.agrees_id.mp (hreplies (.call .unloadAll))).symm.trans hunload,
    _, _, rfl, rfl, hdebut, rfl, rfl, hbroker'⟩

end Backplane
