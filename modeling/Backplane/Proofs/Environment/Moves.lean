import Backplane.Proofs.Environment.Claims
import Backplane.Proofs.Keyed
import Backplane.Proofs.Registry.Services
import Mathlib.Logic.Relation
/-!
# `Backplane.Proofs.Environment.Moves`: what hooks can do, move by move

Whatever a module or the host does, the registries, the dossiers and the slots change by a few kinds
of moves only.  A scene is what these moves act upon, together with the references in hand: those
that have been taken but are in no slot, or are out of it already.  Every action is a sequence of
moves with nothing in hand before or after, and so is every hook, whatever its behaviour.

The registries are those of the `Broker`, the dossiers are `ModuleContext`s.
-/
namespace Backplane

/-- The part of an environment that registrations and references concern, with the references in
hand. -/
structure Scene where
  hand : List Hold
  broker : Broker
  dossiers : List Dossier
  slots : List (SlotKey × Hold)
  history : List Episode
  claims : List String
  nextMember : Nat

/-- The scene of an environment. -/
def Environment.scene (env : Environment) (hand : List Hold) : Scene where
  hand
  broker := env.broker
  dossiers := env.dossiers
  slots := env.slots
  history := env.history
  claims := env.claims
  nextMember := env.nextMember

/-- Changes the dossier of an instance. -/
def changeIn (dossiers : List Dossier) (member : Nat) (f : Dossier → Dossier) : List Dossier :=
  dossiers.map fun d => if d.member = member then f d else d

/-- A dossier with one record more. -/
def Dossier.append (d : Dossier) (r : Record) : Dossier := { d with records := d.records ++ [r] }

/-- A dossier without the records of a ticket. -/
def Dossier.without (d : Dossier) (t : Ticket) : Dossier :=
  { d with records := d.records.filter fun r => r.ticket ≠ t }

/-- One change to a scene, made by somebody with slots of his own. -/
inductive Move (home : SlotHome) : Scene → Scene → Prop
  | reorder {s : Scene} {hand : List Hold} (h : s.hand.Perm hand) : Move home s { s with hand }
  /-- Publishes without a dossier. -/
  | publish {s : Scene} {t : Ticket} {b : Broker} (h : s.broker.Publishes t b) :
      Move home s { s with broker := b, history := s.history ++ [.published none t] }
  /-- Publishes through a dossier, which keeps what is published. -/
  | record {s : Scene} {r : Record} {b : Broker} {n : Nat} (h : s.broker.Publishes r.ticket b)
      (hs : b.Serves r.ticket r.service) (hn : n ∈ s.dossiers.map (·.member)) :
      Move home s
        { s with
          broker := b
          dossiers := changeIn s.dossiers n (·.append r)
          history := s.history ++ [.published (some n) r.ticket] }
  /-- Withdraws without a dossier. -/
  | withdraw {s : Scene} {t : Ticket} {b : Broker} (h : s.broker.withdraw t = .ok b) :
      Move home s { s with broker := b, history := s.history ++ [.withdrawn t] }
  /-- Withdraws through a dossier. -/
  | forget {s : Scene} {t : Ticket} {b : Broker} {n : Nat} (h : s.broker.withdraw t = .ok b) :
      Move home s
        { s with
          broker := b
          dossiers := changeIn s.dossiers n (·.without t)
          history := s.history ++ [.withdrawn t] }
  /-- Takes a reference. -/
  | take {s : Scene} {h : Hold} {b : Broker} (ht : s.broker.Takes h b) :
      Move home s { s with hand := h :: s.hand, broker := b }
  /-- Asks for a panel in vain. -/
  | miss {s : Scene} {alive : ServiceId → Bool} {k : Contract} {e : RegistryError}
      (h : (s.broker.panel alive k).1 = .error e) :
      Move home s { s with broker := (s.broker.panel alive k).2 }
  /-- Gives a reference in hand back. -/
  | giveBack {s : Scene} {h : Hold} {rest : List Hold} (hh : s.hand = h :: rest) :
      Move home s { s with hand := rest, broker := (s.broker.giveBack h).2 }
  /-- Puts a reference in hand into an empty slot. -/
  | stow {s : Scene} {h : Hold} {rest : List Hold} {key : SlotKey} (hh : s.hand = h :: rest)
      (hk : Keyed.get? s.slots key = none) (hhome : key.home = home ∨ key.home = .shared) :
      Move home s { s with hand := rest, slots := s.slots ++ [(key, h)] }
  /-- Takes a reference out of its slot. -/
  | fetch {s : Scene} {h : Hold} {key : SlotKey} (hk : Keyed.get? s.slots key = some h) :
      Move home s { s with hand := h :: s.hand, slots := Keyed.erase s.slots key }
  /-- Takes references out of some slots together. -/
  | drain {s : Scene} (q : SlotKey × Hold → Bool) :
      Move home s
        { s with
          hand := (s.slots.filter q).map (·.2) ++ s.hand
          slots := s.slots.filter fun x => !q x }

/-- Any number of moves. -/
abbrev Moves (home : SlotHome) : Scene → Scene → Prop := Relation.ReflTransGen (Move home)

namespace Environment

variable {env env' : Environment} {hand : List Hold} {home : SlotHome} {p : Party} {h : Hold}

/-! ## References -/

theorem take_move {b : Broker} (ht : env.broker.Takes h b) :
    Move home (env.scene hand) ({ env with broker := b }.scene (h :: hand)) :=
  .take ht

theorem vacate_move {key : SlotKey} (hk : env.held? key = some h) :
    Move home (env.scene hand) ((env.vacate key).scene (h :: hand)) :=
  .fetch hk

theorem stow_move {key : SlotKey} (hk : env.held? key = none)
    (hhome : key.home = home ∨ key.home = .shared) :
    Move home (env.scene (h :: hand))
      ({ env with slots := Keyed.put env.slots key h }.scene hand) := by
  rw [Keyed.put, Keyed.erase_of_get? hk]
  exact .stow rfl hk hhome

theorem giveUp_moves : Moves home (env.scene (h :: hand)) ((env.giveUp h).scene hand) := by
  have hmove : Move home (env.scene (h :: hand)) _ := .giveBack rfl
  refine .single ?_
  rw [giveUp]
  cases (env.broker.giveBack h).1 with
  | ok _ => exact hmove
  | error e => exact hmove

theorem giveUpAll_moves {hs : List Hold} :
    Moves home (env.scene (hs ++ hand)) ((env.giveUpAll hs).scene hand) := by
  induction hs generalizing env with
  | nil => exact .refl
  | cons h hs ih => exact giveUp_moves.trans ih

theorem fill_moves {key : SlotKey} (hhome : key.home = home ∨ key.home = .shared) :
    Moves home (env.scene (h :: hand)) ((env.fill key h).scene hand) := by
  rw [fill]
  cases hk : env.held? key with
  | none => exact .single (stow_move hk hhome)
  | some old =>
      have hput : Keyed.put (env.vacate key).slots key h = Keyed.put env.slots key h := by
        rw [Keyed.put, Keyed.put, vacate, Keyed.erase_of_get? Keyed.get?_erase]
      -- what was in the slot is given back last, when the new reference is in its place
      have hswap : Move home ((env.vacate key).scene (old :: h :: hand))
          ((env.vacate key).scene (h :: old :: hand)) :=
        .reorder (.swap _ _ _)
      have hstow : Move home ((env.vacate key).scene (h :: old :: hand))
          ({ env with slots := Keyed.put env.slots key h }.scene (old :: hand)) := by
        rw [← hput]
        exact stow_move Keyed.get?_erase hhome
      exact .head (vacate_move hk) (.head hswap (.head hstow giveUp_moves))

theorem slot_home (name : String) : (p.slot name).home = p.home ∨ (p.slot name).home = .shared := by
  rw [Party.slot]
  split
  · exact Or.inr rfl
  · exact Or.inl rfl

theorem place_moves {slot : Option String} :
    Moves p.home (env.scene (h :: hand)) ((env.place p slot h).scene hand) := by
  cases slot with
  | none => exact giveUp_moves
  | some name => exact fill_moves (slot_home name)

theorem emptySlots_moves {n : Nat} :
    Moves home (env.scene hand) ((env.emptySlots n).scene hand) := by
  let isOwn (x : SlotKey × Hold) : Bool := x.1.home = .member n
  let left : Environment := { env with slots := env.slots.filter fun x => !isOwn x }
  have hdrain : Move home (env.scene hand)
      (left.scene ((env.slots.filter isOwn).map (·.2) ++ hand)) :=
    .drain isOwn
  exact .head hdrain giveUpAll_moves

theorem drop_moves {slot : String} :
    Moves home (env.scene hand) ((env.drop p slot).2.scene hand) := by
  rw [drop]
  cases hk : env.held? (p.slot slot) with
  | none => exact .refl
  | some h => exact .head (vacate_move hk) giveUp_moves

theorem release_moves {slot : String} :
    Moves home (env.scene hand) ((env.release p slot).2.scene hand) := by
  rw [release]
  cases hk : env.held? (p.slot slot) with
  | none => exact .refl
  | some h =>
      have hback : Move home ((env.vacate (p.slot slot)).scene (h :: hand)) _ := .giveBack rfl
      refine .head (vacate_move hk) (.single ?_)
      simp only
      cases (env.broker.giveBack h).1 with
      | ok _ => exact hback
      | error e => exact hback

theorem lease_moves {k : Contract} {slot : Option String} :
    Moves p.home (env.scene hand) ((env.lease p k slot).2.scene hand) := by
  rw [lease]
  cases hl : env.broker.lease env.alive k with
  | error e => exact .refl
  | ok r => exact .head (take_move (.lease hl)) place_moves

theorem panel_moves {k : Contract} {slot : Option String} :
    Moves p.home (env.scene hand) ((env.panel p k slot).2.scene hand) := by
  rw [panel]
  cases hp : (env.broker.panel env.alive k).1 with
  | error e => exact .single (.miss hp)
  | ok x => exact .head (take_move (.panel hp)) place_moves

/-! ## Consultations -/

theorem withGenerator_moves {α : Type} {f : Xorshift → α × Xorshift} {r : α × Environment}
    (h : env.withGenerator f = .ok r) : Moves home (env.scene hand) (r.2.scene hand) := by
  rw [withGenerator] at h
  cases hl : env.broker.lease env.alive .generator with
  | error e => simp [hl, Except.map] at h
  | ok x =>
      simp only [hl, Except.map, Except.ok.injEq] at h
      subst h
      let drawn := f (env.generatorOf x.1.service)
      let after : Environment :=
        { env with broker := x.2, services := env.services.set x.1.service (.generator drawn.2) }
      have hlease : Move home (env.scene hand) (after.scene (.lease x.1 :: hand)) :=
        .take (.lease hl)
      exact .head hlease giveUp_moves

theorem draw_moves {requests : List Xorshift.Draw} :
    Moves home (env.scene hand) ((env.draw requests).2.scene hand) := by
  rw [draw]
  cases hg : env.withGenerator (Xorshift.drawAll requests) with
  | error e => exact .refl
  | ok r =>
      have hmoves : Moves home (env.scene hand) (r.2.scene hand) := withGenerator_moves hg
      exact hmoves

theorem filter_moves {text : String} :
    Moves home (env.scene hand) ((env.filter text).2.scene hand) := by
  rw [filter]
  cases hl : env.broker.lease env.alive .wordFilter with
  | error e => exact .refl
  | ok r => exact .head (take_move (.lease hl)) giveUp_moves

theorem score_moves {k : Kill} {s : Option Service} :
    Moves home (env.scene hand) ((env.score k s).2.scene hand) := by
  unfold score
  split
  · exact .refl
  · exact .refl
  · exact .refl
  · split
    · next hg => exact withGenerator_moves hg
    · exact .refl
  · exact .refl

theorem scores_moves {k : Kill} {seats : List Seat} :
    Moves home (env.scene hand) ((scores k seats env).2.scene hand) := by
  induction seats generalizing env with
  | nil => exact .refl
  | cons s seats ih => exact score_moves.trans ih

theorem award_moves {k : Kill} : Moves home (env.scene hand) ((env.award k).2.scene hand) := by
  rw [award]
  cases hp : (env.broker.panel env.alive .killPoints).1 with
  | error e => exact .single (.miss hp)
  | ok x => exact .head (take_move (.panel hp)) (scores_moves.trans giveUp_moves)

theorem permit_scene {s : Option Service} : (env.permit s).2.scene hand = env.scene hand := by
  unfold permit
  split <;> rfl

theorem permits_scene {seats : List Seat} : (permits seats env).2.scene hand = env.scene hand := by
  induction seats generalizing env with
  | nil => rfl
  | cons s seats ih =>
      cases ha : (env.permit env.services[s.service]?).1 with
      | true =>
          simp only [permits, ha, if_true]
          exact ih.trans permit_scene
      | false =>
          simp only [permits, ha, Bool.false_eq_true, if_false]
          exact permit_scene

theorem banner_moves : Moves home (env.scene hand) (env.banner.2.scene hand) := by
  rw [banner]
  cases hp : (env.broker.panel env.alive .bannerPermit).1 with
  | error e => exact .single (.miss hp)
  | ok x =>
      let taken : Environment := { env with broker := (env.broker.panel env.alive .bannerPermit).2 }
      have hasked : (permits x.seats taken).2.scene (.panel x :: hand) =
          taken.scene (.panel x :: hand) :=
        permits_scene
      have htake : Move home (env.scene hand) (taken.scene (.panel x :: hand)) :=
        take_move (.panel hp)
      rw [← hasked] at htake
      exact .head htake giveUp_moves

/-! ## Publishing and withdrawing -/

theorem changeIn_of_notMem {ds : List Dossier} {n : Nat} {f : Dossier → Dossier}
    (hn : n ∉ ds.map (·.member)) :
    changeIn ds n f = ds := by
  have hid : changeIn ds n f = ds.map id := List.map_congr_left fun d hd => by
    have hne : d.member ≠ n := fun heq => hn (heq ▸ List.mem_map_of_mem hd)
    simp [hne]
  rw [hid, List.map_id]

theorem mem_of_dossier? {n : Nat} {d : Dossier} (h : env.dossier? n = some d) :
    d ∈ env.dossiers ∧ d.member = n :=
  ⟨List.mem_of_find?_eq_some h, by simpa using List.find?_some h⟩

theorem notMem_of_dossier? {n : Nat} (h : env.dossier? n = none) :
    n ∉ env.dossiers.map (·.member) := by
  intro hn
  obtain ⟨d, hd, rfl⟩ := List.mem_map.mp hn
  simpa using List.find?_eq_none.mp h d hd

/-- Publishing is one move, made through the dossier of the party if there is one. -/
theorem retain_move {t : Ticket} {s : ServiceId} {name : Option String}
    (hp : env.broker.Publishes t env'.broker) (hs : env'.broker.Serves t s)
    (he : env'.scene hand = { env.scene hand with broker := env'.broker }) :
    Move home (env.scene hand) ((env'.retain p name t s).scene hand) := by
  have hname : ∀ (x : Environment) (e : Episode), ((x.nameTicket name t).remember e).scene hand
      = { x.scene hand with history := x.history ++ [e] } := by
    intro x e
    cases name <;> rfl
  have hds : env'.dossiers = env.dossiers := congrArg Scene.dossiers he
  have hhist : env'.history = env.history := congrArg Scene.history he
  rw [retain, hname, dossierOf, keep]
  cases hm : p.dossier? with
  | none =>
      show Move home _ { env'.scene hand with history := env'.history ++ [.published none t] }
      rw [he, hhist]
      exact .publish hp
  | some n =>
      show Move home _ { env'.scene hand with
        dossiers := changeIn env'.dossiers n (·.append ⟨t, s⟩)
        history := env'.history ++ [.published ((env'.dossier? n).map (·.member)) t] }
      -- without a dossier of that number the registration is filed nowhere
      cases hd : env'.dossier? n with
      | none =>
          rw [changeIn_of_notMem (notMem_of_dossier? hd), hhist, he, hds]
          exact .publish hp
      | some d =>
          obtain ⟨hmem, hdn⟩ := mem_of_dossier? hd
          have hn : n ∈ env.dossiers.map (·.member) := by
            rw [← hds, ← hdn]
            exact List.mem_map_of_mem hmem
          rw [Option.map_some, hdn, hhist, he, hds]
          exact .record (r := ⟨t, s⟩) hp hs hn

theorem publishInterface_moves {s : Service} {name : Option String} :
    Moves home (env.scene hand) ((env.publishInterface p s name).2.scene hand) := by
  rw [publishInterface]
  cases hr : env.broker.interfaces.register s.contract (env.ownerName p) env.services.length with
  | error e => exact .refl
  | ok r =>
      refine .single (retain_move ?_ ?_ ?_)
      · unfold announce
        split <;> exact .interface hr
      · unfold announce
        split <;> exact Broker.register_serves hr
      · unfold announce
        split <;> rfl

theorem publishAdvisor_moves {s : Service} {priority : Int} {name : Option String} :
    Moves home (env.scene hand) ((env.publishAdvisor p s priority name).2.scene hand) := by
  rw [publishAdvisor]
  refine .single (retain_move ?_ ?_ ?_)
  · unfold announce
    split <;> exact .advisor _ _ _ _
  · unfold announce
    split <;> exact Broker.register_advisor_serves
  · unfold announce
    split <;> rfl

theorem withdraw_moves {name : String} :
    Moves home (env.scene hand) ((env.withdraw p name).2.scene hand) := by
  rw [withdraw]
  cases ht : Keyed.get? env.tickets name with
  | none => exact .refl
  | some t =>
      cases hw : env.broker.withdraw t with
      | error e =>
          simp only [withdrawTicket, hw, Except.map]
          exact .refl
      | ok b =>
          simp only [withdrawTicket, hw, Except.map, forget]
          cases p.dossier? with
          | none => exact .single (.withdraw hw)
          | some n => exact .single (.forget hw)

/-! ## Actions and hooks -/

theorem answerInside_scene (request : LifecycleCall) :
    (env.answerInside request).2.scene hand = env.scene hand := by
  unfold answerInside
  split
  · split
    · rfl
    · rw [tryClaim_eq]
      rfl
  all_goals first | rfl | rw [tryClaim_eq]

theorem perform_moves (a : Action) :
    Moves p.home (env.scene hand) ((env.perform p a).2.scene hand) := by
  cases a with
  | publishInterface s name => exact publishInterface_moves
  | publishAdvisor s priority name => exact publishAdvisor_moves
  | withdraw name => exact withdraw_moves
  | lease k slot => exact lease_moves
  | panel k slot => exact panel_moves
  | release slot => exact release_moves
  | drop slot => exact drop_moves
  | award k => exact award_moves
  | banner => exact banner_moves
  | filter text => exact filter_moves
  | draw requests => exact draw_moves
  | keepDossier name =>
      show Moves _ _ ((env.keepDossier p name).2.scene hand)
      rw [keepDossier]
      cases env.dossierOf p <;> exact .refl
  | call request =>
      show Moves _ _ ((env.answerInside request).2.scene hand)
      rw [answerInside_scene]
  | _ => exact .refl

theorem carryOut_moves {n : Nat} (d : Deed) :
    Moves (.member n) (env.scene hand) ((carryOut n env d).2.scene hand) := by
  cases d with
  | through name a =>
      rw [carryOut]
      cases Keyed.get? env.kept name with
      | none => exact .refl
      | some m => exact perform_moves (p := ⟨.member n, .dossier m⟩) a
  | direct owner a => exact perform_moves (p := ⟨.member n, .owner owner⟩) a
  | dropService ticket => exact .refl
  | dropDossier name => exact .refl

theorem carryOutAll_moves {n : Nat} {ds : List Deed} :
    Moves (.member n) (env.scene hand) ((carryOutAll n env ds).scene hand) := by
  induction ds generalizing env with
  | nil => exact .refl
  | cons d ds ih => exact (carryOut_moves d).trans ih

/-- A hook is a sequence of moves, whatever it does. -/
theorem run_moves {who : Actor} {hook : Hook} (b : Behaviour) :
    Moves (.member who.member) (env.scene hand) ((run who hook b env).2.scene hand) := by
  induction b generalizing env with
  | finish ending => exact .refl
  | mention action reply next ih =>
      show Moves _ ((env.note (.did who hook action reply)).scene hand) _
      exact ih
  | perform action next ih => exact (perform_moves (p := .member who.member) action).trans (ih _)
  | carryOut deed next ih => exact (carryOut_moves deed).trans (ih _)

theorem runHook_moves {who : Actor} {hooks : Hooks} {hook : Hook} :
    Moves (.member who.member) (env.scene hand) ((env.runHook who hooks hook).2.scene hand) :=
  @run_moves ((env.note (.began who hook)).mark (.began who hook)) hand who hook (hooks.of hook)

end Environment

end Backplane
