import Backplane.Proofs.Lifecycle.Moments
import Backplane.Proofs.Registry.Rosters
/-!
# `Backplane.Proofs.Lifecycle.Records`: dossiers and registries agree

A record stays in a dossier until it is withdrawn through that very dossier, or removed with all
others.  So as long as everybody withdraws through the dossier that he published through, every
record names a registration that is present and that the dossier's module owns.  This is what an
upright environment is, and every moment preserves it at which somebody withdraws only his own.

A dossier is a `ModuleContext`, a record its `Registration`.
-/
namespace Backplane

variable {e e' : Environment} {gone : List Ticket} {t : Ticket} {n : Nat} {who : Actor}
  {xs : List Moment}

/-! ## Withdrawing one's own -/

def Episode.makerOf? (t : Ticket) : Episode → Option Nat
  | .published o x => if x = t then o else none
  | _ => none

/-- The instances through whose dossiers a ticket has been issued. -/
def makersOf (t : Ticket) (history : List Episode) : List Nat :=
  history.filterMap (Episode.makerOf? t)

theorem mem_makersOf {history : List Episode} :
    n ∈ makersOf t history ↔ .published (some n) t ∈ history := by
  simp only [makersOf, List.mem_filterMap]
  constructor
  · rintro ⟨x | x | x, hx, heq⟩
    · simp only [Episode.makerOf?, Option.ite_none_right_eq_some] at heq
      obtain ⟨rfl, rfl⟩ := heq
      exact hx
    · simp [Episode.makerOf?] at heq
    · simp [Episode.makerOf?] at heq
  · exact fun h => ⟨_, h, by simp [Episode.makerOf?]⟩

/-- The ticket whose registration an action takes out by withdrawing it, if it does. -/
def Environment.takenOut (e : Environment) : Action → Option Ticket
  | .withdraw name => (Keyed.get? e.tickets name).filter fun t => (e.broker.withdraw t).isOk
  | _ => none

/-- Whether what is withdrawn at a moment, if anything is, was not published through the dossier of
another instance than that which it is withdrawn through. -/
def Moment.Own : Moment → Prop
  | act env p a => ∀ t ∈ env.takenOut a, ∀ n ∈ makersOf t env.history, p.dossier? = some n
  | _ => True

instance : ∀ x : Moment, Decidable x.Own
  | .act env p a =>
    inferInstanceAs (Decidable (∀ t ∈ env.takenOut a, ∀ n ∈ makersOf t env.history,
      p.dossier? = some n))
  | .rest _ => isTrue trivial
  | .retire _ _ => isTrue trivial
  | .remove _ _ => isTrue trivial

/-! ## Upright environments -/

/-- One ticket more, if it is new, makes no ticket come twice. -/
theorem nodup_publishedBy {history : List Episode} {o : Option Nat}
    (h : ∀ n, (publishedBy n history).Nodup) (hnew : ∀ d, .published d t ∉ history) (n : Nat) :
    (publishedBy n (history ++ [.published o t])).Nodup := by
  by_cases ho : o = some n
  · rw [ho, publishedBy_append, publishedBy_singleton, ← List.concat_eq_append]
    exact (h n).concat fun hin => hnew _ (mem_publishedBy.mp hin)
  · rw [publishedBy_append_of_ne ho]
    exact h n

/-- Whose dossier it is, by number and by name. -/
def Dossier.bearer (d : Dossier) : Nat × String := (d.member, d.module)

/-- Whether every record names something present that belongs to its module. -/
structure Environment.Upright (e : Environment) : Prop where
  owned : ∀ d ∈ e.dossiers, ∀ t ∈ d.tickets, e.broker.ownerOf t = some d.module
  /-- Nothing is published twice. -/
  once : ∀ n, (publishedBy n e.history).Nodup
  /-- Whoever has been built has a dossier of his own. -/
  named : ∀ who needs, .built who needs ∈ e.turns →
    (who.member, who.module) ∈ e.dossiers.map Dossier.bearer

namespace Environment.Upright

/-- Records may go, if those that are left name what they named. -/
theorem carry (hu : e.Upright) (hbearers : e'.dossiers.map Dossier.bearer = e.dossiers.map Dossier.bearer)
    (hless : ∀ d' ∈ e'.dossiers, ∃ d ∈ e.dossiers, d'.module = d.module ∧ ∀ t ∈ d'.tickets,
      t ∈ d.tickets ∧ ∀ o, e.broker.ownerOf t = some o → e'.broker.ownerOf t = some o)
    (hpub : ∀ n, publishedBy n e'.history = publishedBy n e.history)
    (hbuilt : ∀ who needs, .built who needs ∈ e'.turns → .built who needs ∈ e.turns) :
    e'.Upright where
  owned := fun d' hd' t ht => by
    obtain ⟨d, hd, hm, hkeep⟩ := hless d' hd'
    obtain ⟨hin, howner⟩ := hkeep t ht
    rw [hm]
    exact howner _ (hu.owned d hd t hin)
  once := fun n => hpub n ▸ hu.once n
  named := fun who needs h => hbearers ▸ hu.named who needs (hbuilt who needs h)

/-- Neither a record nor a registration has changed. -/
theorem unchanged (hu : e.Upright) (hd : e'.dossiers = e.dossiers)
    (ho : ∀ t, e'.broker.ownerOf t = e.broker.ownerOf t) (hh : e'.history = e.history)
    (hbuilt : ∀ who needs, .built who needs ∈ e'.turns → .built who needs ∈ e.turns) :
    e'.Upright :=
  hu.carry (by rw [hd]) (fun d hmem => ⟨d, hd ▸ hmem, rfl, fun t ht => ⟨ht, fun o h => (ho t).trans h⟩⟩)
    (fun n => by rw [hh]) hbuilt

end Environment.Upright

/-! ## What moves change -/

/-- A move by which nothing is published or withdrawn changes no record, and of registrations only
how they are used. -/
theorem Move.quiet {home : SlotHome} {s s' : Scene} (hb : s.Balanced) (hm : Move home s s')
    (hh : s'.history = s.history) :
    s'.dossiers = s.dossiers ∧ ∃ f, s'.broker = s.broker.revise f := by
  have hwf := hb.exact.wellFormed
  cases hm with
  | publish | record | withdraw | forget => simp at hh
  | take ht => exact ⟨rfl, _, ht.eq hwf⟩
  | miss h => exact ⟨rfl, _, (Broker.panel_error hwf h).trans Broker.revise_id.symm⟩
  | giveBack hhand => exact ⟨rfl, _, congrArg Prod.snd (hb.exact_hand hhand).giveBack_eq⟩
  | reorder | stow | fetch | drain => exact ⟨rfl, _, Broker.revise_id.symm⟩

theorem Scene.Sound.quiet {home : SlotHome} {s s' : Scene} (hs : s.Sound gone) (hm : Moves home s s')
    (hhome : ∀ n, home = .member n → n < s.nextMember) (hh : s'.history = s.history) :
    s'.dossiers = s.dossiers ∧ ∃ f, s'.broker = s.broker.revise f := by
  induction hm with
  | refl => exact ⟨rfl, _, Broker.revise_id.symm⟩
  | @tail s₁ s₂ hms hm ih =>
      obtain ⟨hmid, hleads⟩ := hs.moves hms hhome
      obtain ⟨news, hnews, -⟩ := hleads.history
      obtain ⟨more, hmore, -⟩ := (hmid.balanced.leads hm).history
      -- the history only grows, so it has not grown in between
      have hnone : news ++ more = [] := by
        rw [hnews, List.append_assoc] at hmore
        exact List.append_right_eq_self.mp (hmore.symm.trans hh)
      obtain ⟨rfl, rfl⟩ := List.append_eq_nil_iff.mp hnone
      rw [List.append_nil] at hnews hmore
      obtain ⟨hd, f, hf⟩ := ih hnews
      obtain ⟨hd', g, hg⟩ := hm.quiet hmid.balanced hmore
      exact ⟨hd'.trans hd, _, by rw [hg, hf, Broker.revise_revise]⟩

namespace Environment

variable {p : Party} {a : Action}

/-- The record of what a party publishes goes into the dossier that it acts through. -/
theorem retain_dossiers {name : Option String} {s : ServiceId} : (e.retain p name t s).dossiers =
    p.dossier?.elim e.dossiers fun n => changeIn e.dossiers n (·.append ⟨t, s⟩) := by
  rw [retain, keep]
  cases p.dossier? <;> cases name <;> rfl

theorem retain_broker {name : Option String} {s : ServiceId} : (e.retain p name t s).broker = e.broker := by
  rw [retain, keep]
  cases p.dossier? <;> cases name <;> rfl

/-- Who publishes through a dossier does so under the name of its module. -/
theorem Sound.ownerName_eq {d : Dossier} (hs : e.Sound gone) (hd : d ∈ e.dossiers)
    (hp : p.dossier? = some d.member) : e.ownerName p = d.module := by
  rcases p with ⟨home, owner | n⟩
  · simp [Party.dossier?] at hp
  · obtain rfl : n = d.member := Option.some.inj hp
    simp only [ownerName, dossier?_of_mem hs.chronicled.members hd, Option.elim_some]

namespace Upright

theorem moves {home : SlotHome} (hu : e.Upright) (hs : e.Sound gone)
    (hm : Moves home (e.scene []) (e'.scene []))
    (hhome : ∀ n, home = .member n → n < e.nextMember) (hh : e'.history = e.history)
    (ht : e'.turns = e.turns) : e'.Upright := by
  obtain ⟨hd, f, hf⟩ := Scene.Sound.quiet hs hm hhome hh
  have ho : ∀ t, e'.broker.ownerOf t = e.broker.ownerOf t := fun t =>
    (congrArg (·.ownerOf t) hf).trans hs.wellFormed.ownerOf_revise
  exact hu.unchanged hd ho hh fun _ _ h => ht ▸ h

/-- What is published belongs to whoever publishes it, and is new. -/
theorem retain {x : Listing} {name : Option String} {s : ServiceId} (hu : e.Upright)
    (hs : e.Sound gone) (ha : e.broker.Alters [x] [] e'.broker) (hx : x.owner = e.ownerName p)
    (he : e'.scene [] = { e.scene [] with broker := e'.broker }) (ht : e'.turns = e.turns) :
    (e'.retain p name x.ticket s).Upright where
  owned := by
    have hd : e'.dossiers = e.dossiers := congrArg Scene.dossiers he
    have hold : ∀ d ∈ e.dossiers, ∀ t ∈ d.tickets, e'.broker.ownerOf t = some d.module :=
      fun d hmem t ht => ha.ownerOf hs.wellFormed (hu.owned d hmem t ht) (by simp)
    rw [retain_dossiers, retain_broker, hd]
    intro d' hd'
    cases hp : p.dossier? with
    | none =>
        rw [hp] at hd'
        exact hold d' hd'
    | some n =>
        rw [hp] at hd'
        obtain ⟨d, hmem, ⟨hn, rfl⟩ | ⟨-, rfl⟩⟩ := mem_changeIn hd'
        · intro t ht
          rw [Dossier.tickets_append] at ht
          rcases List.mem_append.mp ht with ht | ht
          · exact hold d hmem t ht
          · have howner : x.owner = d.module := hx.trans (hs.ownerName_eq hmem (hn ▸ hp))
            rw [List.mem_singleton.mp ht, ha.ownerOf_made hs.wellFormed (List.mem_singleton_self x)
              (by simp), howner]
            rfl
        · exact hold d' hmem
  once := by
    have hnew := (hs.chronicled.fresh (Nat.le_of_eq (ha.serial (List.mem_singleton_self x)).1)).1
    rw [retain_history, show e'.history = e.history from congrArg Scene.history he]
    exact nodup_publishedBy hu.once hnew
  named := by
    have hbearers : (e'.retain p name x.ticket s).dossiers.map Dossier.bearer =
        e.dossiers.map Dossier.bearer := by
      rw [retain_dossiers, show e'.dossiers = e.dossiers from congrArg Scene.dossiers he]
      cases p.dossier? with
      | none => rfl
      | some n => exact map_changeIn fun _ => rfl
    have hturns : (e'.retain p name x.ticket s).turns = e.turns := by
      rw [← ht]
      exact congrArg Prod.fst inert_annals.retain
    rw [hbearers, hturns]
    exact hu.named

theorem publishInterface {s : Service} {name : Option String} (hu : e.Upright) (hs : e.Sound gone) :
    (e.publishInterface p s name).2.Upright := by
  rw [Environment.publishInterface]
  cases hr : e.broker.interfaces.register s.contract (e.ownerName p) e.services.length with
  | error err => exact hu
  | ok r =>
      let x : Listing := .interface
        { rank := (), serial := r.1, contract := s.contract, owner := e.ownerName p
          service := e.services.length }
      refine retain (x := x) hu hs ?_ rfl ?_ ?_
      · unfold announce
        split <;> exact .interface hr
      all_goals
        unfold announce
        split <;> rfl

theorem publishAdvisor {s : Service} {priority : Int} {name : Option String} (hu : e.Upright)
    (hs : e.Sound gone) : (e.publishAdvisor p s priority name).2.Upright := by
  rw [Environment.publishAdvisor]
  let x : Listing := .advisor
    { rank := priority
      serial := (e.broker.advisors.register s.contract (e.ownerName p) priority e.services.length).1
      contract := s.contract, owner := e.ownerName p, service := e.services.length }
  refine retain (x := x) hu hs ?_ rfl ?_ ?_
  · unfold announce
    split <;> exact .advisor _ _ _ _
  all_goals
    unfold announce
    split <;> rfl

/-- What is withdrawn through the dossier that it was published through leaves no record behind. -/
theorem withdraw {name : String} (hu : e.Upright) (hs : e.Sound gone)
    (hown : (Moment.act e p (.withdraw name)).Own) : (e.withdraw p name).2.Upright := by
  rw [Environment.withdraw]
  cases hname : Keyed.get? e.tickets name with
  | none => exact hu
  | some t =>
      cases hw : e.broker.withdraw t with
      | error err =>
          simp only [withdrawTicket, hw, Except.map]
          exact hu
      | ok b =>
          have hmine : ∀ d ∈ e.dossiers, t ∈ d.tickets → p.dossier? = some d.member := by
            intro d hd ht
            have hout : e.takenOut (.withdraw name) = some t := by
              simp [takenOut, hname, hw, Except.isOk, Except.toBool]
            exact hown t hout d.member
              (mem_makersOf.mpr (hs.chronicled.source d.member t ⟨d, hd, rfl, ht⟩))
          obtain rfl := Broker.forceRemove_of_withdraw hw
          have hkept : ∀ x o, x ≠ t → e.broker.ownerOf x = some o →
              (e.broker.forceRemove t).2.ownerOf x = some o :=
            fun x o hx ho => (Broker.Alters.remove t).ownerOf hs.wellFormed ho (by simpa using hx)
          have hpub : ∀ n, publishedBy n (e.history ++ [.withdrawn t]) = publishedBy n e.history :=
            fun n => publishedBy_append_of_notMem (by simp)
          simp only [withdrawTicket, hw, Except.map, forget]
          cases hp : p.dossier? with
          | none =>
              refine hu.carry rfl (fun d hd => ⟨d, hd, rfl, fun x hx => ⟨hx, fun o => ?_⟩⟩) hpub
                fun _ _ h => h
              refine hkept x o fun heq => ?_
              simpa [hp] using hmine d hd (heq ▸ hx)
          | some n =>
              refine hu.carry (map_changeIn fun _ => rfl) (fun d' hd' => ?_) hpub fun _ _ h => h
              obtain ⟨d, hd, ⟨-, rfl⟩ | ⟨hn, rfl⟩⟩ := mem_changeIn hd'
              · refine ⟨d, hd, rfl, fun x hx => ?_⟩
                obtain ⟨r, hr, rfl⟩ := List.mem_map.mp hx
                obtain ⟨hin, hne⟩ := List.mem_filter.mp hr
                exact ⟨List.mem_map_of_mem hin, fun o => hkept _ o (by simpa using hne)⟩
              · refine ⟨d', hd, rfl, fun x hx => ⟨hx, fun o => hkept x o fun heq => hn ?_⟩⟩
                exact Option.some.inj ((hmine d' hd (heq ▸ hx)).symm.trans hp)

/-- Whatever somebody does, as long as he withdraws only his own. -/
theorem perform (hu : e.Upright) (hs : e.Sound gone)
    (hhome : ∀ n, p.home = .member n → n < e.nextMember) (hown : (Moment.act e p a).Own) :
    (e.perform p a).2.Upright := by
  rcases @perform_history e p a with
    ⟨s, name, rfl⟩ | ⟨s, priority, name, rfl⟩ | ⟨name, rfl⟩ | hsame
  · exact hu.publishInterface hs
  · exact hu.publishAdvisor hs
  · exact hu.withdraw hs hown
  · exact hu.moves hs (perform_moves a) hhome hsame (congrArg Prod.fst (perform_annals a))

/-! ## The lifecycle -/

/-- When the registrations of an instance are removed, so are its records. -/
theorem cleared (hu : e.Upright) (hs : e.Sound gone)
    (hscene : e'.scene [] = (e.scene []).cleared n (e.ticketsOf n)) (ht : e'.turns = e.turns) :
    e'.Upright := by
  have hds : e'.dossiers = changeIn e.dossiers n fun d => { d with records := [] } :=
    congrArg Scene.dossiers hscene
  have hb : e'.broker = e.broker.removeAll (e.ticketsOf n).reverse := congrArg Scene.broker hscene
  have hh : e'.history = e.history ++ (e.ticketsOf n).map .removed := congrArg Scene.history hscene
  refine hu.carry ?_ (fun d' hd' => ?_) (fun k => ?_) fun _ _ h => ht ▸ h
  · rw [hds]
    exact map_changeIn fun _ => rfl
  · rw [hds] at hd'
    obtain ⟨d, hd, ⟨-, rfl⟩ | ⟨hn, rfl⟩⟩ := mem_changeIn hd'
    · exact ⟨d, hd, rfl, fun t ht => by simp [Dossier.tickets] at ht⟩
    · refine ⟨d', hd, rfl, fun t ht => ⟨ht, fun o ho => ?_⟩⟩
      rw [hb]
      refine Broker.ownerOf_removeAll hs.wellFormed ho fun hin => hn ?_
      -- it was published once only, so no two dossiers have a record of it
      have hfiled := hs.mem_ticketsOf.mp (List.mem_reverse.mp hin)
      exact Option.some.inj (hs.chronicled.once _ _ t
        (hs.chronicled.source _ t ⟨d', hd, rfl, ht⟩) (hs.chronicled.source _ t hfiled))
  · rw [hh, publishedBy_append_of_notMem (by simp)]

theorem openDossier {needs : List String} {quiet : Bool} (hu : e.Upright) :
    ((e.mark (.built who needs)).openDossier who quiet).Upright where
  owned := fun d hd t ht => by
    rcases List.mem_append.mp hd with hd | hd
    · exact hu.owned d hd t ht
    · rw [List.mem_singleton.mp hd] at ht
      simp [Dossier.tickets] at ht
  once := hu.once
  named := fun x ns h => by
    have hds : ((e.mark (.built who needs)).openDossier who quiet).dossiers.map Dossier.bearer =
        e.dossiers.map Dossier.bearer ++ [(who.member, who.module)] :=
      List.map_append
    rw [hds]
    rcases List.mem_append.mp h with h | h
    · exact List.mem_append_left _ (hu.named x ns h)
    · obtain ⟨rfl, -⟩ := Turn.built.inj (List.mem_singleton.mp h)
      exact List.mem_append_right _ (List.mem_singleton_self _)

theorem withClaims (hu : e.Upright) (claims : List String) : Upright { e with claims } :=
  hu.unchanged rfl (fun _ => rfl) rfl fun _ _ h => h

end Upright

end Environment

/-- As long as everybody withdraws only his own, every moment finds records right. -/
theorem Unfolds.upright (h : Unfolds e xs e') (he : e.Stands) (hu : e.Upright) :
    Stepwise (fun before x => (∀ y ∈ before, y.Own) → x.env.Upright) xs ∧
      ((∀ x ∈ xs, x.Own) → e'.Upright) := by
  induction h with
  | refl e => exact ⟨.nil, fun _ => hu⟩
  | @trans e e' e'' xs ys h h' ih ih' =>
      obtain ⟨hxs, hmid⟩ := ih he hu
      have hrest := fun hown => ih' (h.stands he).2 (hmid hown)
      refine ⟨Stepwise.append_iff.mpr ⟨hxs, fun before x after heq hown => ?_⟩, fun hown => ?_⟩
      · obtain ⟨hfirst, hthen⟩ := List.forall_mem_append.mp hown
        exact (hrest hfirst).1 before x after heq hthen
      · obtain ⟨hfirst, hthen⟩ := List.forall_mem_append.mp hown
        exact (hrest hfirst).2 hthen
  | act a hhome =>
      obtain ⟨gone, hs⟩ := he
      exact ⟨Stepwise.singleton_iff.mpr fun _ => hu, fun hown =>
        hu.perform hs hhome (List.forall_mem_singleton.mp hown)⟩
  | rest e => exact ⟨Stepwise.singleton_iff.mpr fun _ => hu, fun _ => hu⟩
  | retire h =>
      obtain ⟨gone, hs⟩ := he
      obtain ⟨-, b, log, hb, heq⟩ := hs.retire h
      refine ⟨Stepwise.singleton_iff.mpr fun _ => hu, fun _ => ?_⟩
      rw [heq]
      obtain ⟨f, rfl⟩ := hb.recast
      exact hu.unchanged rfl (fun _ => hs.wellFormed.ownerOf_revise) rfl fun _ _ h => h
  | refuse h hbusy hscene hturns _ ih =>
      obtain ⟨hxs, hmid⟩ := ih he hu
      refine ⟨Stepwise.append_singleton hxs hmid, fun _ => ?_⟩
      have hb := congrArg Scene.broker hscene
      exact hu.unchanged (congrArg Scene.dossiers hscene) (fun t => congrArg (·.ownerOf t) hb)
        (congrArg Scene.history hscene) fun _ _ h => hturns ▸ h
  | remove hscene hturns _ =>
      obtain ⟨gone, hs⟩ := he
      exact ⟨Stepwise.singleton_iff.mpr fun _ => hu, fun _ => hu.cleared hs hscene hturns⟩
  | emptySlots e n =>
      obtain ⟨gone, hs⟩ := he
      have hmoves : Moves .shared (e.scene []) ((e.emptySlots n).scene []) :=
        Environment.emptySlots_moves
      exact ⟨.nil, fun _ => hu.moves hs hmoves (by simp) Environment.remote_history.emptySlots
        (congrArg Prod.fst Environment.emptySlots_annals)⟩
  | detach e m =>
      refine ⟨.nil, fun _ => hu.carry (map_changeIn fun _ => rfl) (fun d' hd' => ?_) (fun _ => rfl)
        fun _ _ h => h⟩
      obtain ⟨d, hd, rfl⟩ := List.mem_map.mp hd'
      refine ⟨d, hd, ?_⟩
      split <;> exact ⟨rfl, fun t ht => ⟨ht, fun _ h => h⟩⟩
  | begin e p => exact ⟨.nil, fun _ => hu.unchanged rfl (fun _ => rfl) rfl fun _ _ h => h⟩
  | join needs quiet hnew hlt => exact ⟨.nil, fun _ => hu.openDossier⟩
  | same hscene _ hbuilt =>
      have hb := congrArg Scene.broker hscene
      exact ⟨.nil, fun _ => hu.unchanged (congrArg Scene.dossiers hscene)
        (fun t => congrArg (·.ownerOf t) hb) (congrArg Scene.history hscene) hbuilt⟩
  | claimed _ _ ih =>
      obtain ⟨hxs, hlast⟩ := ih (he.withClaims _) (hu.withClaims _)
      exact ⟨hxs, fun hown => (hlast hown).withClaims _⟩

end Backplane
