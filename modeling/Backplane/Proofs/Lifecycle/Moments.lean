import Backplane.Proofs.Lifecycle.Incidents
import Backplane.Proofs.Lifecycle.Passages
/-!
# `Backplane.Proofs.Lifecycle.Moments`: operations, moment by moment

What goes on in an operation of the lifecycle is looked at in moments:

    act      somebody acts, in whatever capacity
    rest     a hook has come to its end
    retire   the registrations of an instance are about to be hidden
    remove   they are about to be removed

Between two moments the lifecycle only keeps its books: it reports, numbers instances, opens and
closes dossiers and gives references back.  So what every moment preserves, and the bookkeeping, is
there at every moment of every operation.

Operations are those of the `ModuleLoader`; to retire and to remove are `retire_registrations` and
`remove_registrations`.
-/
namespace Backplane

/-- A moment, and the environment in which it comes. -/
inductive Moment
  | act (env : Environment) (p : Party) (a : Action)
  | rest (env : Environment)
  | retire (env : Environment) (who : Actor)
  | remove (env : Environment) (who : Actor)

def Moment.env : Moment → Environment
  | act env _ _ => env
  | rest env => env
  | retire env _ => env
  | remove env _ => env

/-- Whether moments are all that happens between two environments, but for the bookkeeping. -/
inductive Unfolds : Environment → List Moment → Environment → Prop
  | refl (e : Environment) : Unfolds e [] e
  | trans {e e' e'' : Environment} {xs ys : List Moment} (h : Unfolds e xs e')
      (h' : Unfolds e' ys e'') : Unfolds e (xs ++ ys) e''
  | act {e : Environment} {p : Party} (a : Action)
      (hhome : ∀ n, p.home = .member n → n < e.nextMember) :
      Unfolds e [.act e p a] (e.perform p a).2
  | rest (e : Environment) : Unfolds e [.rest e] e
  | retire {e : Environment} {who : Actor} (h : (e.retireRegistrations who).1 = none) :
      Unfolds e [.retire e who] (e.retireRegistrations who).2
  /-- What has been retired is restored, because of one registration that is in use. -/
  | refuse {e e₁ e' : Environment} {xs : List Moment} {who : Actor} (h : Unfolds e xs e₁)
      (hbusy : (e₁.retireRegistrations who).1 ≠ none) (hscene : e'.scene [] = e.scene [])
      (hturns : e'.turns = e.turns) (hservices : e'.services = e.services) :
      Unfolds e (xs ++ [.retire e₁ who]) e'
  | remove {e e' : Environment} {who : Actor}
      (hscene : e'.scene [] = (e.scene []).cleared who.member (e.ticketsOf who.member))
      (hturns : e'.turns = e.turns) (hservices : e'.services = e.services) :
      Unfolds e [.remove e who] e'
  | emptySlots (e : Environment) (n : Nat) : Unfolds e [] (e.emptySlots n)
  | detach (e : Environment) (m : Member) : Unfolds e [] (m.detach e)
  | begin (e : Environment) (p : PlannedModule) : Unfolds e [] (p.begin e).2
  /-- An instance has been built, and gets its dossier. -/
  | join {e : Environment} {who : Actor} (needs : List String) (quiet : Bool)
      (hnew : who.member ∉ e.dossiers.map (·.member)) (hlt : who.member < e.nextMember) :
      Unfolds e [] ((e.mark (.built who needs)).openDossier who quiet)
  /-- Nothing happens but reports, and turns by which nobody is built. -/
  | same {e e' : Environment} (hscene : e'.scene [] = e.scene [])
      (hservices : e'.services = e.services)
      (hbuilt : ∀ who needs, .built who needs ∈ e'.turns → .built who needs ∈ e.turns) :
      Unfolds e [] e'
  /-- Modules are claimed, and the claims are given back when all is over. -/
  | claimed {e e' : Environment} {xs : List Moment} {claims : List String} (hsub : e.claims ⊆ claims)
      (h : Unfolds { e with claims } xs e') : Unfolds e xs { e' with claims := e.claims }

/-- A sound environment, whatever is hidden. -/
def Environment.Stands (e : Environment) : Prop := ∃ gone, e.Sound gone

theorem Environment.Stands.withClaims {e : Environment} (h : e.Stands) (claims : List String) :
    Environment.Stands { e with claims } :=
  h.imp fun _ hs => hs.withClaims claims

variable {e e' e'' : Environment} {xs : List Moment} {m : Member} {who : Actor} {n : Nat}

namespace Unfolds

theorem andThen (h : Unfolds e xs e') (h' : Unfolds e' [] e'') : Unfolds e xs e'' := by
  have hall := h.trans h'
  rwa [List.append_nil] at hall

theorem report {level : Level} {origin : Origin} {text : String} :
    Unfolds e [] (e.report level origin text) :=
  .same rfl rfl fun _ _ h => h

theorem nextMember_le (h : Unfolds e xs e') : e.nextMember ≤ e'.nextMember := by
  induction h with
  | refl e | rest e | detach e m | join needs quiet hnew hlt => exact Nat.le_refl _
  | trans _ _ ih ih' => exact Nat.le_trans ih ih'
  | act a => exact Nat.le_of_eq (Prod.mk.inj (Environment.perform_annals a)).2.symm
  | retire h => exact Nat.le_of_eq (Prod.mk.inj Environment.retireAll_annals).2.symm
  | refuse _ _ hscene _ _ _ => exact Nat.le_of_eq (congrArg Scene.nextMember hscene).symm
  | remove hscene => exact Nat.le_of_eq (congrArg Scene.nextMember hscene).symm
  | emptySlots e n => exact Nat.le_of_eq (Prod.mk.inj Environment.emptySlots_annals).2.symm
  | begin e p => exact Nat.le_succ _
  | same hscene => exact Nat.le_of_eq (congrArg Scene.nextMember hscene).symm
  | claimed _ _ ih => exact ih

/-- Whatever is claimed stays claimed at every moment, and afterwards the claims are what they
were. -/
theorem claims (h : Unfolds e xs e') : (∀ x ∈ xs, e.claims ⊆ x.env.claims) ∧ e'.claims = e.claims := by
  have hnone : ∀ {e : Environment}, ∀ x ∈ ([] : List Moment), e.claims ⊆ x.env.claims := by simp
  have hone : ∀ {y : Moment}, ∀ x ∈ [y], y.env.claims ⊆ x.env.claims := by simp
  induction h with
  | refl e | detach e m | begin e p | join needs quiet hnew hlt => exact ⟨hnone, rfl⟩
  | trans _ _ ih ih' =>
      obtain ⟨hxs, hmid⟩ := ih
      obtain ⟨hys, hlast⟩ := ih'
      exact ⟨List.forall_mem_append.mpr ⟨hxs, hmid ▸ hys⟩, hlast.trans hmid⟩
  | act a => exact ⟨hone, Environment.inert_claims.perform a⟩
  | rest e => exact ⟨hone, rfl⟩
  | retire h => exact ⟨hone, Environment.inert_claims.toDetached.retireAll⟩
  | refuse _ _ hscene _ _ ih =>
      obtain ⟨hxs, hmid⟩ := ih
      exact ⟨List.forall_mem_append.mpr ⟨hxs, hmid ▸ hone⟩, congrArg Scene.claims hscene⟩
  | remove hscene => exact ⟨hone, congrArg Scene.claims hscene⟩
  | emptySlots e n => exact ⟨hnone, Environment.inert_claims.emptySlots⟩
  | same hscene => exact ⟨hnone, congrArg Scene.claims hscene⟩
  | claimed hsub _ ih => exact ⟨fun x hx => List.Subset.trans hsub (ih.1 x hx), rfl⟩

/-- Whatever happens, a sound environment is sound at every moment, and afterwards. -/
theorem stands (h : Unfolds e xs e') (he : e.Stands) : (∀ x ∈ xs, x.env.Stands) ∧ e'.Stands := by
  induction h with
  | refl e => exact ⟨List.forall_mem_nil _, he⟩
  | trans _ _ ih ih' =>
      obtain ⟨hxs, hmid⟩ := ih he
      obtain ⟨hys, hlast⟩ := ih' hmid
      exact ⟨List.forall_mem_append.mpr ⟨hxs, hys⟩, hlast⟩
  | @act e p a hhome =>
      obtain ⟨gone, hs⟩ := he
      exact ⟨List.forall_mem_singleton.mpr ⟨gone, hs⟩, gone,
        (hs.moves (Environment.perform_moves a) hhome).1⟩
  | rest e => exact ⟨List.forall_mem_singleton.mpr he, he⟩
  | retire h =>
      obtain ⟨gone, hs⟩ := he
      exact ⟨List.forall_mem_singleton.mpr ⟨gone, hs⟩, _, (hs.retire h).1⟩
  | refuse _ hbusy hscene _ _ ih =>
      obtain ⟨hxs, hmid⟩ := ih he
      obtain ⟨gone, hs⟩ := he
      refine ⟨List.forall_mem_append.mpr ⟨hxs, ?_⟩, gone, hs.same hscene⟩
      exact List.forall_mem_singleton.mpr hmid
  | remove hscene =>
      obtain ⟨gone, hs⟩ := he
      refine ⟨List.forall_mem_singleton.mpr ⟨gone, hs⟩, gone, ?_⟩
      rw [Environment.Sound, hscene]
      exact Scene.Sound.cleared hs fun t => hs.mem_ticketsOf
  | emptySlots e n =>
      obtain ⟨gone, hs⟩ := he
      have hmoves : Moves .shared (e.scene []) ((e.emptySlots n).scene []) :=
        Environment.emptySlots_moves
      exact ⟨List.forall_mem_nil _, gone, (hs.moves hmoves (by simp)).1⟩
  | detach e m =>
      obtain ⟨gone, hs⟩ := he
      exact ⟨List.forall_mem_nil _, gone, ((Course.refl (p := fun _ => False) hs).detach).sound⟩
  | begin e p =>
      obtain ⟨gone, hs⟩ := he
      exact ⟨List.forall_mem_nil _, gone, hs.renumber⟩
  | join needs quiet hnew hlt =>
      obtain ⟨gone, hs⟩ := he
      exact ⟨List.forall_mem_nil _, gone, hs.opened rfl hnew hlt⟩
  | same hscene =>
      obtain ⟨gone, hs⟩ := he
      exact ⟨List.forall_mem_nil _, gone, hs.same hscene⟩
  | claimed _ _ ih =>
      obtain ⟨hxs, hlast⟩ := ih (he.withClaims _)
      exact ⟨hxs, hlast.withClaims _⟩

end Unfolds

end Backplane
