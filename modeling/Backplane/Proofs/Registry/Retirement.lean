import Backplane.Proofs.Registry.Accounting
import Backplane.Proofs.Registry.Services
/-!
# `Backplane.Proofs.Registry.Retirement`: hiding registrations, and undoing it

What retiring does to a broker is that some registrations without references are hidden.  A broker
is compared with what it was when nothing was hidden: each ticket that is restored takes one out of
those that may differ, and when none is left the broker is the same again, with every count and
every position.

These are `retire` and `restore` of the registries of a `Broker`.
-/
namespace Backplane.Broker

variable {b₀ b b' : Broker} {ts ts' : List Ticket} {t : Ticket} {out : List Hold}

/-- Whether no registration is hidden. -/
def Open (b : Broker) : Prop := ∀ t u, b.usage? t = some u → u.retired = false

/-- What a broker becomes when some of the given tickets are retired: only usages differ, and only
those of tickets that nobody refers to. -/
structure Hides (b₀ : Broker) (ts : List Ticket) (b : Broker) : Prop where
  recast : ∃ f, b = b₀.revise f
  usage? : ∀ t, b.usage? t = b₀.usage? t ∧ b.held? t = b₀.held? t ∨
    t ∈ ts ∧ ∃ u, b₀.usage? t = some u ∧ u.outstanding = 0 ∧ b.usage? t = some u.hide

/-- Revising one usage leaves the others. -/
theorem revise_only_of_ne {g : Usage → Usage} {x : Ticket} (hx : x ≠ t) :
    (b.revise (only [t] g)).usage? x = b.usage? x ∧
    (b.revise (only [t] g)).held? x = b.held? x := by
  rw [usage?_revise, held?_revise]
  constructor
  · cases b.usage? x <;> simp [only, hx]
  · cases b.held? x <;> simp [only, hx]

namespace Hides

theorem refl (b : Broker) : b.Hides [] b where
  recast := ⟨_, revise_id.symm⟩
  usage? := fun _ => Or.inl ⟨rfl, rfl⟩

theorem mono (h : b₀.Hides ts b) (hts : ts ⊆ ts') : b₀.Hides ts' b where
  recast := h.recast
  usage? := fun t => (h.usage? t).imp_right fun hx => ⟨hts hx.1, hx.2⟩

/-- Hiding what is hidden already changes nothing more. -/
theorem trans (h : b₀.Hides ts b) (h' : b.Hides ts' b') : b₀.Hides (ts ++ ts') b' where
  recast := by
    obtain ⟨f, rfl⟩ := h.recast
    obtain ⟨g, rfl⟩ := h'.recast
    exact ⟨_, revise_revise⟩
  usage? := fun t => by
    rcases h'.usage? t with ⟨hu, hheld⟩ | ⟨ht, u, hu, ho, hu'⟩
    · rw [hu, hheld]
      exact (h.usage? t).imp_right fun hx => ⟨List.mem_append_left _ hx.1, hx.2⟩
    · refine Or.inr ⟨List.mem_append_right _ ht, ?_⟩
      rcases h.usage? t with ⟨hsame, -⟩ | ⟨-, v, hv, hvo, hvu⟩
      · exact ⟨u, hsame ▸ hu, ho, hu'⟩
      · obtain rfl : u = v.hide := Option.some.inj (hu.symm.trans hvu)
        exact ⟨v, hv, hvo, hu'⟩

theorem wellFormed (h : b₀.Hides ts b) (hb : b₀.WellFormed) : b.WellFormed := by
  obtain ⟨f, rfl⟩ := h.recast
  exact hb.revise

theorem due (h : b₀.Hides ts b) : b.due t = b₀.due t := by
  obtain ⟨f, rfl⟩ := h.recast
  exact due_revise

theorem departures (h : b₀.Hides ts b) : b.departures = b₀.departures := by
  obtain ⟨f, rfl⟩ := h.recast
  exact departures_revise

theorem thins (h : b₀.Hides ts b) : b₀.Thins b := by
  obtain ⟨f, rfl⟩ := h.recast
  exact .revise

theorem isSome_usage? (h : b₀.Hides ts b) : (b.usage? t).isSome = (b₀.usage? t).isSome := by
  rcases h.usage? t with ⟨hu, -⟩ | ⟨-, u, hu, -, hu'⟩
  · rw [hu]
  · rw [hu, hu']
    rfl

theorem revise_only (h : b₀.Hides ts b) (g : Usage → Usage) :
    ∃ f, b.revise (only [t] g) = b₀.revise f := by
  obtain ⟨f, rfl⟩ := h.recast
  exact ⟨_, revise_revise⟩

theorem retire (h : b₀.Hides ts b) (hb : b₀.WellFormed) (hr : b.retire t = .ok b') :
    b₀.Hides (t :: ts) b' := by
  obtain ⟨u, hu, ho, rfl⟩ := (h.wellFormed hb).retire_ok hr
  refine ⟨h.revise_only _, fun x => ?_⟩
  by_cases hx : x = t
  · subst hx
    have hhide : (b.revise (only [x] Usage.hide)).usage? x = some u.hide := by
      rw [usage?_revise, hu]
      simp [only]
    rcases h.usage? x with ⟨hsame, -⟩ | ⟨-, v, hv, hvo, hvu⟩
    · exact Or.inr ⟨List.mem_cons_self, u, hsame ▸ hu, ho, hhide⟩
    · have huv : u = v.hide := Option.some.inj (hu.symm.trans hvu)
      exact Or.inr ⟨List.mem_cons_self, v, hv, hvo, by rw [hhide, huv]; rfl⟩
  · rw [(revise_only_of_ne hx).1, (revise_only_of_ne hx).2]
    exact (h.usage? x).imp_right fun hh => ⟨List.mem_cons_of_mem _ hh.1, hh.2⟩

/-- Restoring one ticket leaves one less that may differ. -/
theorem restore (h : b₀.Hides (t :: ts) b) (hb : b₀.WellFormed) (hopen : b₀.Open) :
    b₀.Hides ts (b.restore t) := by
  rw [(h.wellFormed hb).restore_eq]
  cases hu : b.usage? t with
  | none =>
      -- the ticket names nothing, so it is not one of those that were hidden
      refine ⟨h.recast, fun x => ?_⟩
      rcases h.usage? x with hx | ⟨hx, v, hv, hvo, hvu⟩
      · exact Or.inl hx
      · refine Or.inr ⟨(List.mem_cons.mp hx).resolve_left fun heq => ?_, v, hv, hvo, hvu⟩
        rw [heq, hu] at hvu
        simp at hvu
  | some u =>
      refine ⟨h.revise_only _, fun x => ?_⟩
      by_cases hx : x = t
      · subst hx
        have husage : (b.revise (only [x] Usage.restore)).usage? x = some u.restore := by
          rw [usage?_revise, hu]
          simp [only]
        have hheld : (b.revise (only [x] Usage.restore)).held? x = some u.restore :=
          held?_of_usage? husage
        -- hidden or not, it is visible again, as everything was at first
        rcases h.usage? x with ⟨hsame, -⟩ | ⟨-, v, hv, -, hvu⟩
        · have hback : u.restore = u := by
            have := hopen x u (hsame ▸ hu)
            simp [Usage.restore, ← this]
          rw [hback] at husage hheld
          exact Or.inl ⟨by rw [husage, ← hsame, hu], by rw [hheld, held?_of_usage? (hsame ▸ hu)]⟩
        · have hback : u.restore = v := by
            have := hopen x v hv
            rw [Option.some.inj (hu.symm.trans hvu)]
            simp [Usage.restore, Usage.hide, ← this]
          rw [hback] at husage hheld
          exact Or.inl ⟨by rw [husage, hv], by rw [hheld, held?_of_usage? hv]⟩
      · rw [(revise_only_of_ne hx).1, (revise_only_of_ne hx).2]
        refine (h.usage? x).imp_right fun hh => ⟨(List.mem_cons.mp hh.1).resolve_left hx, hh.2⟩

theorem restore_foldl (h : b₀.Hides (ts ++ ts') b) (hb : b₀.WellFormed) (hopen : b₀.Open) :
    b₀.Hides ts' (ts.foldl Broker.restore b) := by
  induction ts generalizing b with
  | nil => exact h
  | cons t ts ih => exact ih (h.restore hb hopen)

/-- When nothing is hidden any more the broker is what it was. -/
theorem eq (h : b₀.Hides [] b) (hb : b₀.WellFormed) : b = b₀ := by
  obtain ⟨f, rfl⟩ := h.recast
  refine hb.revise_eq_self fun t => ?_
  rcases h.usage? t with ⟨-, hheld⟩ | ⟨hmem, -⟩
  · exact hheld
  · simp at hmem

end Hides

end Backplane.Broker
