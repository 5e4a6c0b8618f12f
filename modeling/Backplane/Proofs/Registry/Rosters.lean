import Backplane.Proofs.Registry.Listings
/-!
# `Backplane.Proofs.Registry.Rosters`: tickets over whole runs of dealings

Each dealing makes at most one registration and removes at most one; all else it does is to revise
usages.  Serial numbers only go up, so no ticket is issued twice, and one whose registration is gone
names nothing ever after, whoever has its capability since.

A ticket is a `RegistrationToken`.
-/
namespace Backplane

/-! ## What registering does to one registry -/

theorem Interfaces.register_ok {r r' : Interfaces} {k : Contract} {owner : String} {s : ServiceId}
    {n : Nat} (h : r.register k owner s = .ok (n, r')) :
    n = r.nextSerial ∧ r' = { r with
      entries := r.entries ++ [{ rank := (), serial := n, contract := k, owner, service := s }]
      nextSerial := n + 1 } := by
  rw [register] at h
  cases hf : r.find? k.capability with
  | some e => simp [hf] at h
  | none =>
      simp only [hf, Except.ok.injEq, Prod.mk.injEq] at h
      obtain ⟨rfl, rfl⟩ := h
      exact ⟨rfl, rfl⟩

namespace Broker

variable {b b' : Broker} {t : Ticket} {x : Listing} {xs : List Listing} {ts : List Ticket}

/-- What a ticket does not name is not removed. -/
theorem WellFormed.forceRemove_of_none (h : b.WellFormed) (hu : b.usage? t = none) :
    b.forceRemove t = (none, b) := by
  cases t with
  | interface c n =>
      have hp : b.interfaces.present? c n = none := Option.map_eq_none_iff.mp hu
      simp [Broker.forceRemove, Book.forceRemove, hp]
  | advisor c n =>
      have hp : b.advisors.present? c n = none :=
        h.advisors.present?_eq.trans (Option.map_eq_none_iff.mp hu)
      simp [Broker.forceRemove, Advisors.forceRemove, hp]

/-! ## What becomes of a broker -/

/-- What a dealing may make of a broker, with the registrations that it makes and the tickets of
those that it removes. -/
inductive Alters (b : Broker) : List Listing → List Ticket → Broker → Prop
  | interface {k : Contract} {owner : String} {s : ServiceId} {n : Nat} {i : Interfaces}
      (h : b.interfaces.register k owner s = .ok (n, i)) :
      Alters b [.interface { rank := (), serial := n, contract := k, owner, service := s }] []
        { b with interfaces := i }
  | advisor (k : Contract) (owner : String) (priority : Int) (s : ServiceId) :
      Alters b
        [.advisor { rank := priority, serial := (b.advisors.register k owner priority s).1,
                    contract := k, owner, service := s }] []
        { b with advisors := (b.advisors.register k owner priority s).2 }
  | remove (t : Ticket) : Alters b [] [t] (b.forceRemove t).2
  | revise (f : Ticket → Usage → Usage) : Alters b [] [] (b.revise f)

namespace Alters

theorem refl (b : Broker) : b.Alters [] [] b := by
  have h : b.Alters [] [] (b.revise fun _ u => u) := .revise _
  rwa [revise_id] at h

theorem wellFormed (h : b.Alters xs ts b') (hb : b.WellFormed) : b'.WellFormed := by
  cases h with
  | interface h => exact (Publishes.interface h).adds hb |>.wellFormed
  | advisor k owner priority s => exact (Publishes.advisor k owner priority s).adds hb |>.wellFormed
  | remove t => exact hb.forceRemove.wellFormed
  | revise f => exact hb.revise

/-- What is listed afterwards: what was listed and what has been made, less what has been removed. -/
theorem published (h : b.Alters xs ts b') (hb : b.WellFormed) :
    b'.published.Perm ((b.published ++ xs).filter fun x => x.ticket ∉ ts) := by
  cases h with
  | @interface k owner s n i h =>
      obtain ⟨-, rfl⟩ := Interfaces.register_ok h
      simp only [Broker.published, listings, Listing.all, List.map_append, List.map_cons, List.map_nil,
        List.append_assoc, List.not_mem_nil, not_false_eq_true, decide_true, List.filter_true]
      exact List.perm_append_comm.append_left _
  | advisor k owner priority s =>
      have hentries : (b.advisors.register k owner priority s).2.entries.Perm
          (b.advisors.entrant k owner priority s :: b.advisors.entries) :=
        hb.advisors.entries_register
      have hins := hentries.map fun e => (Listing.advisor e).asMade
      simp only [Broker.published, listings, Listing.all, List.map_append, List.map_map,
        List.append_assoc, List.not_mem_nil, not_false_eq_true, decide_true, List.filter_true]
      exact (hins.trans (List.perm_append_singleton _ _).symm).append_left _
  | remove t =>
      rw [hb.published_forceRemove, List.append_nil]
      simp only [List.mem_singleton]
      exact .refl _
  | revise f =>
      rw [published_revise]
      simp

theorem due (h : b.Alters xs ts b') (hb : b.WellFormed) (t : Ticket) : b.due t ≤ b'.due t := by
  cases h with
  | interface h =>
      obtain ⟨rfl, rfl⟩ := Interfaces.register_ok h
      cases t <;> simp [Broker.due]
  | advisor k owner priority s => cases t <;> simp [Broker.due, Advisors.register]
  | remove u => exact Nat.le_of_eq (hb.forceRemove.due t).symm
  | revise f => exact Nat.le_of_eq due_revise.symm

/-- The ticket of what is made is due before, and no longer afterwards. -/
theorem serial (h : b.Alters xs ts b') (hx : x ∈ xs) :
    b.due x.ticket = x.ticket.serial ∧ x.ticket.serial < b'.due x.ticket := by
  cases h with
  | interface h =>
      obtain ⟨rfl, rfl⟩ := Interfaces.register_ok h
      obtain rfl := List.mem_singleton.mp hx
      exact ⟨rfl, Nat.lt_succ_self _⟩
  | advisor k owner priority s =>
      obtain rfl := List.mem_singleton.mp hx
      exact ⟨rfl, Nat.lt_succ_self _⟩
  | remove t => simp at hx
  | revise f => simp at hx

theorem nodup (h : b.Alters xs ts b') : (xs.map Listing.ticket).Nodup := by
  cases h with
  | interface | advisor => exact List.nodup_singleton _
  | remove | revise => exact .nil

/-- A ticket that was issued and names nothing is not issued again. -/
theorem listing?_eq_none (h : b.Alters xs ts b') (hb : b.WellFormed) (ht : t.serial < b.due t)
    (hnone : b.listing? t = none) : b'.listing? t = none := by
  rw [listing?_eq_none_iff (h.wellFormed hb), ← published_tickets,
    ((h.published hb).map _).mem_iff]
  rw [listing?_eq_none_iff hb, ← published_tickets] at hnone
  intro hmem
  obtain ⟨x, hx, rfl⟩ := List.mem_map.mp hmem
  rcases List.mem_append.mp (List.mem_of_mem_filter hx) with hx | hx
  · exact hnone (List.mem_map_of_mem hx)
  · have := (h.serial hx).1
    omega

/-- What is not removed has the owner that it had. -/
theorem ownerOf (h : b.Alters xs ts b') (hb : b.WellFormed) {owner : String}
    (ho : b.ownerOf t = some owner) (hout : t ∉ ts) : b'.ownerOf t = some owner := by
  obtain ⟨x, hx, rfl, rfl⟩ := hb.ownerOf_eq_some_iff.mp ho
  refine (h.wellFormed hb).ownerOf_eq_some_iff.mpr ⟨x, (h.published hb).mem_iff.mpr ?_, rfl, rfl⟩
  exact List.mem_filter.mpr ⟨List.mem_append_left _ hx, decide_eq_true hout⟩

theorem ownerOf_made (h : b.Alters xs ts b') (hb : b.WellFormed) (hx : x ∈ xs)
    (hout : x.ticket ∉ ts) : b'.ownerOf x.ticket = some x.owner := by
  refine (h.wellFormed hb).ownerOf_eq_some_iff.mpr ⟨x, (h.published hb).mem_iff.mpr ?_, rfl, rfl⟩
  exact List.mem_filter.mpr ⟨List.mem_append_right _ hx, decide_eq_true hout⟩

end Alters

/-- What has not been removed with others has the owner that it had. -/
theorem ownerOf_removeAll {owner : String} (hb : b.WellFormed) (ho : b.ownerOf t = some owner)
    (hout : t ∉ ts) : (b.removeAll ts).ownerOf t = some owner := by
  induction ts generalizing b with
  | nil => exact ho
  | cons x ts ih =>
      obtain ⟨hne, hrest⟩ := not_or.mp (List.mem_cons.not.mp hout)
      have hx := (Alters.remove x).ownerOf hb ho (by simpa using hne)
      exact ih ((Alters.remove x).wellFormed hb) hx hrest

/-! ## What a ticket acts on -/

/-- Whether every registration but that of a ticket is as it was, in its place, with its count and
its visibility, and so are the numbers that come next. -/
structure Spares (b : Broker) (t : Ticket) (b' : Broker) : Prop where
  listings : (b'.listings.filter fun x => x.ticket ≠ t) = b.listings.filter fun x => x.ticket ≠ t
  departed : (b'.departed.filter fun x => x.ticket ≠ t) = b.departed.filter fun x => x.ticket ≠ t
  due : ∀ t', b'.due t' = b.due t'

theorem spares_revise {g : Usage → Usage} : b.Spares t (b.revise (only [t] g)) := by
  have hsame : ∀ xs : List Listing,
      ((xs.map (.revise (only [t] g))).filter fun x => x.ticket ≠ t)
        = xs.filter fun x => x.ticket ≠ t := by
    intro xs
    rw [List.filter_map]
    simp only [Function.comp_def, Listing.ticket_revise]
    refine (List.map_congr_left fun x hx => ?_).trans (List.map_id _)
    have hne : x.ticket ≠ t := by simpa using List.of_mem_filter hx
    exact Listing.revise_of_eq (by simp [only, hne])
  refine ⟨?_, ?_, fun _ => due_revise⟩
  · rw [listings_revise, hsame]
  · rw [departed_revise, hsame]

theorem WellFormed.spares_forceRemove (h : b.WellFormed) : b.Spares t (b.forceRemove t).2 := by
  refine ⟨?_, h.departed_forceRemove, h.forceRemove.due⟩
  rw [h.listings_forceRemove, List.filter_filter]
  simp

/-- The answer to withdrawing or retiring what a ticket names. -/
def verdict (t : Ticket) : Option Listing → Except RegistryError Unit
  | none => .error (.unknownTicket t.capability)
  | some x =>
    if x.usage.outstanding = 0 then .ok () else .error (.busy t.capability x.usage.outstanding)

/-- Whether what is done with a ticket concerns its own registration alone: answers depend on
nothing else, and nothing else changes. -/
structure Confined (b : Broker) (t : Ticket) : Prop where
  outstanding : b.outstanding t = (b.listing? t).map fun x => x.usage.outstanding
  withdraw : (b.withdraw t).map (fun _ => ()) = verdict t (b.listing? t)
  retire : (b.retire t).map (fun _ => ()) = verdict t (b.listing? t)
  forceRemove : (b.forceRemove t).1 = (b.listing? t).map fun x => x.usage.outstanding
  withdrawn : ∀ b', b.withdraw t = .ok b' → b.Spares t b' ∧ b'.listing? t = none
  retired : ∀ b', b.retire t = .ok b' →
    b.Spares t b' ∧ b'.listing? t = (b.listing? t).map fun x => x.withUsage x.usage.hide
  restored : b.Spares t (b.restore t) ∧
    (b.restore t).listing? t = (b.listing? t).map fun x => x.withUsage x.usage.restore
  removed : b.Spares t (b.forceRemove t).2 ∧ (b.forceRemove t).2.listing? t = none

theorem usage?_outstanding :
    (b.usage? t).map Usage.outstanding = (b.listing? t).map fun x => x.usage.outstanding := by
  rw [usage?_eq_map, Option.map_map]
  rfl

theorem listing?_revise_only {g : Usage → Usage} :
    (b.revise (only [t] g)).listing? t = (b.listing? t).map fun x => x.withUsage (g x.usage) := by
  rw [listing?_revise]
  cases hx : b.listing? t with
  | none => rfl
  | some x =>
      obtain ⟨-, rfl⟩ := mem_of_listing? hx
      simp [Listing.revise, only]

theorem WellFormed.confined (h : b.WellFormed) (t : Ticket) : b.Confined t where
  outstanding := h.outstanding_eq.trans usage?_outstanding
  withdraw := by
    rw [h.withdraw_eq, usage?_eq_map]
    cases b.listing? t with
    | none => rfl
    | some x => simp only [Option.map_some, verdict]; split <;> rfl
  retire := by
    rw [h.retire_eq, usage?_eq_map]
    cases b.listing? t with
    | none => rfl
    | some x => simp only [Option.map_some, verdict]; split <;> rfl
  forceRemove := h.forceRemove_fst.trans usage?_outstanding
  withdrawn := by
    intro b' hw
    obtain ⟨rfl, -⟩ := h.withdraw_ok hw
    exact ⟨h.spares_forceRemove, h.listing?_forceRemove⟩
  retired := by
    intro b' hr
    obtain ⟨-, -, -, rfl⟩ := h.retire_ok hr
    exact ⟨spares_revise, listing?_revise_only⟩
  restored := by
    rw [h.restore_eq, usage?_eq_map]
    cases hx : b.listing? t with
    | none => exact ⟨⟨rfl, rfl, fun _ => rfl⟩, hx⟩
    | some x => exact ⟨spares_revise, listing?_revise_only.trans (by rw [hx])⟩
  removed := ⟨h.spares_forceRemove, h.listing?_forceRemove⟩

/-- Whether a ticket names nothing, whatever is done with it. -/
structure Stale (b : Broker) (t : Ticket) : Prop where
  withdraw : b.withdraw t = .error (.unknownTicket t.capability)
  retire : b.retire t = .error (.unknownTicket t.capability)
  restore : b.restore t = b
  forceRemove : b.forceRemove t = (none, b)
  outstanding : b.outstanding t = none

theorem WellFormed.stale (h : b.WellFormed) (hnone : b.listing? t = none) : b.Stale t := by
  have hu : b.usage? t = none := by rw [usage?_eq_map, hnone, Option.map_none]
  refine ⟨?_, ?_, ?_, h.forceRemove_of_none hu, ?_⟩
  · rw [h.withdraw_eq, hu]
  · rw [h.retire_eq, hu]
  · rw [h.restore_eq, hu]
  · rw [h.outstanding_eq, hu, Option.map_none]

end Broker

/-! ## Runs of dealings -/

namespace Ledger

open Broker (Alters)

variable {l : Ledger} {ds ds' : List Dealing} {d : Dealing} {x y : Listing} {xs : List Listing}
  {t : Ticket}

/-- The registration that a dealing makes, if it makes one. -/
def made (l : Ledger) : Dealing → List Listing
  | .publishInterface k owner s =>
    match l.broker.interfaces.register k owner s with
    | .ok (n, _) => [.interface { rank := (), serial := n, contract := k, owner, service := s }]
    | .error _ => []
  | .publishAdvisor k owner priority s =>
    [.advisor { rank := priority, serial := (l.broker.advisors.register k owner priority s).1,
                contract := k, owner, service := s }]
  | _ => []

/-- The ticket of the registration that a dealing removes, if it removes one. -/
def ended (l : Ledger) : Dealing → List Ticket
  | .withdraw t =>
    match l.broker.withdraw t with
    | .ok _ => [t]
    | .error _ => []
  | .forceRemove t => if (l.broker.forceRemove t).1.isSome then [t] else []
  | _ => []

theorem alters_step (hx : l.broker.Exact l.out) (d : Dealing) :
    l.broker.Alters (l.made d) (l.ended d) (l.step d).broker := by
  cases d with
  | publishInterface k owner s =>
      cases hr : l.broker.interfaces.register k owner s with
      | error e => simpa [step, made, ended, hr, settle, Except.map] using .refl _
      | ok r => simpa [step, made, ended, hr, settle, Except.map] using Alters.interface hr
  | publishAdvisor k owner priority s => exact .advisor k owner priority s
  | withdraw t =>
      cases hw : l.broker.withdraw t with
      | error e => simpa [step, made, ended, hw, settle] using .refl _
      | ok b =>
          obtain ⟨rfl, -⟩ := hx.wellFormed.withdraw_ok hw
          simpa [step, made, ended, hw, settle] using .remove t
  | lease alive k =>
      cases hl : l.broker.lease alive k with
      | error e => simpa [step, made, ended, hl] using .refl _
      | ok r =>
          have heq := (Broker.Takes.lease hl).eq hx.wellFormed
          simpa [step, made, ended, hl, heq] using .revise _
  | panel alive k =>
      cases hp : (l.broker.panel alive k).1 with
      | error e =>
          rw [step_panel_error hx.wellFormed hp]
          exact .refl _
      | ok p =>
          rw [step_panel_ok hp, (Broker.Takes.panel hp).eq hx.wellFormed]
          exact .revise _
  | giveBack i =>
      cases hi : l.out[i]? with
      | none => simpa [step, made, ended, hi] using .refl _
      | some h =>
          have heq := (hx.perm (perm_eraseIdx hi)).giveBack_eq
          simpa [step, made, ended, hi, heq] using .revise _
  | retire t =>
      cases hr : l.broker.retire t with
      | error e => simpa [step, made, ended, hr, settle] using .refl _
      | ok b =>
          obtain ⟨-, -, -, rfl⟩ := hx.wellFormed.retire_ok hr
          simpa [step, made, ended, hr, settle] using .revise _
  | restore t =>
      rw [step, hx.wellFormed.restore_eq]
      cases l.broker.usage? t with
      | none => exact .refl _
      | some u => exact .revise _
  | forceRemove t =>
      cases hu : l.broker.usage? t with
      | none => simpa [step, made, ended, hx.wellFormed.forceRemove_of_none hu] using .refl _
      | some u =>
          have hsome : (l.broker.forceRemove t).1.isSome := by
            rw [hx.wellFormed.forceRemove_fst, hu]
            rfl
          simpa [step, made, ended, hsome] using .remove t

/-- What no alteration of a well-formed broker takes away lasts over any dealings. -/
theorem foldl_of_alters {P : Broker → Prop}
    (hP : ∀ b xs ts b', b.WellFormed → b.Alters xs ts b' → P b → P b')
    (hx : l.broker.Exact l.out) (hl : P l.broker) (ds : List Dealing) :
    P (ds.foldl step l).broker := by
  induction ds generalizing l with
  | nil => exact hl
  | cons d ds ih => exact ih (exact_step hx d) (hP _ _ _ _ hx.wellFormed (alters_step hx d) hl)

/-- The registrations that dealings make, in the order in which they are made. -/
def madeIn (l : Ledger) : List Dealing → List Listing
  | [] => []
  | d :: ds => l.made d ++ (l.step d).madeIn ds

/-- A roster that is kept over dealings by adding what is made and striking out what is removed. -/
def rosterFrom (l : Ledger) (xs : List Listing) : List Dealing → List Listing
  | [] => xs
  | d :: ds => (l.step d).rosterFrom ((xs ++ l.made d).filter fun x => x.ticket ∉ l.ended d) ds

/-- What is registered after dealings with empty registries, in the order of registration. -/
def roster (ds : List Dealing) : List Listing := rosterFrom {} [] ds

theorem published_foldl (hx : l.broker.Exact l.out) (hxs : l.broker.published.Perm xs) :
    (ds.foldl step l).broker.published.Perm (l.rosterFrom xs ds) := by
  induction ds generalizing l xs with
  | nil => exact hxs
  | cons d ds ih =>
      refine ih (exact_step hx d) (((alters_step hx d).published hx.wellFormed).trans ?_)
      exact (hxs.append_right _).filter _

/-- What is listed after any dealings is what a plain roster has. -/
theorem published_after (ds : List Dealing) : (after ds).broker.published.Perm (roster ds) :=
  published_foldl Broker.exact_empty (.refl _)

theorem rosterFrom_subset (l : Ledger) (xs : List Listing) (ds : List Dealing) :
    l.rosterFrom xs ds ⊆ xs ++ l.madeIn ds := by
  induction ds generalizing l xs with
  | nil => simp [rosterFrom, madeIn]
  | cons d ds ih =>
      intro x hx
      rw [madeIn, ← List.append_assoc]
      rcases List.mem_append.mp (ih _ _ hx) with hx | hx
      · exact List.mem_append_left _ (List.mem_of_mem_filter hx)
      · exact List.mem_append_right _ hx

theorem due_foldl (hx : l.broker.Exact l.out) (ds : List Dealing) (t : Ticket) :
    l.broker.due t ≤ (ds.foldl step l).broker.due t :=
  foldl_of_alters (P := fun b => l.broker.due t ≤ b.due t)
    (fun _ _ _ _ hb ha hle => Nat.le_trans hle (ha.due hb t)) hx (Nat.le_refl _) ds

/-- Tickets are issued with numbers that are due then, and no longer afterwards. -/
theorem serial_of_madeIn (hx : l.broker.Exact l.out) (hmem : x ∈ l.madeIn ds) :
    l.broker.due x.ticket ≤ x.ticket.serial ∧
      x.ticket.serial < (ds.foldl step l).broker.due x.ticket := by
  induction ds generalizing l with
  | nil => simp [madeIn] at hmem
  | cons d ds ih =>
      have hstep := alters_step hx d
      rcases List.mem_append.mp hmem with hmem | hmem
      · obtain ⟨hdue, hlt⟩ := hstep.serial hmem
        exact ⟨Nat.le_of_eq hdue, Nat.lt_of_lt_of_le hlt (due_foldl (exact_step hx d) ds _)⟩
      · obtain ⟨hle, hlt⟩ := ih (exact_step hx d) hmem
        exact ⟨Nat.le_trans (hstep.due hx.wellFormed _) hle, hlt⟩

/-- No ticket is issued twice. -/
theorem nodup_madeIn (hx : l.broker.Exact l.out) (ds : List Dealing) :
    ((l.madeIn ds).map Listing.ticket).Nodup := by
  induction ds generalizing l with
  | nil => exact .nil
  | cons d ds ih =>
      have hstep := alters_step hx d
      rw [madeIn, List.map_append]
      refine List.Nodup.append hstep.nodup (ih (exact_step hx d)) ?_
      intro t hnow hlater
      obtain ⟨x, hmade, rfl⟩ := List.mem_map.mp hnow
      obtain ⟨y, hy, heq⟩ := List.mem_map.mp hlater
      have hlt := (hstep.serial hmade).2
      have hle := (serial_of_madeIn (exact_step hx d) hy).1
      rw [heq] at hle
      omega

/-- A ticket that was issued and names nothing names nothing ever after. -/
theorem listing?_foldl (hx : l.broker.Exact l.out) (ht : t.serial < l.broker.due t)
    (hnone : l.broker.listing? t = none) (ds : List Dealing) :
    (ds.foldl step l).broker.listing? t = none := by
  refine (foldl_of_alters (P := fun b => t.serial < b.due t ∧ b.listing? t = none) ?_ hx
    ⟨ht, hnone⟩ ds).2
  rintro b xs ts b' hb ha ⟨hlt, hn⟩
  exact ⟨Nat.lt_of_lt_of_le hlt (ha.due hb t), ha.listing?_eq_none hb hlt hn⟩

/-- Whatever a ticket names is the registration that it was issued for. -/
theorem asMade_of_listing? (hmem : x ∈ madeIn {} ds)
    (hy : (after ds).broker.listing? x.ticket = some y) : y.asMade = x := by
  obtain ⟨hlisted, ht⟩ := Broker.mem_of_listing? hy
  have hroster : y.asMade ∈ roster ds := (published_after ds).subset (List.mem_map_of_mem hlisted)
  have hmade : y.asMade ∈ madeIn {} ds := by simpa using rosterFrom_subset _ _ _ hroster
  refine List.inj_on_of_nodup_map (nodup_madeIn Broker.exact_empty ds) hmade hmem ?_
  rw [Listing.ticket_asMade, ht]

/-- Over all dealings with either registry no two registrations share a ticket.  After any of them
what is done with a ticket concerns its own registration alone, which is the one that it was issued
for; and a ticket whose registration is gone is stale then and after all further dealings, whoever
registers its capability again. -/
theorem tickets_last (ds : List Dealing) :
    ((madeIn {} ds).map Listing.ticket).Nodup ∧
    (∀ t, (after ds).broker.Confined t) ∧
    ∀ x ∈ madeIn {} ds,
      (∀ y, (after ds).broker.listing? x.ticket = some y → y.asMade = x) ∧
      ((after ds).broker.listing? x.ticket = none →
        ∀ ds', (after (ds ++ ds')).broker.Stale x.ticket) := by
  have hx := exact_after ds
  refine ⟨nodup_madeIn Broker.exact_empty ds, hx.wellFormed.confined, fun x hmem => ⟨?_, ?_⟩⟩
  · exact fun y hy => asMade_of_listing? hmem hy
  · intro hnone ds'
    refine (exact_after (ds ++ ds')).wellFormed.stale ?_
    have hissued := (serial_of_madeIn Broker.exact_empty hmem).2
    rw [after, List.foldl_append]
    exact listing?_foldl hx hissued hnone ds'

/-- A capability that is registered again has a new ticket, and the old one can do nothing to it. -/
example :
    let old : Ticket := .interface Contract.generator.capability 1
    let b := (after [.publishInterface .generator "first" 0, .withdraw old,
      .publishInterface .generator "second" 1]).broker
    b.retire old = .error (.unknownTicket old.capability) ∧ b.forceRemove old = (none, b) ∧
      b.ownerOf (.interface Contract.generator.capability 2) = some "second" :=
  ⟨rfl, rfl, rfl⟩

end Ledger

end Backplane
