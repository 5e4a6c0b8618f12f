import Backplane.Proofs.Registry.Accounting
/-!
# `Backplane.Proofs.Registry.Listings`: the registrations that are present

A listing is a present registration of either registry.  Dealings add listings, strike them out and
revise how they are used, and nothing else; so what is present after any dealings, looked at as it
was made, is what a plain roster has that knows only additions and removals.

They are in the `InterfaceRegistry` and the `AdvisorRegistry`.
-/
namespace Backplane

section AsMade

variable {ρ : Type} {e : Registration ρ}

/-- A registration as it was when it was made, whatever use has been made of it since. -/
def Registration.asMade (e : Registration ρ) : Registration ρ := { e with usage := .fresh }

@[simp] theorem Registration.asMade_revise {f : Capability → Nat → Usage → Usage} :
    (e.revise f).asMade = e.asMade :=
  rfl

end AsMade

/-- A registration in either registry. -/
inductive Listing
  | interface (e : Registration Unit)
  | advisor (e : Registration Int)
deriving DecidableEq, Repr

namespace Listing

def ticket : Listing → Ticket
  | interface e => .interface e.contract.capability e.serial
  | advisor e => .advisor e.contract.capability e.serial

def owner : Listing → String
  | interface e => e.owner
  | advisor e => e.owner

def usage : Listing → Usage
  | interface e => e.usage
  | advisor e => e.usage

def withUsage : Listing → Usage → Listing
  | interface e, u => .interface { e with usage := u }
  | advisor e, u => .advisor { e with usage := u }

def asMade (x : Listing) : Listing := x.withUsage .fresh

/-- A listing whose usage is revised. -/
def revise (f : Ticket → Usage → Usage) (x : Listing) : Listing := x.withUsage (f x.ticket x.usage)

variable {x : Listing} {u : Usage} {f : Ticket → Usage → Usage}

@[simp] theorem ticket_withUsage : (x.withUsage u).ticket = x.ticket := by cases x <;> rfl

@[simp] theorem owner_withUsage : (x.withUsage u).owner = x.owner := by cases x <;> rfl

@[simp] theorem asMade_withUsage : (x.withUsage u).asMade = x.asMade := by cases x <;> rfl

@[simp] theorem ticket_asMade : x.asMade.ticket = x.ticket := ticket_withUsage

@[simp] theorem owner_asMade : x.asMade.owner = x.owner := owner_withUsage

@[simp] theorem ticket_revise : (x.revise f).ticket = x.ticket := ticket_withUsage

@[simp] theorem asMade_revise : (x.revise f).asMade = x.asMade := asMade_withUsage

theorem revise_of_eq (h : f x.ticket x.usage = x.usage) : x.revise f = x := by
  rw [revise, h]
  cases x <;> rfl

/-! ## Listings of both registries -/

/-- The listings of an exclusive registry's registrations, then those of an advisory one's. -/
def all (is : List (Registration Unit)) (as : List (Registration Int)) : List Listing :=
  is.map .interface ++ as.map .advisor

variable {is : List (Registration Unit)} {as : List (Registration Int)} {c : Capability} {n : Nat}

theorem all_revise :
    all (is.map (.revise fun c n => f (.interface c n))) (as.map (.revise fun c n => f (.advisor c n)))
      = (all is as).map (.revise f) := by
  simp only [all, List.map_append, List.map_map]
  rfl

theorem filter_all_interface :
    ((all is as).filter fun x => x.ticket ≠ .interface c n)
      = all (is.filter fun e => !e.isNamed c n) as := by
  rw [all, List.filter_append, List.filter_map, List.filter_map, all]
  congr 1
  · refine congrArg _ (List.filter_congr fun e _ => ?_)
    simp [ticket, Registration.isNamed]
  · rw [List.filter_eq_self.mpr]
    simp [ticket]

theorem filter_all_advisor :
    ((all is as).filter fun x => x.ticket ≠ .advisor c n)
      = all is (as.filter fun e => !e.isNamed c n) := by
  rw [all, List.filter_append, List.filter_map, List.filter_map, all]
  congr 1
  · rw [List.filter_eq_self.mpr]
    simp [ticket]
  · refine congrArg _ (List.filter_congr fun e _ => ?_)
    simp [ticket, Registration.isNamed]

end Listing

/-! ## One registry -/

namespace Book

variable {ρ : Type} {r : Book ρ} {c : Capability} {n : Nat} {e : Registration ρ}

/-- Only the registration of the ticket is removed by force, and nothing if there is none. -/
theorem WellFormed.entries_forceRemove (h : r.WellFormed) :
    (r.forceRemove c n).2.entries = r.entries.filter fun e => !e.isNamed c n := by
  cases hp : r.present? c n with
  | none =>
      have hnone : ∀ e ∈ r.entries, !e.isNamed c n := fun e he => by
        rw [Bool.not_eq_true']
        exact Bool.eq_false_iff.mpr (List.find?_eq_none.mp hp e he)
      rw [Book.forceRemove, hp, List.filter_eq_self.mpr hnone]
  | some e =>
      rw [← h.entries_erase hp, forceRemove_eq hp]
      obtain ⟨-, -, rfl⟩ := mem_of_present? hp
      split <;> rfl

/-- Only the registration of the ticket can join the departed ones. -/
theorem departed_forceRemove :
    ((r.forceRemove c n).2.departed.filter fun e => !e.isNamed c n)
      = r.departed.filter fun e => !e.isNamed c n := by
  cases hp : r.present? c n with
  | none => rw [forceRemove, hp]
  | some e =>
      have he : e.isNamed c n = true := Registration.isNamed_iff.mpr (mem_of_present? hp).2
      rw [forceRemove_eq hp]
      split
      · rfl
      · simp [depart, he]

end Book

/-! ## Both registries -/

namespace Broker

variable {b b' : Broker} {t t' : Ticket} {x : Listing} {f : Ticket → Usage → Usage}

/-- The present registrations, those of each registry in their order there. -/
def listings (b : Broker) : List Listing := Listing.all b.interfaces.entries b.advisors.entries

/-- The registrations that were removed while they were in use. -/
def departed (b : Broker) : List Listing := Listing.all b.interfaces.departed b.advisors.departed

/-- The registration that a ticket names, if it is present. -/
def listing? (b : Broker) : Ticket → Option Listing
  | .interface c n => (b.interfaces.present? c n).map .interface
  | .advisor c n => (b.advisors.book.present? c n).map .advisor

/-- The present registrations as they were made. -/
def published (b : Broker) : List Listing := b.listings.map Listing.asMade

theorem usage?_eq_map : b.usage? t = (b.listing? t).map Listing.usage := by
  cases t <;> simp [usage?, listing?, Book.usage?_eq_map, Function.comp_def, Listing.usage]

theorem WellFormed.ownerOf_eq_map (h : b.WellFormed) :
    b.ownerOf t = (b.listing? t).map Listing.owner := by
  cases t with
  | interface c n => simp [ownerOf, listing?, Function.comp_def, Listing.owner]
  | advisor c n =>
      simp [ownerOf, listing?, h.advisors.present?_eq, Function.comp_def, Listing.owner]

theorem mem_of_listing? (h : b.listing? t = some x) : x ∈ b.listings ∧ x.ticket = t := by
  cases t with
  | interface c n =>
      obtain ⟨e, he, rfl⟩ := Option.map_eq_some_iff.mp h
      obtain ⟨hmem, rfl, rfl⟩ := Book.mem_of_present? he
      exact ⟨List.mem_append_left _ (List.mem_map_of_mem hmem), rfl⟩
  | advisor c n =>
      obtain ⟨e, he, rfl⟩ := Option.map_eq_some_iff.mp h
      obtain ⟨hmem, rfl, rfl⟩ := Book.mem_of_present? he
      exact ⟨List.mem_append_right _ (List.mem_map_of_mem hmem), rfl⟩

theorem WellFormed.listing?_of_mem (h : b.WellFormed) (hx : x ∈ b.listings) :
    b.listing? x.ticket = some x := by
  rcases List.mem_append.mp hx with hx | hx
  · obtain ⟨e, he, rfl⟩ := List.mem_map.mp hx
    rw [Listing.ticket, listing?, h.interfaces.present?_of_mem he]
    rfl
  · obtain ⟨e, he, rfl⟩ := List.mem_map.mp hx
    rw [Listing.ticket, listing?, h.advisors.book.present?_of_mem he]
    rfl

theorem listing?_eq_none_iff (h : b.WellFormed) :
    b.listing? t = none ↔ t ∉ b.listings.map Listing.ticket := by
  constructor
  · intro hnone hmem
    obtain ⟨x, hx, rfl⟩ := List.mem_map.mp hmem
    simp [h.listing?_of_mem hx] at hnone
  · intro hnot
    refine Option.eq_none_iff_forall_ne_some.mpr fun x hx => hnot ?_
    obtain ⟨hmem, rfl⟩ := mem_of_listing? hx
    exact List.mem_map_of_mem hmem

theorem published_tickets : b.published.map Listing.ticket = b.listings.map Listing.ticket := by
  rw [published, List.map_map]
  exact List.map_congr_left fun x _ => Listing.ticket_asMade

/-- A ticket has an owner if it names something present, as it was made. -/
theorem WellFormed.ownerOf_eq_some_iff (h : b.WellFormed) {owner : String} :
    b.ownerOf t = some owner ↔ ∃ x ∈ b.published, x.ticket = t ∧ x.owner = owner := by
  rw [h.ownerOf_eq_map, Option.map_eq_some_iff]
  constructor
  · rintro ⟨x, hx, rfl⟩
    obtain ⟨hmem, rfl⟩ := mem_of_listing? hx
    exact ⟨x.asMade, List.mem_map_of_mem hmem, Listing.ticket_asMade, Listing.owner_asMade⟩
  · rintro ⟨y, hy, rfl, rfl⟩
    obtain ⟨x, hx, rfl⟩ := List.mem_map.mp hy
    exact ⟨x, by rw [Listing.ticket_asMade, h.listing?_of_mem hx], Listing.owner_asMade.symm⟩

/-! ## What revisions and removals make of the listings -/

theorem listings_revise : (b.revise f).listings = b.listings.map (.revise f) := by
  have ha : (b.advisors.revise fun c n => f (.advisor c n)).entries
      = b.advisors.entries.map (.revise fun c n => f (.advisor c n)) :=
    congrArg Book.entries Advisors.book_revise
  rw [listings, revise, ha]
  exact Listing.all_revise

theorem departed_revise : (b.revise f).departed = b.departed.map (.revise f) := Listing.all_revise

theorem listing?_revise : (b.revise f).listing? t = (b.listing? t).map (.revise f) := by
  cases t with
  | interface c n =>
      simp only [listing?, Book.present?, revise, Book.revise, List.find?_map, Option.map_map]
      rfl
  | advisor c n =>
      simp only [listing?, Book.present?, revise, Advisors.book_revise, Book.revise, List.find?_map,
        Option.map_map]
      rfl

theorem WellFormed.ownerOf_revise (h : b.WellFormed) : (b.revise f).ownerOf t = b.ownerOf t := by
  rw [h.revise.ownerOf_eq_map, h.ownerOf_eq_map, listing?_revise, Option.map_map]
  exact congrArg (Option.map · _) (funext fun _ => Listing.owner_withUsage)

theorem published_revise : (b.revise f).published = b.published := by
  rw [published, listings_revise, List.map_map, published]
  exact List.map_congr_left fun x _ => Listing.asMade_revise

theorem WellFormed.listings_forceRemove (h : b.WellFormed) :
    (b.forceRemove t).2.listings = b.listings.filter fun x => x.ticket ≠ t := by
  cases t with
  | interface c n =>
      rw [listings, listings, Listing.filter_all_interface, ← h.interfaces.entries_forceRemove]
      rfl
  | advisor c n =>
      have ha : (b.advisors.forceRemove c n).2.entries
          = b.advisors.entries.filter fun e => !e.isNamed c n :=
        (congrArg Book.entries h.advisors.book_forceRemove).trans
          h.advisors.book.entries_forceRemove
      rw [listings, listings, Listing.filter_all_advisor, ← ha]
      rfl

theorem WellFormed.departed_forceRemove (h : b.WellFormed) :
    ((b.forceRemove t).2.departed.filter fun x => x.ticket ≠ t)
      = b.departed.filter fun x => x.ticket ≠ t := by
  cases t with
  | interface c n =>
      rw [departed, departed, Listing.filter_all_interface, Listing.filter_all_interface]
      exact congrArg (Listing.all · b.advisors.departed) Book.departed_forceRemove
  | advisor c n =>
      have ha : (b.advisors.forceRemove c n).2.departed
          = (b.advisors.book.forceRemove c n).2.departed :=
        congrArg Book.departed h.advisors.book_forceRemove
      rw [departed, departed, Listing.filter_all_advisor, Listing.filter_all_advisor]
      refine congrArg (Listing.all b.interfaces.departed) ?_
      exact (congrArg _ ha).trans Book.departed_forceRemove

theorem WellFormed.published_forceRemove (h : b.WellFormed) :
    (b.forceRemove t).2.published = b.published.filter fun x => x.ticket ≠ t := by
  rw [published, h.listings_forceRemove, published, List.filter_map]
  simp only [Function.comp_def, Listing.ticket_asMade]

theorem WellFormed.listing?_forceRemove (h : b.WellFormed) :
    (b.forceRemove t).2.listing? t = none := by
  rw [listing?_eq_none_iff h.forceRemove.wellFormed, h.listings_forceRemove]
  simp

end Broker

end Backplane
