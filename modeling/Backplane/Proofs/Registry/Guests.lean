import Backplane.Proofs.Registry.Rosters
/-!
# `Backplane.Proofs.Registry.Guests`: registrations that come and go

A broker houses the registrations of some tickets if it is what it was, entry for entry and in the
same order, but for them, and nobody refers to them.  They are housed from the moment that they are
made, whatever else is registered and wherever in the order they stand; hiding them changes nothing
about that; and when they are removed the broker is what it was, but for the numbers that have been
given out.

The broker is the `Broker`, with both registries.
-/
namespace Backplane

theorem Listing.all_inj {is is' : List (Registration Unit)} {as as' : List (Registration Int)} :
    Listing.all is as = Listing.all is' as' ↔ is = is' ∧ as = as' := by
  have hadvisor : Function.Injective Listing.advisor := fun _ _ => Listing.advisor.inj
  induction is generalizing is' with
  | nil =>
      cases is' with
      | nil => simp [all, List.map_inj_right hadvisor]
      | cons e' is' => cases as <;> simp [all]
  | cons e is ih =>
      cases is' with
      | nil => cases as' <;> simp [all]
      | cons e' is' =>
          have hcons : ∀ (e : Registration Unit) is as,
              all (e :: is) as = .interface e :: all is as := fun _ _ _ => rfl
          simp only [hcons, List.cons.injEq, Listing.interface.injEq, ih, and_assoc]

/-- Whether a ticket is of the exclusive registry. -/
def Ticket.isExclusive : Ticket → Bool
  | .interface _ _ => true
  | .advisor _ _ => false

/-! ## Numbers passed over -/

/-- The book with some numbers passed over. -/
def Book.skip {ρ : Type} (r : Book ρ) (n : Nat) : Book ρ := { r with nextSerial := r.nextSerial + n }

/-- The advisors with some numbers passed over. -/
def Advisors.skip (r : Advisors) (n : Nat) : Advisors := { r with nextSerial := r.nextSerial + n }

section Skip

variable {n : Nat} {alive : ServiceId → Bool} {k : Contract}

theorem Interfaces.lease_skip {r : Interfaces} :
    lease alive (r.skip n) k = (lease alive r k).map fun x => (x.1, x.2.skip n) := by
  have hfind : find? (r.skip n) k.capability = find? r k.capability := rfl
  rw [lease, lease, hfind]
  cases find? r k.capability with
  | none => rfl
  | some e =>
      simp only
      split
      · rfl
      · split
        · rfl
        · cases e.usage.acquire <;> rfl

namespace Advisors

theorem giveBack_skip {r : Advisors} {c : Capability} {serial : Nat} :
    (r.skip n).giveBack c serial = (r.giveBack c serial).map (·.skip n) := by
  have hlist : (r.skip n).listOf c = r.listOf c := rfl
  have hdeparted : (r.skip n).departed = r.departed := rfl
  rw [giveBack, giveBack, hlist, hdeparted]
  cases Book.giveBackIn serial (r.listOf c) with
  | some es => rfl
  | none => cases Book.giveBackIn serial r.departed <;> rfl

theorem giveBackSeats_skip {c : Capability} {seats : List Seat} {r : Advisors} :
    giveBackSeats c seats (r.skip n) =
      ((giveBackSeats c seats r).1, (giveBackSeats c seats r).2.skip n) := by
  induction seats generalizing r with
  | nil => rfl
  | cons s seats ih =>
      simp only [giveBackSeats, giveBack_skip]
      cases r.giveBack c s.serial with
      | some r' => exact ih
      | none => simp only [Option.map_none, ih]

theorem panel_skip {r : Advisors} :
    panel alive (r.skip n) k = ((panel alive r k).1, (panel alive r k).2.skip n) := by
  have hlist : (r.skip n).listOf k.capability = r.listOf k.capability := rfl
  have htaken : ∀ es, (r.skip n).setList k.capability es = (r.setList k.capability es).skip n :=
    fun _ => rfl
  rw [panel, panel, hlist, htaken]
  simp only [giveBackSeats_skip]
  split <;> rfl

theorem WellFormed.skip {r : Advisors} (h : r.WellFormed) : (r.skip n).WellFormed where
  filed := h.filed
  book := ⟨h.book.serials, fun e he => Nat.lt_add_right n (h.book.issued e he)⟩

end Advisors

end Skip

namespace Broker

variable {b₀ b b' : Broker} {t x : Ticket} {ts : List Ticket} {u : Usage} {exclusive advisory : Nat}

/-- The broker with some numbers of either registry passed over. -/
def skip (b : Broker) (exclusive advisory : Nat) : Broker :=
  ⟨b.interfaces.skip exclusive, b.advisors.skip advisory⟩

/-- Whatever numbers have been passed over, a lookup of an exclusive service has the same result. -/
theorem lease_skip {alive : ServiceId → Bool} {k : Contract} :
    (b.skip exclusive advisory).lease alive k =
      (b.lease alive k).map fun r => (r.1, r.2.skip exclusive advisory) := by
  have hi : (b.skip exclusive advisory).interfaces = b.interfaces.skip exclusive := rfl
  rw [lease, lease, hi, Interfaces.lease_skip]
  cases Interfaces.lease alive b.interfaces k <;> rfl

/-- So does a lookup of advisors. -/
theorem panel_skip {alive : ServiceId → Bool} {k : Contract} :
    (b.skip exclusive advisory).panel alive k =
      ((b.panel alive k).1, (b.panel alive k).2.skip exclusive advisory) := by
  have ha : (b.skip exclusive advisory).advisors = b.advisors.skip advisory := rfl
  rw [panel, panel, ha, Advisors.panel_skip]
  rfl

theorem WellFormed.skip (h : b.WellFormed) : (b.skip exclusive advisory).WellFormed where
  interfaces :=
    ⟨h.interfaces.serials, fun e he => Nat.lt_add_right exclusive (h.interfaces.issued e he)⟩
  advisors := h.advisors.skip

/-- The broker with the numbers of some tickets passed over. -/
def skipAll (b : Broker) (ts : List Ticket) : Broker :=
  b.skip (ts.countP Ticket.isExclusive) (ts.countP fun t => !t.isExclusive)

theorem due_skipAll :
    (b.skipAll ts).due x = b.due x + ts.countP fun t => t.isExclusive = x.isExclusive := by
  cases x with
  | interface c n =>
      show b.interfaces.nextSerial + ts.countP Ticket.isExclusive = _
      exact congrArg _ (List.countP_congr fun t _ => by cases t <;> simp [Ticket.isExclusive])
  | advisor c n =>
      show b.advisors.nextSerial + (ts.countP fun t => !t.isExclusive) = _
      exact congrArg _ (List.countP_congr fun t _ => by cases t <;> simp [Ticket.isExclusive])

/-! ## What is made and removed -/

/-- A registration that is made stands among others that do not bear its ticket. -/
theorem Publishes.filter_listings (h : b.Publishes t b') (hb : b.WellFormed) :
    (b'.listings.filter fun x => x.ticket ≠ t) = b.listings := by
  have hadds := h.adds hb
  have hother : ∀ x ∈ b.listings, x.ticket ≠ t := fun x hx heq => by
    have hpresent : b.usage? t = some x.usage := by
      rw [usage?_eq_map, ← heq, hb.listing?_of_mem hx, Option.map_some]
    have hlt := hb.serial_lt (held?_of_usage? hpresent)
    have hserial := hadds.serial
    omega
  have hsame : (b.listings.filter fun x => x.ticket ≠ t) = b.listings :=
    List.filter_eq_self.mpr fun x hx => by simpa using hother x hx
  refine Eq.trans ?_ hsame
  cases h with
  | interface h =>
      obtain ⟨rfl, rfl⟩ := Interfaces.register_ok h
      simp only [listings, Listing.all, List.map_append, List.filter_append, List.map_cons,
        List.map_nil]
      simp [Listing.ticket]
  | advisor k owner priority s =>
      simp only [listings, Listing.all, List.filter_append, List.filter_map]
      refine congrArg (fun es => _ ++ List.map Listing.advisor es) (Advisors.filter_register ?_)
      simp [Listing.ticket, Advisors.register, Advisors.entrant]

theorem Publishes.due_eq (h : b.Publishes t b') :
    b'.due x = b.due x + if t.isExclusive = x.isExclusive then 1 else 0 := by
  cases h with
  | interface hr =>
      obtain ⟨rfl, rfl⟩ := Interfaces.register_ok hr
      cases x <;> simp [due, Ticket.isExclusive]
  | advisor k owner priority s => cases x <;> simp [due, Ticket.isExclusive, Advisors.register]

/-- What is present does not bear the ticket of anything that has departed. -/
theorem WellFormed.ticket_ne {x y : Listing} (h : b.WellFormed) (hx : x ∈ b.listings)
    (hy : y ∈ b.departed) : x.ticket ≠ y.ticket := by
  rcases List.mem_append.mp hx with hx | hx <;> rcases List.mem_append.mp hy with hy | hy <;>
    obtain ⟨e, he, rfl⟩ := List.mem_map.mp hx <;> obtain ⟨e', he', rfl⟩ := List.mem_map.mp hy
  · intro heq
    exact h.interfaces.serial_ne he he' (Ticket.interface.inj heq).2
  · exact Ticket.noConfusion
  · exact Ticket.noConfusion
  · intro heq
    exact h.advisors.book.serial_ne he he' (Ticket.advisor.inj heq).2

/-- What has departed is left alone by a revision of something present. -/
theorem WellFormed.departed_revise_only {g : Usage → Usage} (h : b.WellFormed)
    (hu : b.usage? t = some u) : (b.revise (only [t] g)).departed = b.departed := by
  rw [usage?_eq_map] at hu
  obtain ⟨x, hx, -⟩ := Option.map_eq_some_iff.mp hu
  obtain ⟨hmem, rfl⟩ := mem_of_listing? hx
  rw [departed_revise]
  refine (List.map_congr_left fun y hy => ?_).trans (List.map_id _)
  have hne : y.ticket ≠ x.ticket := (h.ticket_ne hmem hy).symm
  exact Listing.revise_of_eq (by simp [only, hne])

/-- What nobody refers to is removed without a trace. -/
theorem WellFormed.departed_forceRemove_idle (h : b.WellFormed) (hu : b.usage? t = some u)
    (ho : u.outstanding = 0) : (b.forceRemove t).2.departed = b.departed := by
  cases t with
  | interface c n =>
      obtain ⟨e, hp, rfl⟩ := Option.map_eq_some_iff.mp hu
      simp [departed, Broker.forceRemove, Book.forceRemove_eq hp, ho, Book.erase]
  | advisor c n =>
      obtain ⟨e, hp, rfl⟩ := Option.map_eq_some_iff.mp hu
      have hbook : (b.advisors.forceRemove c n).2.book = b.advisors.book.erase n := by
        rw [h.advisors.book_forceRemove, Book.forceRemove_eq hp, if_pos ho]
      have hdeparted : (b.advisors.forceRemove c n).2.departed = b.advisors.departed :=
        congrArg Book.departed hbook
      simp [departed, Broker.forceRemove, hdeparted]

theorem WellFormed.listings_removeAll (h : b.WellFormed) :
    (b.removeAll ts).listings = b.listings.filter fun x => x.ticket ∉ ts := by
  induction ts generalizing b with
  | nil => exact (List.filter_eq_self.mpr (by simp)).symm
  | cons t ts ih =>
      have hrest : (b.removeAll (t :: ts)).listings = _ := ih h.forceRemove.wellFormed
      rw [hrest, h.listings_forceRemove, List.filter_filter]
      exact List.filter_congr fun x _ => by simp [Bool.and_comm]

theorem WellFormed.departed_removeAll (h : b.WellFormed) (hnd : ts.Nodup)
    (hidle : ∀ t ∈ ts, ∃ u, b.usage? t = some u ∧ u.outstanding = 0) :
    (b.removeAll ts).departed = b.departed := by
  induction ts generalizing b with
  | nil => rfl
  | cons t ts ih =>
      obtain ⟨hnot, hnd⟩ := List.nodup_cons.mp hnd
      obtain ⟨u, hu, ho⟩ := hidle t List.mem_cons_self
      have hstill : ∀ x ∈ ts, ∃ u, (b.forceRemove t).2.usage? x = some u ∧ u.outstanding = 0 := by
        intro x hx
        have hne : x ∉ [t] := fun heq => hnot (List.mem_singleton.mp heq ▸ hx)
        rw [h.forceRemove.usage?, if_neg hne]
        exact hidle x (List.mem_cons_of_mem _ hx)
      exact (ih h.forceRemove.wellFormed hnd hstill).trans (h.departed_forceRemove_idle hu ho)

/-- Well-formed brokers are the same if the same is listed and the same numbers come next. -/
theorem WellFormed.eq_of_listings (h : b.WellFormed) (h' : b'.WellFormed)
    (hl : b.listings = b'.listings) (hd : b.departed = b'.departed)
    (hn : ∀ t, b.due t = b'.due t) : b = b' := by
  obtain ⟨⟨is, ids, m⟩, as⟩ := b
  obtain ⟨⟨is', ids', m'⟩, as'⟩ := b'
  obtain ⟨rfl, hentries⟩ := Listing.all_inj.mp hl
  obtain ⟨rfl, hdeparted⟩ := Listing.all_inj.mp hd
  obtain rfl : m = m' := hn (.interface ⟨""⟩ 0)
  have hnext : as.nextSerial = as'.nextSerial := hn (.advisor ⟨""⟩ 0)
  have hbook : as.book = as'.book := (Book.mk.injEq ..).mpr ⟨hentries, hdeparted, hnext⟩
  exact congrArg (Broker.mk _) (h.advisors.eq_of_book h'.advisors hbook)

/-! ## Guests -/

/-- Whether a broker is another, but for the registrations of some tickets, which nobody refers
to. -/
structure Houses (b₀ : Broker) (ts : List Ticket) (b : Broker) : Prop where
  host : b₀.WellFormed
  wellFormed : b.WellFormed
  nodup : ts.Nodup
  others : (b.listings.filter fun x => x.ticket ∉ ts) = b₀.listings
  idle : ∀ t ∈ ts, ∃ u, b.usage? t = some u ∧ u.outstanding = 0
  departed : b.departed = b₀.departed
  due : ∀ t, b.due t = (b₀.skipAll ts).due t

namespace Houses

theorem refl (hb : b.WellFormed) : b.Houses [] b where
  host := hb
  wellFormed := hb
  nodup := .nil
  others := by simp
  idle := by simp
  departed := rfl
  due := fun t => by rw [due_skipAll, List.countP_nil, Nat.add_zero]

theorem publish (h : b₀.Houses ts b) (hp : b.Publishes t b') : b₀.Houses (ts ++ [t]) b' where
  host := h.host
  wellFormed := (hp.adds h.wellFormed).wellFormed
  nodup := by
    refine h.nodup.append (List.nodup_singleton _) fun x hx hxt => ?_
    obtain rfl := List.mem_singleton.mp hxt
    obtain ⟨u, hu, -⟩ := h.idle x hx
    have hissued := h.wellFormed.serial_lt (held?_of_usage? hu)
    have hdue := (hp.adds h.wellFormed).serial
    omega
  others := by
    rw [← h.others, ← hp.filter_listings h.wellFormed, List.filter_filter]
    exact List.filter_congr fun x _ => by simp
  idle := fun x hx => by
    have husage := (hp.adds h.wellFormed).usage? x
    by_cases hxt : x = t
    · exact ⟨.fresh, by rw [husage, if_pos hxt], rfl⟩
    · rw [husage, if_neg hxt]
      exact h.idle x ((List.mem_append.mp hx).resolve_right (by simpa using hxt))
  departed := by
    rw [← h.departed]
    cases hp with
    | interface hr =>
        obtain ⟨-, rfl⟩ := Interfaces.register_ok hr
        rfl
    | advisor k owner priority s => rfl
  due := fun x => by
    rw [hp.due_eq, h.due, due_skipAll, due_skipAll, List.countP_append, List.countP_singleton]
    simp only [decide_eq_true_eq, Nat.add_assoc]

/-- To hide one of them changes only that. -/
theorem hide (h : b₀.Houses ts b) (ht : t ∈ ts) : b₀.Houses ts (b.revise (only [t] Usage.hide)) where
  host := h.host
  wellFormed := h.wellFormed.revise
  nodup := h.nodup
  others := by
    rw [listings_revise, List.filter_map]
    simp only [Function.comp_def, Listing.ticket_revise, h.others]
    refine (List.map_congr_left fun x hx => ?_).trans (List.map_id _)
    rw [← h.others] at hx
    have hout : x.ticket ∉ ts := by simpa using (List.mem_filter.mp hx).2
    have hne : x.ticket ≠ t := fun heq => hout (heq ▸ ht)
    exact Listing.revise_of_eq (by simp [only, hne])
  idle := fun x hx => by
    obtain ⟨u, hu, ho⟩ := h.idle x hx
    refine ⟨only [t] Usage.hide x u, by rw [usage?_revise, hu, Option.map_some], ?_⟩
    rw [only]
    split
    · exact ho
    · exact ho
  departed := by
    obtain ⟨u, hu, -⟩ := h.idle t ht
    exact (h.wellFormed.departed_revise_only hu).trans h.departed
  due := fun x => due_revise.trans (h.due x)

/-- What is left when they have been removed, the last one first, is the broker that there was, but
for the numbers. -/
theorem removeAll (h : b₀.Houses ts b) : b.removeAll ts.reverse = b₀.skipAll ts := by
  have hidle : ∀ t ∈ ts.reverse, ∃ u, b.usage? t = some u ∧ u.outstanding = 0 :=
    fun t ht => h.idle t (List.mem_reverse.mp ht)
  have hlistings : (b.removeAll ts.reverse).listings = b₀.listings := by
    rw [h.wellFormed.listings_removeAll, ← h.others]
    exact List.filter_congr fun x _ => by simp
  refine h.wellFormed.removeAll.wellFormed.eq_of_listings h.host.skip hlistings ?_ fun t => ?_
  · exact (h.wellFormed.departed_removeAll (List.nodup_reverse.mpr h.nodup) hidle).trans h.departed
  · rw [h.wellFormed.removeAll.due, h.due]

/-- When there are none the broker is what it was. -/
theorem eq (h : b₀.Houses [] b) : b = b₀ := by
  refine h.wellFormed.eq_of_listings h.host ?_ h.departed h.due
  rw [← h.others, List.filter_eq_self.mpr (by simp)]

end Houses

end Broker

end Backplane
