import Backplane.Proofs.Registry.Tickets
/-!
# `Backplane.Proofs.Registry.Lookups`: taking references and giving them back

A lease is one reference, a panel one on each of its seats.  Taking either raises the count of every
ticket that it covers by one, and giving it back lowers them again; a lookup that comes to nothing
leaves the broker as it was.

A lease is an `InterfaceRef`, a panel an `AdvisorSnapshot`.
-/
namespace Backplane

namespace Advisors

open Book (only)

variable {alive : ServiceId → Bool} {k : Contract} {r : Advisors} {es : List (Registration Int)}

/-- The serial numbers of seats. -/
def serials (seats : List Seat) : List Nat := seats.map (·.serial)

@[simp] theorem serials_cons (s : Seat) (seats : List Seat) :
    serials (s :: seats) = s.serial :: serials seats :=
  rfl

/-- A registration that gets a seat is open. -/
theorem verdict_seat {e : Registration Int} {u : Usage} (h : verdict alive k e = .seat u) :
    e.usage.retired = false ∧ u = e.usage.raise := by
  rw [verdict] at h
  split at h
  · simp at h
  · split at h
    · simp at h
    · cases ha : e.usage.acquire with
      | none => simp [ha] at h
      | some v =>
          obtain ⟨ho, rfl⟩ := Usage.acquire_eq ha
          simp only [ha, Verdict.seat.injEq] at h
          exact ⟨ho, h.symm⟩

theorem serials_search : (serials (search alive k es).seats).Sublist (es.map (·.serial)) := by
  induction es with
  | nil => exact List.Sublist.slnil
  | cons e es ih =>
      rw [search]
      cases verdict alive k e with
      | pass => exact ih.cons _
      | stop => exact List.nil_sublist _
      | seat u => exact ih.cons_cons _

/-- Whoever has a seat is present and open. -/
theorem mem_serials_search {n : Nat} (h : n ∈ serials (search alive k es).seats) :
    ∃ e ∈ es, e.serial = n ∧ e.usage.retired = false := by
  induction es with
  | nil => simp [search, serials] at h
  | cons e es ih =>
      rw [search] at h
      cases hv : verdict alive k e with
      | pass =>
          rw [hv] at h
          obtain ⟨x, hx, hrest⟩ := ih h
          exact ⟨x, List.mem_cons_of_mem _ hx, hrest⟩
      | stop => simp [hv, serials] at h
      | seat u =>
          rw [hv] at h
          obtain ⟨ho, -⟩ := verdict_seat hv
          rcases List.mem_cons.mp h with rfl | h
          · exact ⟨e, List.mem_cons_self, rfl, ho⟩
          · obtain ⟨x, hx, hrest⟩ := ih h
            exact ⟨x, List.mem_cons_of_mem _ hx, hrest⟩

/-- A search of the list of a capability takes one reference on each seat and none elsewhere. -/
theorem search_entries (hnd : (es.map (·.serial)).Nodup)
    (hown : ∀ e ∈ es, e.contract.capability = k.capability) :
    (search alive k es).entries
      = es.map (.revise (only k.capability (serials (search alive k es).seats) Usage.raise)) := by
  induction es with
  | nil => rfl
  | cons e es ih =>
      rw [List.map_cons, List.nodup_cons] at hnd
      obtain ⟨hc, hown⟩ := List.forall_mem_cons.mp hown
      have hout : e.serial ∉ serials (search alive k es).seats := fun hmem =>
        hnd.1 (serials_search.subset hmem)
      rw [search]
      cases hv : verdict alive k e with
      | pass =>
          have he :
              e.revise (only k.capability (serials (search alive k es).seats) Usage.raise) = e :=
            Registration.revise_of_eq (Book.only_of_notMem hout)
          simp only [List.map_cons, he, ih hnd.2 hown]
      | stop =>
          refine (Book.map_revise_of_eq fun x _ => Book.only_of_notMem ?_).symm
          simp [serials]
      | seat u =>
          obtain ⟨-, rfl⟩ := verdict_seat hv
          have hrest : ∀ ns,
              es.map (Registration.revise (only k.capability (e.serial :: ns) Usage.raise))
              = es.map (Registration.revise (only k.capability ns Usage.raise)) := by
            refine fun ns => Book.map_revise_congr fun x hx => ?_
            have hne : x.serial ≠ e.serial := fun hs => hnd.1 (hs ▸ List.mem_map_of_mem hx)
            simp [only, hne]
          have hhead : ∀ ns, { e with usage := e.usage.raise }
              = e.revise (only k.capability (e.serial :: ns) Usage.raise) := by
            simp [Registration.revise, only, hc]
          rw [List.map_cons]
          exact congrArg₂ List.cons (hhead _) ((ih hnd.2 hown).trans (hrest _).symm)

/-- Seats are given back one after another, if each of them is out. -/
theorem giveBackSeats_eq {c : Capability} {seats : List Seat} (h : r.WellFormed)
    (hnd : (serials seats).Nodup) (hout : ∀ n ∈ serials seats, 0 < r.book.refs c n) :
    giveBackSeats c seats r = (.ok (), r.revise (only c (serials seats) Usage.lower)) := by
  induction seats generalizing r with
  | nil =>
      have hr : r.revise (only c [] Usage.lower) = r := revise_of_eq fun e _ => by simp [only]
      rw [giveBackSeats]
      exact congrArg _ hr.symm
  | cons s seats ih =>
      rw [serials_cons] at hnd hout
      obtain ⟨hnew, hnd'⟩ := List.nodup_cons.mp hnd
      obtain ⟨u, hu, hpos⟩ := Book.held?_of_refs_pos (hout s.serial List.mem_cons_self)
      have hout' : ∀ m ∈ serials seats,
          0 < (r.revise (only c [s.serial] Usage.lower)).book.refs c m := by
        intro m hm
        have hne : m ≠ s.serial := fun hs => hnew (hs ▸ hm)
        have hsame : (r.revise (only c [s.serial] Usage.lower)).book.refs c m
            = r.book.refs c m := by
          rw [Book.refs, book_revise, Book.held?_revise, Book.refs]
          cases r.book.held? c m <;> simp [only, hne]
        rw [hsame]
        exact hout m (List.mem_cons_of_mem _ hm)
      rw [giveBackSeats, h.giveBack_eq hu hpos]
      show giveBackSeats c seats (r.revise (only c [s.serial] Usage.lower)) = _
      rw [ih h.revise hnd' hout', revise_revise]
      congr 2
      funext c' m u
      by_cases hm : m = s.serial
      · simp [only, hm, hnew]
      · simp [only, hm]

section Panel

variable (h : r.WellFormed)

include h

/-- What a search leaves behind: one reference more on each seat. -/
theorem search_taken :
    r.setList k.capability (search alive k (r.listOf k.capability)).entries
      = r.revise (only k.capability (serials (search alive k (r.listOf k.capability)).seats)
          Usage.raise) := by
  rw [search_entries h.listOf_serials fun e he => (h.mem_listOf.mp he).2]
  refine h.setList_revise fun n hn => ?_
  obtain ⟨e, he, hs, -⟩ := mem_serials_search hn
  exact ⟨e, (h.mem_listOf.mp he).1, hs⟩

theorem nodup_serials_search :
    (serials (search alive k (r.listOf k.capability)).seats).Nodup :=
  serials_search.nodup h.listOf_serials

theorem open_of_mem_serials_search {n : Nat}
    (hn : n ∈ serials (search alive k (r.listOf k.capability)).seats) :
    ∃ u, r.book.usage? k.capability n = some u ∧ u.retired = false := by
  obtain ⟨e, he, rfl, ho⟩ := mem_serials_search hn
  obtain ⟨hmem, hc⟩ := h.mem_listOf.mp he
  exact ⟨e.usage, hc ▸ h.book.usage?_of_mem hmem, ho⟩

/-- A panel takes one reference on each of its seats. -/
theorem panel_ok {p : Panel} (hp : (panel alive r k).1 = .ok p) :
    (serials p.seats).Nodup
      ∧ (∀ n ∈ serials p.seats,
          ∃ u, r.book.usage? p.contract.capability n = some u ∧ u.retired = false)
      ∧ (panel alive r k).2 =
        r.revise (only p.contract.capability (serials p.seats) Usage.raise) := by
  rw [panel] at hp ⊢
  cases hm : (search alive k (r.listOf k.capability)).mismatch with
  | true => simp [hm] at hp
  | false =>
      simp only [hm, Bool.false_eq_true, if_false, Except.ok.injEq] at hp ⊢
      subst hp
      exact ⟨nodup_serials_search h, fun n hn => open_of_mem_serials_search h hn, search_taken h⟩

/-- A panel that cannot be had costs nothing. -/
theorem panel_error {e : RegistryError} (hp : (panel alive r k).1 = .error e) :
    (panel alive r k).2 = r := by
  rw [panel] at hp ⊢
  cases hm : (search alive k (r.listOf k.capability)).mismatch with
  | false => simp [hm] at hp
  | true =>
      simp only [if_true]
      rw [search_taken h, giveBackSeats_eq h.revise (nodup_serials_search h), revise_revise]
      · refine revise_of_eq fun e _ => ?_
        simp only [only]
        split
        · exact Usage.lower_raise _
        · rfl
      · intro n hn
        obtain ⟨u, hu, -⟩ := open_of_mem_serials_search h hn
        rw [Book.refs, book_revise, Book.held?_revise, Book.held?_of_usage? hu]
        simp [only, hn, Usage.raise]

end Panel

end Advisors

namespace Interfaces

variable {alive : ServiceId → Bool} {k : Contract} {r r' : Interfaces} {l : Lease}

/-- A lease is taken on a registration of the contract that is alive and open. -/
theorem lease_cases (hl : r.lease alive k = .ok (l, r')) :
    ∃ e ∈ r.entries, e.contract.capability = k.capability ∧ e.contract.shape = k.shape ∧
      alive e.service = true ∧ e.usage.retired = false ∧
      l = ⟨e.contract, e.serial, e.owner, e.service⟩ ∧ r' = r.setUsage e.serial e.usage.raise := by
  rw [lease] at hl
  cases hf : r.find? k.capability with
  | none => simp [hf] at hl
  | some e =>
      have he : e ∈ r.entries := List.mem_of_find?_eq_some hf
      have hc : e.contract.capability = k.capability := by simpa using List.find?_some hf
      simp only [hf] at hl
      split at hl
      · simp at hl
      · next hshape =>
          split at hl
          · simp at hl
          · next halive =>
              cases ha : e.usage.acquire with
              | none => simp [ha] at hl
              | some v =>
                  obtain ⟨ho, rfl⟩ := Usage.acquire_eq ha
                  simp only [ha, Except.ok.injEq, Prod.mk.injEq] at hl
                  exact ⟨e, he, hc, Decidable.not_not.mp hshape, by simpa using halive, ho,
                    hl.1.symm, hl.2.symm⟩

/-- A lease takes one reference. -/
theorem lease_ok (h : r.WellFormed) (hl : r.lease alive k = .ok (l, r')) :
    (∃ u, r.usage? l.contract.capability l.serial = some u ∧ u.retired = false)
      ∧ r' = r.revise (Book.only l.contract.capability [l.serial] Usage.raise) := by
  obtain ⟨e, he, -, -, -, ho, rfl, rfl⟩ := lease_cases hl
  exact ⟨⟨e.usage, h.usage?_of_mem he, ho⟩, h.setUsage_eq (h.present?_of_mem he) rfl⟩

end Interfaces

/-! ## References of either kind -/

/-- The tickets that a reference covers. -/
def Hold.tickets : Hold → List Ticket
  | lease l => [.interface l.contract.capability l.serial]
  | panel p => (Advisors.serials p.seats).map (.advisor p.contract.capability)

namespace Broker

variable {b b' : Broker} {t : Ticket} {h : Hold}

/-- Takes a reference of either kind. -/
inductive Takes (b : Broker) : Hold → Broker → Prop
  | lease {alive : ServiceId → Bool} {k : Contract} {l : Lease} {b' : Broker}
      (h : b.lease alive k = .ok (l, b')) : Takes b (.lease l) b'
  | panel {alive : ServiceId → Bool} {k : Contract} {p : Panel} (h : (b.panel alive k).1 = .ok p) :
      Takes b (.panel p) (b.panel alive k).2

theorem Takes.nodup (hb : b.WellFormed) (ht : b.Takes h b') : h.tickets.Nodup := by
  cases ht with
  | lease hl => exact List.nodup_singleton _
  | panel hp =>
      obtain ⟨hnd, -, -⟩ := Advisors.panel_ok hb.advisors hp
      exact hnd.map fun _ _ heq => (Ticket.advisor.inj heq).2

/-- A lease of a broker is one of its interfaces. -/
theorem lease_cases {alive : ServiceId → Bool} {k : Contract} {l : Lease}
    (hl : b.lease alive k = .ok (l, b')) :
    ∃ i, b.interfaces.lease alive k = .ok (l, i) ∧ b' = { b with interfaces := i } := by
  cases hi : b.interfaces.lease alive k with
  | error e => simp [Broker.lease, hi, Except.map] at hl
  | ok r =>
      simp only [Broker.lease, hi, Except.map, Except.ok.injEq, Prod.mk.injEq] at hl
      obtain ⟨rfl, rfl⟩ := hl
      exact ⟨r.2, rfl, rfl⟩

/-- References are only taken on registrations that are present and open. -/
theorem Takes.hidden? (hb : b.WellFormed) (ht : b.Takes h b') :
    ∀ t ∈ h.tickets, b.hidden? t = some false := by
  cases ht with
  | lease hl =>
      obtain ⟨i, hi, -⟩ := lease_cases hl
      obtain ⟨⟨u, hu, ho⟩, -⟩ := Interfaces.lease_ok hb.interfaces hi
      intro t htl
      rw [List.mem_singleton.mp htl, Broker.hidden?, Broker.usage?, hu, Option.map_some, ho]
  | panel hp =>
      obtain ⟨-, ho, -⟩ := Advisors.panel_ok hb.advisors hp
      intro t htp
      obtain ⟨n, hn, rfl⟩ := List.mem_map.mp htp
      obtain ⟨u, hu, hou⟩ := ho n hn
      rw [Broker.hidden?, Broker.usage?, hu, Option.map_some, hou]

theorem Takes.eq (hb : b.WellFormed) (ht : b.Takes h b') :
    b' = b.revise (only h.tickets Usage.raise) := by
  cases ht with
  | lease hl =>
      obtain ⟨i, hi, rfl⟩ := lease_cases hl
      obtain ⟨-, heq⟩ := Interfaces.lease_ok hb.interfaces hi
      rw [Hold.tickets, revise_only_interface, heq]
  | panel hp =>
      obtain ⟨-, -, heq⟩ := Advisors.panel_ok hb.advisors hp
      rw [Hold.tickets, revise_only_advisor, Broker.panel, heq]

/-- A lookup that comes to nothing leaves the broker as it was. -/
theorem panel_error {alive : ServiceId → Bool} {k : Contract} {e : RegistryError}
    (hb : b.WellFormed) (hp : (b.panel alive k).1 = .error e) : (b.panel alive k).2 = b := by
  rw [panel, Advisors.panel_error hb.advisors hp]

/-- A reference that is out on every ticket it covers can be given back. -/
theorem WellFormed.giveBack_eq (hb : b.WellFormed) (hnd : h.tickets.Nodup)
    (hout : ∀ t ∈ h.tickets, 0 < b.refs t) :
    b.giveBack h = (.ok (), b.revise (only h.tickets Usage.lower)) := by
  cases h with
  | lease l =>
      obtain ⟨u, hu, hpos⟩ := Book.held?_of_refs_pos (hout _ (List.mem_singleton_self _))
      rw [giveBack, hb.interfaces.giveBack_eq hu hpos, Hold.tickets, revise_only_interface]
  | panel p =>
      have hseats : (Advisors.serials p.seats).Nodup := hnd.of_map _
      have hpos : ∀ n ∈ Advisors.serials p.seats, 0 < b.advisors.book.refs p.contract.capability n :=
        fun n hn => hout _ (List.mem_map_of_mem hn)
      rw [giveBack, Advisors.giveBackSeats_eq hb.advisors hseats hpos, Hold.tickets,
        revise_only_advisor]

/-! ## What lookups change -/

theorem hidden?_only {ts : List Ticket} {g : Usage → Usage} (hg : ∀ u, (g u).retired = u.retired) :
    (b.revise (only ts g)).hidden? t = b.hidden? t := by
  rw [hidden?, usage?_revise, hidden?]
  cases b.usage? t with
  | none => rfl
  | some u =>
      simp only [Option.map_some, only]
      split
      · rw [hg]
      · rfl

theorem hidden?_raise {ts : List Ticket} :
    (b.revise (only ts Usage.raise)).hidden? t = b.hidden? t :=
  hidden?_only fun _ => rfl

theorem hidden?_lower {ts : List Ticket} :
    (b.revise (only ts Usage.lower)).hidden? t = b.hidden? t :=
  hidden?_only fun _ => rfl

theorem refs_raise {ts : List Ticket} (ho : ∀ t ∈ ts, b.hidden? t = some false) :
    (b.revise (only ts Usage.raise)).refs t = b.refs t + if t ∈ ts then 1 else 0 := by
  rw [refs_eq, held?_revise, refs_eq]
  by_cases ht : t ∈ ts
  · obtain ⟨u, hu, -⟩ := Option.map_eq_some_iff.mp (ho t ht)
    rw [held?_of_usage? hu]
    simp [only, ht, Usage.raise]
  · cases b.held? t <;> simp [only, ht]

theorem refs_lower {ts : List Ticket} :
    (b.revise (only ts Usage.lower)).refs t = b.refs t - if t ∈ ts then 1 else 0 := by
  rw [refs_eq, held?_revise, refs_eq]
  by_cases ht : t ∈ ts
  · cases b.held? t <;> simp [only, ht, Usage.lower]
  · cases b.held? t <;> simp [only, ht]

end Broker

end Backplane
