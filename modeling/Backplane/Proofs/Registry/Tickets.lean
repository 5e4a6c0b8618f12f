import Backplane.Proofs.Registry.Filing
import Backplane.Registry.Broker
/-!
# `Backplane.Proofs.Registry.Tickets`: both registries, ticket by ticket

A ticket says which registry it belongs to, so what is known of a book's registrations is known of
the broker's, and every operation on a broker is described once for tickets of either kind: which
registrations are present afterwards, how many references to each are out, and which of them were
removed under a user.

A ticket is a `RegistrationToken`, the registries are those of the `Broker`.
-/
namespace Backplane

/-- The serial number that a ticket was issued with. -/
def Ticket.serial : Ticket → Nat
  | interface _ n => n
  | advisor _ n => n

/-! ## One registry -/

namespace Book

variable {ρ : Type} {r r' : Book ρ} {c c' : Capability} {n m k : Nat} {u : Usage}
  {e : Registration ρ}

/-- The references to a registration that are out, whether it is present or departed. -/
def refs (r : Book ρ) (c : Capability) (n : Nat) : Nat := (r.held? c n).elim 0 Usage.outstanding

theorem refs_of_usage? (h : r.usage? c n = some u) : r.refs c n = u.outstanding := by
  rw [refs, held?_of_usage? h]
  rfl

theorem held?_of_refs_pos (h : 0 < r.refs c n) : ∃ u, r.held? c n = some u ∧ 0 < u.outstanding := by
  rw [refs] at h
  cases hu : r.held? c n with
  | none => simp [hu] at h
  | some u => exact ⟨u, rfl, by simpa [hu] using h⟩

/-- The capability and the serial number of each departed registration. -/
def departures (r : Book ρ) : List (Capability × Nat) :=
  r.departed.map fun e => (e.contract.capability, e.serial)

theorem departures_revise {f : Capability → Nat → Usage → Usage} :
    (r.revise f).departures = r.departures := by
  simp only [departures, revise, List.map_map]
  rfl

/-- A removal by force is an erasure, unless references are out. -/
theorem forceRemove_eq (hp : r.present? c n = some e) :
    (r.forceRemove c n).2 = if e.usage.outstanding = 0 then r.erase n else r.depart e := by
  obtain ⟨-, -, hn⟩ := mem_of_present? hp
  rw [forceRemove, hp]
  simp only [depart, hn]
  cases e.usage.outstanding <;> rfl

theorem retire_eq (h : r.WellFormed) :
    r.retire c n = match r.usage? c n with
      | none => .error (.unknownTicket c)
      | some u =>
        if u.outstanding = 0 then .ok (r.revise (only c [n] Usage.hide))
        else .error (.busy c u.outstanding) := by
  rw [retire, usage?_eq_map]
  cases hp : r.present? c n with
  | none => rfl
  | some e =>
      simp only [Option.map_some, Usage.retire_eq]
      by_cases ho : e.usage.outstanding = 0
      · simp only [ho, if_true, h.setUsage_eq hp (g := Usage.hide) rfl]
      · simp only [ho, if_false]

theorem restore_eq (h : r.WellFormed) :
    r.restore c n = match r.usage? c n with
      | none => r
      | some _ => r.revise (only c [n] Usage.restore) := by
  rw [restore, usage?_eq_map]
  cases hp : r.present? c n with
  | none => rfl
  | some e => exact h.setUsage_eq hp rfl

/-- What removing the registration of a ticket makes of a book, whatever its count. -/
structure Removes (r : Book ρ) (c : Capability) (n : Nat) (r' : Book ρ) : Prop where
  wellFormed : r'.WellFormed
  usage? : ∀ c' m, r'.usage? c' m = if c' = c ∧ m = n then none else r.usage? c' m
  held? : ∀ c' m u, r'.held? c' m = some u → r.held? c' m = some u
  refs : ∀ c' m, r'.refs c' m = r.refs c' m
  nextSerial : r'.nextSerial = r.nextSerial
  departures : ∀ c' m, (c', m) ∈ r'.departures ↔
    (c', m) ∈ r.departures ∨ (c', m) = (c, n) ∧ ∃ u, r.usage? c n = some u ∧ 0 < u.outstanding

/-- Of the tickets with the serial number of a present registration only its own finds it. -/
theorem WellFormed.usage?_of_serial (h : r.WellFormed) (hp : r.present? c n = some e) :
    (if m = n then none else r.usage? c' m) = if c' = c ∧ m = n then none else r.usage? c' m := by
  obtain ⟨he, hc, hn⟩ := mem_of_present? hp
  by_cases hm : m = n
  · by_cases hcc : c' = c
    · simp [hm, hcc]
    · have hnone : r.usage? c' m = none := by
        refine Option.eq_none_iff_forall_ne_some.mpr fun u hu => ?_
        obtain ⟨x, hx, hxc, hxm, -⟩ := mem_of_usageIn hu
        have hxe : x = e := eq_of_serial h.entries_serials hx he (by rw [hxm, hm, hn])
        exact hcc (by rw [← hxc, ← hc, hxe])
      simp [hm, hcc, ← hnone]
  · simp [hm]

/-- Under the serial number of a present registration no other references are out than its own. -/
theorem WellFormed.refs_le (h : r.WellFormed) (he : e ∈ r.held) :
    r.refs c e.serial ≤ e.usage.outstanding := by
  rw [refs]
  cases hu : r.held? c e.serial with
  | none => simp
  | some u =>
      obtain ⟨x, hx, -, hxs, rfl⟩ := mem_of_usageIn hu
      rw [eq_of_serial h.serials hx he hxs]
      exact Nat.le_refl _

theorem WellFormed.removes_erase (h : r.WellFormed) (hp : r.present? c n = some e)
    (ho : e.usage.outstanding = 0) : r.Removes c n (r.erase n) := by
  obtain ⟨he, -, rfl⟩ := mem_of_present? hp
  refine ⟨h.erase, fun c' m => usage?_erase.trans (h.usage?_of_serial hp), fun c' m u hu => ?_,
    fun c' m => ?_, rfl, fun c' m => ?_⟩
  · rw [h.held?_erase hp] at hu
    split at hu
    · simp at hu
    · exact hu
  · rw [refs, h.held?_erase hp]
    split
    · next hm =>
        have hle := h.refs_le (c := c') (List.mem_append_left _ he)
        rw [hm]
        simp only [Option.elim_none]
        omega
    · rfl
  · have hu : r.usage? c e.serial = some e.usage := by rw [usage?_eq_map, hp]; rfl
    simp [hu, ho, departures, Book.erase]

theorem WellFormed.removes_depart (h : r.WellFormed) (hp : r.present? c n = some e)
    (ho : 0 < e.usage.outstanding) : r.Removes c n (r.depart e) := by
  obtain ⟨-, rfl, rfl⟩ := mem_of_present? hp
  have hu : r.usage? e.contract.capability e.serial = some e.usage := by rw [usage?_eq_map, hp]; rfl
  refine ⟨h.depart hp, fun c' m => ?_, fun c' m u hu => ?_, fun c' m => ?_, rfl, fun c' m => ?_⟩
  · rw [usage?_depart, h.usage?_of_serial hp]
  · exact (h.held?_depart hp).symm.trans hu
  · rw [refs, h.held?_depart hp, refs]
  · simp [departures, Book.depart, hu, ho]

theorem WellFormed.forceRemove (h : r.WellFormed) : r.Removes c n (r.forceRemove c n).2 := by
  cases hp : r.present? c n with
  | none =>
      have hu : r.usage? c n = none := by rw [usage?_eq_map, hp]; rfl
      have heq : (r.forceRemove c n).2 = r := by rw [Book.forceRemove, hp]
      rw [heq]
      refine ⟨h, fun c' m => ?_, fun _ _ _ hs => hs, fun _ _ => rfl, rfl, fun c' m => by simp [hu]⟩
      split
      · next hcm => rw [hcm.1, hcm.2, hu]
      · rfl
  | some e =>
      rw [forceRemove_eq hp]
      split
      · next ho => exact h.removes_erase hp ho
      · next ho => exact h.removes_depart hp (Nat.pos_of_ne_zero ho)

/-- A registration that can be withdrawn is one that could have been removed by force all the
same. -/
theorem unregister_eq :
    r.unregister c n = match r.outstanding c n with
      | none => .error (.unknownTicket c)
      | some m => if m = 0 then .ok (r.forceRemove c n).2 else .error (.busy c m) := by
  rw [unregister, outstanding]
  cases hp : r.present? c n with
  | none => rfl
  | some e =>
      simp only [Option.map_some, Usage.retire_eq]
      by_cases ho : e.usage.outstanding = 0
      · simp only [ho, if_true, forceRemove_eq hp]
      · simp only [ho, if_false]

theorem forceRemove_fst : (r.forceRemove c n).1 = r.outstanding c n := by
  rw [forceRemove, outstanding]
  cases r.present? c n with
  | none => rfl
  | some e =>
      simp only [Option.map_some]
      split <;> simp [*]

/-! ## Registering in one registry -/

/-- What one registration more makes of a book. -/
structure Adds (r : Book ρ) (c : Capability) (n : Nat) (r' : Book ρ) : Prop where
  wellFormed : r'.WellFormed
  usage? : ∀ c' m, r'.usage? c' m = if c' = c ∧ m = n then some .fresh else r.usage? c' m
  held? : ∀ c' m, r'.held? c' m = if c' = c ∧ m = n then some .fresh else r.held? c' m
  serial : n = r.nextSerial
  nextSerial : r'.nextSerial = r.nextSerial + 1
  departures : r'.departures = r.departures

theorem WellFormed.adds_withNew (h : r.WellFormed) {es : List (Registration ρ)}
    (hp : es.Perm (e :: r.entries)) (hs : e.serial = r.nextSerial) (hu : e.usage = .fresh) :
    r.Adds e.contract.capability e.serial (r.withNew es) where
  wellFormed := h.withNew hp hs
  usage? := fun c' m => by rw [h.usage?_withNew hp hs, hu]
  held? := fun c' m => by rw [h.held?_withNew hp hs, hu]
  serial := hs
  nextSerial := rfl
  departures := rfl

end Book

theorem Interfaces.register_adds {r r' : Interfaces} {k : Contract} {owner : String}
    {s : ServiceId} {n : Nat} (h : r.WellFormed) (hr : r.register k owner s = .ok (n, r')) :
    Book.Adds r k.capability n r' := by
  rw [register] at hr
  split at hr
  · simp at hr
  · simp only [Except.ok.injEq, Prod.mk.injEq] at hr
    obtain ⟨rfl, rfl⟩ := hr
    exact Book.WellFormed.adds_withNew
      (e := { rank := (), serial := r.nextSerial, contract := k, owner, service := s })
      h (List.perm_append_singleton _ _) rfl rfl

/-- A capability is free unless there is a registration of it. -/
theorem Interfaces.register_ok_iff {r : Interfaces} {k : Contract} {owner : String} {s : ServiceId} :
    (∃ x, r.register k owner s = .ok x) ↔ ∀ n, r.usage? k.capability n = none := by
  rw [register]
  cases hf : r.find? k.capability with
  | none =>
      simp only [Except.ok.injEq, exists_eq', true_iff]
      intro n
      rw [Book.usage?_eq_map, Option.map_eq_none_iff]
      refine List.find?_eq_none.mpr fun e he hn => ?_
      simpa [(Registration.isNamed_iff.mp hn).1] using List.find?_eq_none.mp hf e he
  | some e =>
      simp only [reduceCtorEq, exists_false, false_iff, not_forall]
      have hc : e.contract.capability = k.capability := by simpa using List.find?_some hf
      refine ⟨e.serial, fun hnone => ?_⟩
      rw [Book.usage?_eq_map, Option.map_eq_none_iff] at hnone
      have hnot := List.find?_eq_none.mp hnone e (List.mem_of_find?_eq_some hf)
      exact hnot (Registration.isNamed_iff.mpr ⟨hc, rfl⟩)

namespace Advisors

variable {r : Advisors} {c : Capability} {n : Nat}

namespace WellFormed

theorem register_adds (h : r.WellFormed) (k : Contract) (owner : String) (priority : Int)
    (s : ServiceId) :
    Book.Adds r.book k.capability (r.register k owner priority s).1
      (r.register k owner priority s).2.book :=
  Book.WellFormed.adds_withNew h.book h.entries_register rfl rfl

/-- What is removed by force is removed from the book of all. -/
theorem book_forceRemove (h : r.WellFormed) :
    (r.forceRemove c n).2.book = (r.book.forceRemove c n).2 := by
  rw [Advisors.forceRemove, h.present?_eq, Book.forceRemove]
  cases hp : r.book.present? c n with
  | none => rfl
  | some e =>
      have herase := h.book_erase hp
      simp only
      cases e.usage.outstanding with
      | zero => exact herase
      | succ m =>
          exact congrArg (fun b : Book Int => { b with departed := r.departed ++ [e] }) herase

theorem forceRemove (h : r.WellFormed) : (r.forceRemove c n).2.WellFormed where
  filed := by
    rw [Advisors.forceRemove]
    cases r.present? c n with
    | none => exact h.filed
    | some e =>
        simp only
        cases e.usage.outstanding <;> exact h.filed_erase
  book := by
    rw [h.book_forceRemove]
    exact h.book.forceRemove.wellFormed

theorem forceRemove_removes (h : r.WellFormed) :
    r.book.Removes c n (r.forceRemove c n).2.book :=
  h.book_forceRemove ▸ h.book.forceRemove

end WellFormed

theorem forceRemove_fst : (r.forceRemove c n).1 = r.outstanding c n := by
  rw [forceRemove, outstanding]
  cases r.present? c n with
  | none => rfl
  | some e =>
      simp only [Option.map_some]
      split <;> simp [*]

theorem unregister_eq :
    r.unregister c n = match r.outstanding c n with
      | none => .error (.unknownTicket c)
      | some m => if m = 0 then .ok (r.forceRemove c n).2 else .error (.busy c m) := by
  rw [unregister, outstanding, forceRemove]
  cases r.present? c n with
  | none => rfl
  | some e =>
      simp only [Option.map_some, Usage.retire_eq]
      by_cases ho : e.usage.outstanding = 0
      · simp only [ho, if_true]
      · simp only [ho, if_false]

end Advisors

/-! ## Both registries -/

namespace Broker

variable {b b' : Broker} {t t' : Ticket} {u : Usage}

/-- Whether both registries are well-formed. -/
structure WellFormed (b : Broker) : Prop where
  interfaces : b.interfaces.WellFormed
  advisors : b.advisors.WellFormed

theorem wellFormed_empty : WellFormed {} := ⟨Book.wellFormed_empty, Advisors.wellFormed_empty⟩

/-- How the registration of a ticket is used, if it is present. -/
def usage? (b : Broker) : Ticket → Option Usage
  | .interface c n => b.interfaces.usage? c n
  | .advisor c n => b.advisors.book.usage? c n

/-- How the registration of a ticket is used, present or departed. -/
def held? (b : Broker) : Ticket → Option Usage
  | .interface c n => b.interfaces.held? c n
  | .advisor c n => b.advisors.book.held? c n

/-- The references to the registration of a ticket that are out, present or departed. -/
def refs (b : Broker) : Ticket → Nat
  | .interface c n => b.interfaces.refs c n
  | .advisor c n => b.advisors.book.refs c n

/-- Whether the registration of a ticket is retired, if it is present. -/
def hidden? (b : Broker) (t : Ticket) : Option Bool := (b.usage? t).map Usage.retired

/-- The next serial number in the registry of a ticket. -/
def due (b : Broker) : Ticket → Nat
  | .interface _ _ => b.interfaces.nextSerial
  | .advisor _ _ => b.advisors.nextSerial

/-- The tickets of the registrations that were removed while references to them were out. -/
def departures (b : Broker) : List Ticket :=
  b.interfaces.departures.map (fun x => .interface x.1 x.2)
    ++ b.advisors.book.departures.map (fun x => .advisor x.1 x.2)

theorem mem_departures_interface {c : Capability} {n : Nat} :
    .interface c n ∈ b.departures ↔ (c, n) ∈ b.interfaces.departures := by
  simp [departures]

theorem mem_departures_advisor {c : Capability} {n : Nat} :
    .advisor c n ∈ b.departures ↔ (c, n) ∈ b.advisors.book.departures := by
  simp [departures]

theorem refs_eq : b.refs t = (b.held? t).elim 0 Usage.outstanding := by
  cases t <;> rfl

theorem held?_of_usage? (h : b.usage? t = some u) : b.held? t = some u := by
  cases t <;> exact Book.held?_of_usage? h

theorem refs_of_usage? (h : b.usage? t = some u) : b.refs t = u.outstanding := by
  cases t <;> exact Book.refs_of_usage? h

theorem WellFormed.outstanding_eq (h : b.WellFormed) :
    b.outstanding t = (b.usage? t).map Usage.outstanding := by
  cases t with
  | interface c n => exact Book.outstanding_eq
  | advisor c n => exact h.advisors.outstanding_eq

theorem WellFormed.serial_lt (h : b.WellFormed) (hu : b.held? t = some u) : t.serial < b.due t := by
  cases t with
  | interface c n => exact h.interfaces.lt_of_held? hu
  | advisor c n => exact h.advisors.book.lt_of_held? hu

/-! ## Publishing -/

/-- What one registration more makes of a broker. -/
structure Adds (b : Broker) (t : Ticket) (b' : Broker) : Prop where
  wellFormed : b'.WellFormed
  usage? : ∀ t', b'.usage? t' = if t' = t then some .fresh else b.usage? t'
  held? : ∀ t', b'.held? t' = if t' = t then some .fresh else b.held? t'
  serial : t.serial = b.due t
  due : ∀ t', b.due t' ≤ b'.due t'
  next : t.serial < b'.due t
  departures : b'.departures = b.departures

/-- A registration made in either registry. -/
inductive Publishes (b : Broker) : Ticket → Broker → Prop
  | interface {k : Contract} {owner : String} {s : ServiceId} {n : Nat} {i : Interfaces}
      (h : b.interfaces.register k owner s = .ok (n, i)) :
      Publishes b (.interface k.capability n) { b with interfaces := i }
  | advisor (k : Contract) (owner : String) (priority : Int) (s : ServiceId) :
      Publishes b (.advisor k.capability (b.advisors.register k owner priority s).1)
        { b with advisors := (b.advisors.register k owner priority s).2 }

theorem Publishes.adds (h : b.WellFormed) (hp : b.Publishes t b') : b.Adds t b' := by
  cases hp with
  | @interface k owner s n i hr =>
      have ha := Interfaces.register_adds h.interfaces hr
      refine ⟨⟨ha.wellFormed, h.advisors⟩, ?_, ?_, ha.serial, ?_, ?_, ?_⟩
      · rintro (⟨c', m⟩ | ⟨c', m⟩) <;> simp [usage?, ha.usage?]
      · rintro (⟨c', m⟩ | ⟨c', m⟩) <;> simp [held?, ha.held?]
      · rintro (⟨c', m⟩ | ⟨c', m⟩) <;> simp [due, ha.nextSerial]
      · simp [due, Ticket.serial, ha.nextSerial, ha.serial]
      · simp [departures, ha.departures]
  | advisor k owner priority s =>
      have ha := h.advisors.register_adds k owner priority s
      have hnext : (b.advisors.register k owner priority s).2.nextSerial
        = b.advisors.nextSerial + 1 := rfl
      refine ⟨⟨h.interfaces, h.advisors.register⟩, ?_, ?_, ha.serial, ?_, ?_, ?_⟩
      · rintro (⟨c', m⟩ | ⟨c', m⟩) <;> simp [usage?, ha.usage?]
      · rintro (⟨c', m⟩ | ⟨c', m⟩) <;> simp [held?, ha.held?]
      · rintro (⟨c', m⟩ | ⟨c', m⟩) <;> simp [due, hnext]
      · exact Nat.lt_succ_self _
      · simp [departures, ha.departures]

/-! ## Removing -/

/-- What removing the registrations of tickets makes of a broker, whatever their counts. -/
structure Removes (b : Broker) (ts : List Ticket) (b' : Broker) : Prop where
  wellFormed : b'.WellFormed
  usage? : ∀ t, b'.usage? t = if t ∈ ts then none else b.usage? t
  held? : ∀ t u, b'.held? t = some u → b.held? t = some u
  refs : ∀ t, b'.refs t = b.refs t
  due : ∀ t, b'.due t = b.due t
  departures : ∀ t, t ∈ b'.departures ↔
    t ∈ b.departures ∨ t ∈ ts ∧ ∃ u, b.usage? t = some u ∧ 0 < u.outstanding

theorem WellFormed.forceRemove (h : b.WellFormed) : b.Removes [t] (b.forceRemove t).2 := by
  cases t with
  | interface c n =>
      have hr := h.interfaces.forceRemove (c := c) (n := n)
      refine ⟨⟨hr.wellFormed, h.advisors⟩, ?_, ?_, ?_, ?_, ?_⟩
      · rintro (⟨c', m⟩ | ⟨c', m⟩) <;> simp [Broker.forceRemove, usage?, hr.usage?]
      · rintro (⟨c', m⟩ | ⟨c', m⟩) u hu
        · exact hr.held? c' m u hu
        · exact hu
      · rintro (⟨c', m⟩ | ⟨c', m⟩) <;> simp [Broker.forceRemove, refs, hr.refs]
      · rintro (⟨c', m⟩ | ⟨c', m⟩) <;> simp [Broker.forceRemove, due, hr.nextSerial]
      · rintro (⟨c', m⟩ | ⟨c', m⟩)
        · simp only [mem_departures_interface, Broker.forceRemove, hr.departures, usage?,
            Prod.mk.injEq, List.mem_singleton, Ticket.interface.injEq]
          constructor <;> (rintro (hd | ⟨⟨rfl, rfl⟩, hk⟩) <;> simp_all)
        · simp [mem_departures_advisor, Broker.forceRemove]
  | advisor c n =>
      have hr := h.advisors.forceRemove_removes (c := c) (n := n)
      have hnext : (b.advisors.forceRemove c n).2.nextSerial = b.advisors.nextSerial :=
        hr.nextSerial
      refine ⟨⟨h.interfaces, h.advisors.forceRemove⟩, ?_, ?_, ?_, ?_, ?_⟩
      · rintro (⟨c', m⟩ | ⟨c', m⟩) <;> simp [Broker.forceRemove, usage?, hr.usage?]
      · rintro (⟨c', m⟩ | ⟨c', m⟩) u hu
        · exact hu
        · exact hr.held? c' m u hu
      · rintro (⟨c', m⟩ | ⟨c', m⟩) <;> simp [Broker.forceRemove, refs, hr.refs]
      · rintro (⟨c', m⟩ | ⟨c', m⟩) <;> simp [Broker.forceRemove, due, hnext]
      · rintro (⟨c', m⟩ | ⟨c', m⟩)
        · simp [mem_departures_interface, Broker.forceRemove]
        · simp only [mem_departures_advisor, Broker.forceRemove, hr.departures, usage?,
            Prod.mk.injEq, List.mem_singleton, Ticket.advisor.injEq]
          constructor <;> (rintro (hd | ⟨⟨rfl, rfl⟩, hk⟩) <;> simp_all)

theorem WellFormed.removes_nil (h : b.WellFormed) : b.Removes [] b :=
  ⟨h, by simp, by simp, by simp, by simp, by simp⟩

theorem Removes.trans {b'' : Broker} {ts ts' : List Ticket} (h : b.Removes ts b')
    (h' : b'.Removes ts' b'') :
    b.Removes (ts ++ ts') b'' where
  wellFormed := h'.wellFormed
  usage? := fun t => by
    rw [h'.usage?, h.usage?]
    by_cases ht : t ∈ ts <;> simp [ht]
  held? := fun t u hu => h.held? t u (h'.held? t u hu)
  refs := fun t => (h'.refs t).trans (h.refs t)
  due := fun t => (h'.due t).trans (h.due t)
  departures := fun t => by
    rw [h'.departures, h.departures, h.usage?]
    by_cases ht : t ∈ ts
    · simp [ht]
    · by_cases ht' : t ∈ ts' <;> simp [ht, ht']

/-- Removes the registrations of tickets in order, whatever their counts. -/
def removeAll (b : Broker) (ts : List Ticket) : Broker :=
  ts.foldl (fun b t => (b.forceRemove t).2) b

theorem WellFormed.removeAll {ts : List Ticket} (h : b.WellFormed) :
    b.Removes ts (b.removeAll ts) := by
  induction ts generalizing b with
  | nil => exact h.removes_nil
  | cons t ts ih =>
      have hone := h.forceRemove (t := t)
      exact hone.trans (ih hone.wellFormed)

/-- A removal by force answers how many references were out. -/
theorem forceRemove_fst : (b.forceRemove t).1 = b.outstanding t := by
  cases t with
  | interface c n => exact Book.forceRemove_fst
  | advisor c n => exact Advisors.forceRemove_fst

/-- A withdrawal is a removal by force that is not made while references are out. -/
theorem withdraw_eq :
    b.withdraw t = match b.outstanding t with
      | none => .error (.unknownTicket t.capability)
      | some m =>
        if m = 0 then .ok (b.forceRemove t).2 else .error (.busy t.capability m) := by
  cases t with
  | interface c n =>
      rw [withdraw, onInterfaces, Book.unregister_eq, outstanding]
      cases b.interfaces.outstanding c n with
      | none => rfl
      | some m => simp only; split <;> rfl
  | advisor c n =>
      rw [withdraw, onAdvisors, Advisors.unregister_eq, outstanding]
      cases b.advisors.outstanding c n with
      | none => rfl
      | some m => simp only; split <;> rfl

theorem forceRemove_of_withdraw (hw : b.withdraw t = .ok b') : b' = (b.forceRemove t).2 := by
  rw [withdraw_eq] at hw
  cases hm : b.outstanding t with
  | none => simp [hm] at hw
  | some m =>
      by_cases ho : m = 0
      · simp only [hm, ho, if_true, Except.ok.injEq] at hw
        exact hw.symm
      · simp [hm, ho] at hw

theorem WellFormed.forceRemove_fst (h : b.WellFormed) :
    (b.forceRemove t).1 = (b.usage? t).map Usage.outstanding :=
  Broker.forceRemove_fst.trans h.outstanding_eq

theorem WellFormed.withdraw_eq (h : b.WellFormed) :
    b.withdraw t = match b.usage? t with
      | none => .error (.unknownTicket t.capability)
      | some u =>
        if u.outstanding = 0 then .ok (b.forceRemove t).2
        else .error (.busy t.capability u.outstanding) := by
  rw [Broker.withdraw_eq, h.outstanding_eq]
  cases b.usage? t <;> rfl

theorem WellFormed.withdraw_ok (h : b.WellFormed) (hw : b.withdraw t = .ok b') :
    b' = (b.forceRemove t).2 ∧ ∃ u, b.usage? t = some u ∧ u.outstanding = 0 := by
  refine ⟨forceRemove_of_withdraw hw, ?_⟩
  rw [h.withdraw_eq] at hw
  cases hu : b.usage? t with
  | none => simp [hu] at hw
  | some u =>
      by_cases ho : u.outstanding = 0
      · exact ⟨u, rfl, ho⟩
      · simp [hu, ho] at hw

/-- What nobody refers to can be withdrawn. -/
theorem WellFormed.withdraw_idle (h : b.WellFormed) (hu : b.usage? t = some u)
    (ho : u.outstanding = 0) : b.withdraw t = .ok (b.forceRemove t).2 := by
  rw [h.withdraw_eq, hu]
  simp [ho]

/-- A withdrawal is not made under a user. -/
theorem withdraw_departures (h : b.WellFormed) (hw : b.withdraw t = .ok b') :
    t' ∈ b'.departures ↔ t' ∈ b.departures := by
  obtain ⟨rfl, u, hu, ho⟩ := h.withdraw_ok hw
  rw [h.forceRemove.departures]
  refine ⟨?_, Or.inl⟩
  rintro (hd | ⟨hmem, v, hv, hpos⟩)
  · exact hd
  · rw [List.mem_singleton.mp hmem, hu] at hv
    rw [← Option.some.inj hv, ho] at hpos
    exact absurd hpos (Nat.lt_irrefl 0)

/-! ## Revising usages -/

/-- The broker with the usages of its registrations revised, those of departed ones too. -/
def revise (b : Broker) (f : Ticket → Usage → Usage) : Broker where
  interfaces := b.interfaces.revise fun c n => f (.interface c n)
  advisors := b.advisors.revise fun c n => f (.advisor c n)

section Revise

variable {f g : Ticket → Usage → Usage}

theorem WellFormed.revise (h : b.WellFormed) : (b.revise f).WellFormed :=
  ⟨h.interfaces.revise, h.advisors.revise⟩

theorem usage?_revise : (b.revise f).usage? t = (b.usage? t).map (f t) := by
  cases t with
  | interface c n => exact Book.usage?_revise
  | advisor c n => rw [usage?, revise, Advisors.book_revise, Book.usage?_revise, usage?]

theorem held?_revise : (b.revise f).held? t = (b.held? t).map (f t) := by
  cases t with
  | interface c n => exact Book.held?_revise
  | advisor c n => rw [held?, revise, Advisors.book_revise, Book.held?_revise, held?]

theorem due_revise : (b.revise f).due t = b.due t := by
  cases t <;> rfl

theorem departures_revise : (b.revise f).departures = b.departures := by
  simp only [departures, revise, Advisors.book_revise, Book.departures_revise]

theorem revise_revise : (b.revise f).revise g = b.revise fun t u => g t (f t u) := by
  simp only [revise, Book.revise_revise, Advisors.revise_revise]

theorem revise_id : (b.revise fun _ u => u) = b := by
  simp [revise, Book.revise_of_eq, Advisors.revise_of_eq]

/-- A revision that leaves every usage as it is leaves the broker as it is. -/
theorem WellFormed.revise_eq_self (h : b.WellFormed) (hf : ∀ t, (b.revise f).held? t = b.held? t) :
    b.revise f = b := by
  have hi : b.interfaces.revise (fun c n => f (.interface c n)) = b.interfaces := by
    refine Book.revise_of_eq fun e he => ?_
    have hu : b.held? (.interface e.contract.capability e.serial) = some e.usage :=
      h.interfaces.held?_of_mem he
    simpa [held?_revise, hu] using hf (.interface e.contract.capability e.serial)
  have ha : b.advisors.revise (fun c n => f (.advisor c n)) = b.advisors := by
    refine Advisors.revise_of_eq fun e he => ?_
    have hu : b.held? (.advisor e.contract.capability e.serial) = some e.usage :=
      h.advisors.book.held?_of_mem he
    simpa [held?_revise, hu] using hf (.advisor e.contract.capability e.serial)
  rw [Broker.revise, hi, ha]

end Revise

/-- Revises only the usages of some tickets. -/
def only (ts : List Ticket) (g : Usage → Usage) (t : Ticket) (u : Usage) : Usage :=
  if t ∈ ts then g u else u

theorem revise_only_interface {c : Capability} {n : Nat} {g : Usage → Usage} :
    b.revise (only [.interface c n] g) =
      { b with interfaces := b.interfaces.revise (Book.only c [n] g) } := by
  have ha : b.advisors.revise (fun c' m => only [.interface c n] g (.advisor c' m)) = b.advisors :=
    Advisors.revise_of_eq fun e _ => by simp [only]
  rw [revise, ha]
  congr 2
  funext c' m u
  simp [only, Book.only]

theorem revise_only_advisor {c : Capability} {ns : List Nat} {g : Usage → Usage} :
    b.revise (only (ns.map (.advisor c)) g) =
      { b with advisors := b.advisors.revise (Book.only c ns g) } := by
  have hi : b.interfaces.revise (fun c' m => only (ns.map (.advisor c)) g (.interface c' m)) =
      b.interfaces :=
    Book.revise_of_eq fun e _ => by simp [only]
  rw [revise, hi]
  congr 2
  funext c' m u
  simp only [only, Book.only, List.mem_map, Ticket.advisor.injEq]
  by_cases hc : c' = c
  · simp [hc]
  · simp [hc, Ne.symm hc]

theorem revise_only_seat {c : Capability} {n : Nat} {g : Usage → Usage} :
    b.revise (only [.advisor c n] g) =
      { b with advisors := b.advisors.revise (Book.only c [n] g) } :=
  @revise_only_advisor b c [n] g

/-! ## Retiring -/

theorem WellFormed.retire_eq (h : b.WellFormed) :
    b.retire t = match b.usage? t with
      | none => .error (.unknownTicket t.capability)
      | some u =>
        if u.outstanding = 0 then .ok (b.revise (only [t] Usage.hide))
        else .error (.busy t.capability u.outstanding) := by
  cases t with
  | interface c n =>
      rw [retire, onInterfaces, Book.retire_eq h.interfaces, revise_only_interface, usage?]
      cases b.interfaces.usage? c n with
      | none => rfl
      | some u => simp only; split <;> rfl
  | advisor c n =>
      rw [retire, onAdvisors, h.advisors.retire_eq, usage?, revise_only_seat]
      cases b.advisors.book.usage? c n with
      | none => rfl
      | some u => simp only; split <;> rfl

theorem WellFormed.retire_ok (h : b.WellFormed) (hr : b.retire t = .ok b') :
    ∃ u, b.usage? t = some u ∧ u.outstanding = 0 ∧ b' = b.revise (only [t] Usage.hide) := by
  rw [h.retire_eq] at hr
  cases hu : b.usage? t with
  | none => simp [hu] at hr
  | some u =>
      by_cases ho : u.outstanding = 0
      · simp only [hu, ho, if_true, Except.ok.injEq] at hr
        exact ⟨u, rfl, ho, hr.symm⟩
      · simp [hu, ho] at hr

theorem WellFormed.restore_eq (h : b.WellFormed) :
    b.restore t = match b.usage? t with
      | none => b
      | some _ => b.revise (only [t] Usage.restore) := by
  cases t with
  | interface c n =>
      rw [restore, Book.restore_eq h.interfaces, usage?]
      cases b.interfaces.usage? c n with
      | none => rfl
      | some u => exact revise_only_interface.symm
  | advisor c n =>
      rw [restore, h.advisors.restore_eq, usage?]
      cases b.advisors.book.usage? c n with
      | none => rfl
      | some u => exact revise_only_seat.symm

end Broker

end Backplane
