import Backplane.Proofs.Registry.Lookups
import Mathlib.Data.List.Perm.Basic
/-!
# `Backplane.Proofs.Registry.Accounting`: counts and the references they stand for

The accounts of a broker are exact if the count of every registration, present or departed, is the
number of references in somebody's hands that cover it.  Every operation on either registry keeps
them exact, so they are so after any dealings whatever.  That is why giving a reference back never
fails, and why whatever can be withdrawn or retired is in nobody's hands.

The broker is the `Broker`, the counts are those of `RefCount`.
-/
namespace Backplane

namespace Broker

variable {b b' : Broker} {t : Ticket} {ts : List Ticket} {h : Hold} {out out' : List Hold}
  {u : Usage}

/-- Counts agree with the references that are out. -/
structure Exact (b : Broker) (out : List Hold) : Prop where
  wellFormed : b.WellFormed
  /-- No reference covers a registration twice. -/
  nodup : ∀ h ∈ out, h.tickets.Nodup
  count : ∀ t, b.refs t = out.countP fun h => t ∈ h.tickets
  /-- Nobody refers to what is retired. -/
  idle : ∀ t u, b.held? t = some u → u.retired = true → u.outstanding = 0

theorem exact_empty : Exact {} [] where
  wellFormed := wellFormed_empty
  nodup := by simp
  count := fun t => by cases t <;> rfl
  idle := fun t u hu => by
    cases t <;> simp [held?, Book.held?, Book.held, Book.usageIn, Advisors.book, Advisors.entries,
      Advisors.flat] at hu

namespace Exact

theorem perm (hx : b.Exact out) (hp : out.Perm out') : b.Exact out' where
  wellFormed := hx.wellFormed
  nodup := fun h hh => hx.nodup h (hp.mem_iff.mpr hh)
  count := fun t => (hx.count t).trans (hp.countP_eq _)
  idle := hx.idle

/-- What is covered by a reference has it in its count. -/
theorem refs_pos (hx : b.Exact out) (hh : h ∈ out) (ht : t ∈ h.tickets) : 0 < b.refs t := by
  rw [hx.count]
  exact List.countP_pos_iff.mpr ⟨h, hh, by simpa using ht⟩

/-- What has no count is covered by no reference. -/
theorem notMem_tickets (hx : b.Exact out) (hr : b.refs t = 0) (hh : h ∈ out) :
    t ∉ h.tickets := fun ht => by
  have := hx.refs_pos hh ht
  omega

theorem publishes (hx : b.Exact out) (hp : b.Publishes t b') : b'.Exact out := by
  have ha := hp.adds hx.wellFormed
  refine ⟨ha.wellFormed, hx.nodup, fun t' => ?_, fun t' u hu hr => ?_⟩
  · rw [← hx.count, refs_eq, ha.held?, refs_eq]
    split
    · next heq =>
        subst heq
        cases hu : b.held? t' with
        | none => rfl
        | some u =>
            -- serial numbers are never used again, so the new registration hides no old count
            have hlt := hx.wellFormed.serial_lt hu
            have hs := ha.serial
            omega
    · rfl
  · rw [ha.held?] at hu
    split at hu
    · rw [← Option.some.inj hu] at hr
      simp [Usage.fresh] at hr
    · exact hx.idle t' u hu hr

theorem takes (hx : b.Exact out) (ht : b.Takes h b') : b'.Exact (h :: out) := by
  have heq := ht.eq hx.wellFormed
  subst heq
  refine ⟨hx.wellFormed.revise, fun x hmem => ?_, fun t => ?_, fun t u hu hr => ?_⟩
  · rcases List.mem_cons.mp hmem with rfl | hmem
    · exact ht.nodup hx.wellFormed
    · exact hx.nodup x hmem
  · rw [refs_raise (ht.hidden? hx.wellFormed), hx.count, List.countP_cons]
    simp
  · rw [held?_revise] at hu
    obtain ⟨v, hv, rfl⟩ := Option.map_eq_some_iff.mp hu
    by_cases hmem : t ∈ h.tickets
    -- only what is visible can be taken, so this one is not retired
    · obtain ⟨w, hw, ho⟩ := Option.map_eq_some_iff.mp (ht.hidden? hx.wellFormed t hmem)
      obtain rfl : w = v := Option.some.inj ((held?_of_usage? hw).symm.trans hv)
      simp [only, hmem, Usage.raise, ho] at hr
    · simp only [only, hmem, if_false] at hr ⊢
      exact hx.idle t v hv hr

theorem giveBack_eq (hx : b.Exact (h :: out)) :
    b.giveBack h = (.ok (), b.revise (only h.tickets Usage.lower)) :=
  hx.wellFormed.giveBack_eq (hx.nodup h List.mem_cons_self) fun _ ht =>
    hx.refs_pos List.mem_cons_self ht

theorem giveBack (hx : b.Exact (h :: out)) : (b.giveBack h).2.Exact out := by
  rw [hx.giveBack_eq]
  refine ⟨hx.wellFormed.revise, fun x hmem => hx.nodup x (List.mem_cons_of_mem _ hmem), fun t => ?_,
    fun t u hu hr => ?_⟩
  · rw [refs_lower, hx.count, List.countP_cons]
    simp
  · rw [held?_revise] at hu
    obtain ⟨v, hv, rfl⟩ := Option.map_eq_some_iff.mp hu
    by_cases hmem : t ∈ h.tickets
    · simp only [only, hmem, if_true, Usage.lower] at hr ⊢
      have := hx.idle t v hv hr
      omega
    · simp only [only, hmem, if_false] at hr ⊢
      exact hx.idle t v hv hr

theorem removes (hx : b.Exact out) (hr : b.Removes ts b') : b'.Exact out where
  wellFormed := hr.wellFormed
  nodup := hx.nodup
  count := fun t => (hr.refs t).trans (hx.count t)
  idle := fun t u hu => hx.idle t u (hr.held? t u hu)

/-- A revision that changes no count keeps the accounts exact, unless it retires what is in use. -/
theorem revise_count (hx : b.Exact out) {g : Usage → Usage}
    (ho : ∀ u, (g u).outstanding = u.outstanding)
    (hg : ∀ u, b.held? t = some u → (g u).retired = true → u.outstanding = 0) :
    (b.revise (only [t] g)).Exact out := by
  refine ⟨hx.wellFormed.revise, hx.nodup, fun t' => ?_, fun t' u hu hr => ?_⟩
  · rw [← hx.count, refs_eq, held?_revise, refs_eq]
    cases b.held? t' with
    | none => rfl
    | some u =>
        simp only [Option.map_some, Option.elim_some, only]
        split
        · exact ho u
        · rfl
  · rw [held?_revise] at hu
    obtain ⟨v, hv, rfl⟩ := Option.map_eq_some_iff.mp hu
    by_cases hmem : t' = t
    · subst hmem
      simp only [only, List.mem_singleton, if_true] at hr ⊢
      rw [ho]
      exact hg v hv hr
    · simp only [only, List.mem_singleton, hmem, if_false] at hr ⊢
      exact hx.idle t' v hv hr

theorem retire (hx : b.Exact out) (hr : b.retire t = .ok b') : b'.Exact out := by
  obtain ⟨u, hu, ho, rfl⟩ := hx.wellFormed.retire_ok hr
  refine hx.revise_count (fun _ => rfl) fun v hv _ => ?_
  obtain rfl : u = v := Option.some.inj ((held?_of_usage? hu).symm.trans hv)
  exact ho

theorem restore (hx : b.Exact out) : (b.restore t).Exact out := by
  rw [hx.wellFormed.restore_eq]
  cases hu : b.usage? t with
  | none => exact hx
  | some u => exact hx.revise_count (fun _ => rfl) fun v _ hr => by simp [Usage.restore] at hr

/-! ## What exact accounts say -/

theorem interface_count (hx : b.Exact out) {e : Registration Unit} (he : e ∈ b.interfaces.held) :
    e.usage.outstanding =
      out.countP fun h => .interface e.contract.capability e.serial ∈ h.tickets := by
  rw [← hx.count, refs_eq, held?, hx.wellFormed.interfaces.held?_of_mem he]
  rfl

theorem advisor_count (hx : b.Exact out) {e : Registration Int} (he : e ∈ b.advisors.held) :
    e.usage.outstanding =
      out.countP fun h => .advisor e.contract.capability e.serial ∈ h.tickets := by
  rw [← hx.count, refs_eq, held?, hx.wellFormed.advisors.book.held?_of_mem he]
  rfl

/-- References outlive the presence of what they refer to, but not its count. -/
theorem held?_isSome (hx : b.Exact out) (hh : h ∈ out) (ht : t ∈ h.tickets) :
    (b.held? t).isSome := by
  have hpos := hx.refs_pos hh ht
  rw [refs_eq] at hpos
  cases hu : b.held? t with
  | none => simp [hu] at hpos
  | some u => rfl

theorem giveBack_ok (hx : b.Exact out) (hh : h ∈ out) : (b.giveBack h).1 = .ok () := by
  rw [(hx.perm (List.perm_cons_erase hh)).giveBack_eq]

/-- Whatever may be withdrawn or retired is in nobody's hands. -/
theorem notMem_of_ok (hx : b.Exact out) (hok : b.withdraw t = .ok b' ∨ b.retire t = .ok b')
    (hh : h ∈ out) :
    t ∉ h.tickets := by
  refine hx.notMem_tickets ?_ hh
  rcases hok with hw | hr
  · obtain ⟨-, u, hu, ho⟩ := hx.wellFormed.withdraw_ok hw
    rw [refs_of_usage? hu, ho]
  · obtain ⟨u, hu, ho, -⟩ := hx.wellFormed.retire_ok hr
    rw [refs_of_usage? hu, ho]

end Exact

end Broker

/-! ## Dealings with a broker -/

/-- One operation on either registry, or the return of a reference in hand. -/
inductive Dealing
  | publishInterface (k : Contract) (owner : String) (service : ServiceId)
  | publishAdvisor (k : Contract) (owner : String) (priority : Int) (service : ServiceId)
  | withdraw (t : Ticket)
  | lease (alive : ServiceId → Bool) (k : Contract)
  | panel (alive : ServiceId → Bool) (k : Contract)
  /-- Gives the reference in the given place back, or drops it. -/
  | giveBack (place : Nat)
  | retire (t : Ticket)
  | restore (t : Ticket)
  | forceRemove (t : Ticket)

/-- A broker, and the references that were taken from it and not given back. -/
structure Ledger where
  broker : Broker := {}
  out : List Hold := []

namespace Ledger

/-- The ledger after an operation that may be refused. -/
def settle (l : Ledger) : Except RegistryError Broker → Ledger
  | .ok broker => { l with broker }
  | .error _ => l

/-- The ledger after one dealing. -/
def step (l : Ledger) : Dealing → Ledger
  | .publishInterface k owner s =>
    l.settle ((l.broker.interfaces.register k owner s).map fun r =>
      { l.broker with interfaces := r.2 })
  | .publishAdvisor k owner priority s =>
    { l with broker :=
      { l.broker with advisors := (l.broker.advisors.register k owner priority s).2 } }
  | .withdraw t => l.settle (l.broker.withdraw t)
  | .lease alive k =>
    match l.broker.lease alive k with
    | .ok (x, broker) => { broker, out := .lease x :: l.out }
    | .error _ => l
  | .panel alive k =>
    match l.broker.panel alive k with
    | (.ok p, broker) => { broker, out := .panel p :: l.out }
    | (.error _, broker) => { l with broker }
  | .giveBack i =>
    match l.out[i]? with
    | some h => { broker := (l.broker.giveBack h).2, out := l.out.eraseIdx i }
    | none => l
  | .retire t => l.settle (l.broker.retire t)
  | .restore t => { l with broker := l.broker.restore t }
  | .forceRemove t => { l with broker := (l.broker.forceRemove t).2 }

/-- The ledger after dealings in order, beginning with empty registries. -/
def after (ds : List Dealing) : Ledger := ds.foldl step {}

variable {l : Ledger} {t : Ticket}

theorem perm_eraseIdx {i : Nat} {h : Hold} (hi : l.out[i]? = some h) :
    l.out.Perm (h :: l.out.eraseIdx i) := by
  obtain ⟨hlt, rfl⟩ := List.getElem?_eq_some_iff.mp hi
  exact (List.getElem_cons_eraseIdx_perm hlt).symm

section Panel

variable {alive : ServiceId → Bool} {k : Contract} {p : Panel} {e : RegistryError}

theorem step_panel_error (hb : l.broker.WellFormed) (hp : (l.broker.panel alive k).1 = .error e) :
    l.step (.panel alive k) = l := by
  have hsame := Broker.panel_error hb hp
  rw [step, show l.broker.panel alive k = (.error e, l.broker) from Prod.ext hp hsame]

theorem step_panel_ok (hp : (l.broker.panel alive k).1 = .ok p) :
    l.step (.panel alive k) = ⟨(l.broker.panel alive k).2, .panel p :: l.out⟩ := by
  rw [step, show l.broker.panel alive k = (.ok p, (l.broker.panel alive k).2) from Prod.ext hp rfl]

end Panel

/-- Every dealing keeps the accounts exact. -/
theorem exact_step (hx : l.broker.Exact l.out) (d : Dealing) :
    (l.step d).broker.Exact (l.step d).out := by
  cases d with
  | publishInterface k owner s =>
      cases hr : l.broker.interfaces.register k owner s with
      | error e => simpa [step, hr, settle, Except.map] using hx
      | ok r =>
          have hp := hx.publishes (.interface hr)
          simpa [step, hr, settle, Except.map] using hp
  | publishAdvisor k owner priority s => exact hx.publishes (.advisor k owner priority s)
  | withdraw t =>
      cases hw : l.broker.withdraw t with
      | error e => simpa [step, hw, settle] using hx
      | ok b =>
          obtain ⟨rfl, -⟩ := hx.wellFormed.withdraw_ok hw
          simpa [step, hw, settle] using hx.removes hx.wellFormed.forceRemove
  | lease alive k =>
      cases hl : l.broker.lease alive k with
      | error e => simpa [step, hl] using hx
      | ok r => simpa [step, hl] using hx.takes (.lease hl)
  | panel alive k =>
      cases hp : (l.broker.panel alive k).1 with
      | error e => rwa [step_panel_error hx.wellFormed hp]
      | ok p =>
          rw [step_panel_ok hp]
          exact hx.takes (.panel hp)
  | giveBack i =>
      cases hi : l.out[i]? with
      -- dealings need not fit the ledger: nothing may be in that place
      | none => simpa [step, hi] using hx
      | some h => simpa [step, hi] using (hx.perm (perm_eraseIdx hi)).giveBack
  | retire t =>
      cases hr : l.broker.retire t with
      | error e => simpa [step, hr, settle] using hx
      | ok b => simpa [step, hr, settle] using hx.retire hr
  | restore t => exact hx.restore
  | forceRemove t => exact hx.removes hx.wellFormed.forceRemove

theorem exact_foldl (hx : l.broker.Exact l.out) (ds : List Dealing) :
    (ds.foldl step l).broker.Exact (ds.foldl step l).out := by
  induction ds generalizing l with
  | nil => exact hx
  | cons d ds ih => exact ih (exact_step hx d)

theorem exact_after (ds : List Dealing) : (after ds).broker.Exact (after ds).out :=
  exact_foldl Broker.exact_empty ds

/-- After any dealings the count of each registration, present or departed, is the number of
references in hand that cover it; none is in hand of one that is retired; every reference can be
given back; and whatever may be withdrawn or retired is in nobody's hands. -/
theorem accounts_balance (ds : List Dealing) :
    let l := after ds
    (∀ e ∈ l.broker.interfaces.held, e.usage.outstanding
        = l.out.countP fun h => .interface e.contract.capability e.serial ∈ h.tickets) ∧
    (∀ e ∈ l.broker.advisors.held, e.usage.outstanding
        = l.out.countP fun h => .advisor e.contract.capability e.serial ∈ h.tickets) ∧
    (∀ h ∈ l.out, h.tickets.Nodup ∧ ∀ t ∈ h.tickets, (l.broker.held? t).isSome) ∧
    (∀ t, l.broker.hidden? t = some true →
      l.broker.outstanding t = some 0 ∧ ∀ h ∈ l.out, t ∉ h.tickets) ∧
    (∀ h ∈ l.out, (l.broker.giveBack h).1 = .ok ()) ∧
    (∀ t b, l.broker.withdraw t = .ok b ∨ l.broker.retire t = .ok b →
      ∀ h ∈ l.out, t ∉ h.tickets) := by
  intro l
  have hx : l.broker.Exact l.out := exact_after ds
  refine ⟨fun e he => hx.interface_count he, fun e he => hx.advisor_count he, ?_, ?_,
    fun h hh => hx.giveBack_ok hh, fun t b hok h hh => hx.notMem_of_ok hok hh⟩
  · exact fun h hh => ⟨hx.nodup h hh, fun t ht => hx.held?_isSome hh ht⟩
  · intro t ht
    obtain ⟨u, hu, hr⟩ := Option.map_eq_some_iff.mp ht
    have hzero : u.outstanding = 0 := hx.idle t u (Broker.held?_of_usage? hu) hr
    refine ⟨by rw [hx.wellFormed.outstanding_eq, hu, Option.map_some, hzero],
      fun h hh => hx.notMem_tickets ?_ hh⟩
    rw [Broker.refs_of_usage? hu, hzero]

end Ledger

end Backplane
