import Backplane.Proofs.Registry.Guests
/-!
# `Backplane.Proofs.Registry.Sojourns`: registrations that are used and go

While a registration is there, references may be taken on it and on others, and given back, in any
order.  All that changes counts, and counts are nothing of their own: they are the references that
are out (`Exact.recount_eq`).  So once nobody refers to the registration any longer it can be
withdrawn, and then the broker is the one before, with the counts that the references now out make,
and with one number gone.  If the same references are out as before, nothing that can be asked of a
broker tells that anything has happened.

A reference is an `InterfaceRef`, or one on each advisor of an `AdvisorSnapshot`.
-/
namespace Backplane

namespace Broker

variable {b b' : Broker} {t : Ticket} {out out' : List Hold} {f : Ticket → Usage → Usage}

/-! ## Counting anew -/

/-- The broker with the counts that references make. -/
def recount (b : Broker) (out : List Hold) : Broker :=
  b.revise fun t u => { u with outstanding := out.countP fun h => t ∈ h.tickets }

theorem Exact.recount_eq (hx : b.Exact out) : b.recount out = b := by
  refine hx.wellFormed.revise_eq_self fun t => ?_
  rw [held?_revise]
  cases hu : b.held? t with
  | none => rfl
  | some u =>
      have hcount : u.outstanding = out.countP fun h => t ∈ h.tickets := by
        rw [← hx.count, refs_eq, hu, Option.elim_some]
      rw [Option.map_some, ← hcount]

/-- To count anew takes back whatever has been done to counts. -/
theorem recount_revise (hf : ∀ t u, (f t u).retired = u.retired) :
    (b.revise f).recount out = b.recount out := by
  simp only [recount, revise_revise, hf]

theorem recount_perm (hp : out.Perm out') : b.recount out = b.recount out' := by
  simp only [recount, hp.countP_eq]

theorem retired_only {ts : List Ticket} {g : Usage → Usage} (hg : ∀ u, (g u).retired = u.retired)
    (t : Ticket) (u : Usage) : (only ts g t u).retired = u.retired := by
  rw [only]
  split
  · exact hg u
  · rfl

/-! ## Brokers that look alike -/

/-- Whether whatever is asked of two brokers has the same answer: what is registered and by whom,
how many references are out, what lookups yield, in which order advisors stand, and how many exclusive
registrations and capabilities with advisors there are. -/
structure Alike (b b' : Broker) : Prop where
  contains : ∀ c, b'.interfaces.contains c = b.interfaces.contains c
  provider : ∀ c, b'.interfaces.ownerOf c = b.interfaces.ownerOf c
  outstandingOf : ∀ c, b'.interfaces.outstandingOf c = b.interfaces.outstandingOf c
  owner : ∀ t, b'.ownerOf t = b.ownerOf t
  outstanding : ∀ t, b'.outstanding t = b.outstanding t
  lease : ∀ alive k, (b'.lease alive k).map Prod.fst = (b.lease alive k).map Prod.fst
  panel : ∀ alive k, (b'.panel alive k).1 = (b.panel alive k).1
  order : ∀ c, b'.advisors.listOf c = b.advisors.listOf c
  count : ∀ c, b'.advisors.count c = b.advisors.count c
  interfaces : b'.interfaces.size = b.interfaces.size
  advisors : b'.advisors.size = b.advisors.size

/-- Numbers that have been passed over cannot be seen. -/
theorem alike_skip (exclusive advisory : Nat) : b.Alike (b.skip exclusive advisory) where
  contains := fun _ => rfl
  provider := fun _ => rfl
  outstandingOf := fun _ => rfl
  owner := fun t => by cases t <;> rfl
  outstanding := fun t => by cases t <;> rfl
  lease := fun alive k => by
    rw [lease_skip]
    cases b.lease alive k <;> rfl
  panel := fun alive k => by rw [panel_skip]
  order := fun _ => rfl
  count := fun _ => rfl
  interfaces := rfl
  advisors := rfl

/-! ## Withdrawing -/

/-- What nobody refers to is withdrawn, and then the broker is the one before it was made, with the
counts of now. -/
theorem Houses.withdraw_recount {b₀ : Broker} (h : b₀.Houses [t] b)
    (hidle : ∀ x ∈ out, t ∉ x.tickets) :
    (b.recount out).withdraw t = .ok ((b₀.recount out).skipAll [t]) := by
  obtain ⟨u, hu, -⟩ := h.idle t List.mem_cons_self
  have hzero : (out.countP fun x => t ∈ x.tickets) = 0 := by simpa using hidle
  have husage : (b.recount out).usage? t = some { u with outstanding := 0 } := by
    rw [recount, usage?_revise, hu, Option.map_some, hzero]
  have hwf : (b.recount out).WellFormed := h.wellFormed.revise
  rw [hwf.withdraw_idle husage rfl]
  refine congrArg Except.ok
    (hwf.forceRemove.wellFormed.eq_of_listings h.host.revise.skip ?_ ?_ fun x => ?_)
  · have hothers : (b.listings.filter fun x => x.ticket ≠ t) = b₀.listings := by
      rw [← h.others]
      simp only [List.mem_singleton]
    show _ = (b₀.recount out).listings
    rw [hwf.listings_forceRemove, recount, listings_revise, List.filter_map]
    simp only [Function.comp_def, Listing.ticket_revise, hothers]
    exact listings_revise.symm
  · show _ = (b₀.recount out).departed
    rw [hwf.departed_forceRemove_idle husage rfl, recount, departed_revise, h.departed]
    exact departed_revise.symm
  · rw [hwf.forceRemove.due, recount, due_revise, h.due, due_skipAll, due_skipAll]
    exact congrArg (· + _) due_revise.symm

end Broker

/-! ## Use -/

/-- Whether a dealing takes references or gives one back, and does nothing else. -/
def Dealing.IsUse : Dealing → Prop
  | .lease _ _ => True
  | .panel _ _ => True
  | .giveBack _ => True
  | _ => False

namespace Ledger

variable {l : Ledger} {t : Ticket} {b : Broker} {ds uses : List Dealing} {d : Dealing}
  {out : List Hold}

/-- Use changes counts alone. -/
theorem recount_step (hx : l.broker.Exact l.out) (hd : d.IsUse) :
    (l.step d).broker.recount out = l.broker.recount out := by
  cases d with
  | lease alive k =>
      cases hl : l.broker.lease alive k with
      | error e => simp [step, hl]
      | ok r =>
          have htaken := (Broker.Takes.lease hl).eq hx.wellFormed
          simp only [step, hl, htaken]
          exact Broker.recount_revise (Broker.retired_only fun _ => rfl)
  | panel alive k =>
      cases hp : (l.broker.panel alive k).1 with
      | error e => rw [step_panel_error hx.wellFormed hp]
      | ok p =>
          rw [step_panel_ok hp, (Broker.Takes.panel hp).eq hx.wellFormed]
          exact Broker.recount_revise (Broker.retired_only fun _ => rfl)
  | giveBack i =>
      cases hi : l.out[i]? with
      | none => simp [step, hi]
      | some h =>
          have hgiven := (hx.perm (perm_eraseIdx hi)).giveBack_eq
          simp only [step, hi, hgiven]
          exact Broker.recount_revise (Broker.retired_only fun _ => rfl)
  | _ => exact hd.elim

/-- However long something is used, what the references make of its counts is all there is to it. -/
theorem recount_foldl (hx : l.broker.Exact l.out) (huses : ∀ d ∈ uses, d.IsUse) :
    (uses.foldl step l).broker.recount out = l.broker.recount out := by
  induction uses generalizing l with
  | nil => rfl
  | cons d uses ih =>
      obtain ⟨hd, huses⟩ := List.forall_mem_cons.mp huses
      exact (ih (exact_step hx d) huses).trans (recount_step hx hd)

/-- Whether a registration that has just been made leaves no trace.  In whatever way it is used,
every reference can be given back; and when nobody refers to it any longer it can be withdrawn, and
all looks as it did before, but for the counts of what else has been taken or given back
meanwhile. -/
def LeavesNoTrace (l : Ledger) (t : Ticket) (b : Broker) : Prop :=
  ∀ uses : List Dealing, (∀ d ∈ uses, d.IsUse) →
    let used := uses.foldl step { l with broker := b }
    (∀ h ∈ used.out, (used.broker.giveBack h).1 = .ok ()) ∧
    ((∀ h ∈ used.out, t ∉ h.tickets) →
      ∃ b', used.broker.withdraw t = .ok b' ∧ (l.broker.recount used.out).Alike b' ∧
        (used.out.Perm l.out → l.broker.Alike b'))

theorem leavesNoTrace (hx : l.broker.Exact l.out) (hp : l.broker.Publishes t b) :
    l.LeavesNoTrace t b := by
  intro uses huses used
  have hmade : ({ l with broker := b } : Ledger).broker.Exact l.out := hx.publishes hp
  have hused : used.broker.Exact used.out := exact_foldl hmade uses
  have hcounts : used.broker = b.recount used.out :=
    hused.recount_eq.symm.trans (recount_foldl hmade huses)
  have hhouses : l.broker.Houses [t] b := (Broker.Houses.refl hx.wellFormed).publish hp
  refine ⟨fun h hh => hused.giveBack_ok hh, fun hidle =>
    ⟨(l.broker.recount used.out).skipAll [t], ?_, Broker.alike_skip _ _, fun hsame => ?_⟩⟩
  · rw [hcounts]
    exact hhouses.withdraw_recount hidle
  · rw [Broker.recount_perm hsame, hx.recount_eq]
    exact Broker.alike_skip _ _

/-- After any dealings an exclusive service can be registered whose capability is free, and an
advisor of any priority; and whatever is registered so leaves no trace once it has been used, by any
number of references taken and given back in any order, and is withdrawn. -/
theorem sojourn_traceless (ds : List Dealing) (k : Contract) (owner : String) (s : ServiceId) :
    let l := after ds
    (l.broker.interfaces.contains k.capability = false →
      ∃ n i, l.broker.interfaces.register k owner s = .ok (n, i) ∧
        l.LeavesNoTrace (.interface k.capability n) { l.broker with interfaces := i }) ∧
    ∀ priority,
      let r := l.broker.advisors.register k owner priority s
      l.LeavesNoTrace (.advisor k.capability r.1) { l.broker with advisors := r.2 } := by
  intro l
  have hx : l.broker.Exact l.out := exact_after ds
  refine ⟨fun hfree => ?_, fun priority => leavesNoTrace hx (.advisor k owner priority s)⟩
  have hnone : l.broker.interfaces.find? k.capability = none := by
    simpa [Interfaces.contains] using hfree
  cases hr : l.broker.interfaces.register k owner s with
  | error e => simp [Interfaces.register, hnone] at hr
  | ok r => exact ⟨r.1, r.2, rfl, leavesNoTrace hx (.interface hr)⟩

/-- Between two advisors, one of whom somebody refers to all the while, a third comes and goes. -/
example :
    let everybody : Dealing := .panel (fun _ => true) .killPoints
    let before := [.publishAdvisor .killPoints "first" 0 0, everybody,
      .publishAdvisor .killPoints "last" 9 1]
    let stay := [.publishAdvisor .killPoints "guest" 5 2, everybody, everybody, .giveBack 1,
      .giveBack 0, .withdraw (.advisor Contract.killPoints.capability 3)]
    (after (before ++ stay)).broker.advisors.lists = (after before).broker.advisors.lists :=
  rfl

end Ledger

end Backplane
