import Backplane.Environment.Perform
import Backplane.Proofs.Distinct
/-!
# `Backplane.Proofs.Environment.Claims`: claims are exclusive, and given back

Whatever others have claimed, an operation claims either all of the modules that it names or none.
To claim them one after another comes to the same as to look first whether one of them is claimed by
another (`claimAll`), which is what most proofs go by.

A claim is `InFlight`.
-/
namespace Backplane

/-- Claims modules together: none of them may be claimed by another.  Yields what is claimed then, or
the first module that stands in the way. -/
def claimAll (claims : List String) (names : List String) : Except String (List String) :=
  match names.find? claims.contains with
  | some name => .error name
  | none => .ok (claims ++ distinct names)

variable {held names taken : List String} {name : String}

theorem unclaim_append (h : ∀ x ∈ taken, x ∉ held) : unclaim (held ++ taken) taken = held := by
  have hkept : held.filter (fun c => !taken.contains c) = held :=
    List.filter_eq_self.mpr fun c hc => by simpa using fun ht => h c ht hc
  have hgone : taken.filter (fun c => !taken.contains c) = [] :=
    List.filter_eq_nil_iff.mpr fun c hc => by simpa using hc
  rw [unclaim, List.filter_append, hkept, hgone, List.append_nil]

/-- It does not matter how often modules are named. -/
theorem unclaim_distinct (claims : List String) :
    unclaim claims (distinct names) = unclaim claims names :=
  List.filter_congr fun c _ => by simp [mem_distinct]

theorem claimAll_ok {after : List String} (h : claimAll held names = .ok after) :
    after = held ++ distinct names ∧ ∀ x ∈ names, x ∉ held := by
  rw [claimAll] at h
  cases hf : names.find? held.contains with
  | some x =>
      rw [hf] at h
      exact nomatch h
  | none =>
      simp only [hf, Except.ok.injEq] at h
      exact ⟨h.symm, fun x hx => by simpa using List.find?_eq_none.mp hf x hx⟩

/-- Taking back what was claimed leaves what was claimed before. -/
theorem unclaim_claimAll {after : List String} (h : claimAll held names = .ok after) :
    unclaim after names = held := by
  obtain ⟨rfl, hfree⟩ := claimAll_ok h
  rw [← unclaim_distinct]
  exact unclaim_append fun x hx => hfree x (mem_distinct.mp hx)

namespace Claim

/-- What an operation has taken besides what others hold. -/
def besides (held taken : List String) : Claim := { claims := held ++ taken, taken }

theorem besides_nil : besides held [] = { claims := held } := by rw [besides, List.append_nil]

theorem giveBack_besides (h : ∀ x ∈ taken, x ∉ held) :
    (besides held taken).giveBack = { claims := held } :=
  congrArg (Claim.mk · []) (unclaim_append h)

theorem take_besides : (besides held taken).take name =
    if name ∈ taken then some (besides held taken)
    else if name ∈ held then none
    else some (besides held (taken ++ [name])) := by
  by_cases ht : name ∈ taken <;> by_cases hh : name ∈ held <;> simp [take, besides, ht, hh]

/-- The modules named that an operation has not taken yet. -/
def untaken (taken names : List String) : List String :=
  (distinct names).filter fun x => x ∉ taken

theorem untaken_nil : untaken [] names = distinct names :=
  List.filter_eq_self.mpr fun x _ => by simp

theorem untaken_cons_of_mem (h : name ∈ taken) : untaken taken (name :: names) = untaken taken names := by
  rw [untaken, distinct, List.filter_cons_of_neg (by simpa using h), List.filter_filter]
  refine List.filter_congr fun x _ => ?_
  by_cases hx : x = name <;> simp [hx, h]

theorem untaken_cons_of_notMem (h : name ∉ taken) :
    untaken taken (name :: names) = name :: untaken (taken ++ [name]) names := by
  rw [untaken, distinct, List.filter_cons_of_pos (by simpa using h), List.filter_filter]
  exact congrArg _ (List.filter_congr fun x _ => by simp)

/-- An operation goes no further than the first module that another has claimed, and otherwise takes
those that it has not taken yet. -/
theorem takeAll_besides (h : ∀ x ∈ taken, x ∉ held) :
    takeAll names (besides held taken) = match names.find? held.contains with
      | some name => (.error name, { claims := held })
      | none => (.ok (), besides held (taken ++ untaken taken names)) := by
  induction names generalizing taken with
  | nil => simp [takeAll, untaken, distinct]
  | cons name rest ih =>
      rw [takeAll, take_besides]
      by_cases htaken : name ∈ taken
      · have hfree : name ∉ held := h name htaken
        simp only [htaken, if_true, ih h, untaken_cons_of_mem]
        simp [hfree]
      · by_cases hheld : name ∈ held
        · simp [htaken, hheld, giveBack_besides h]
        · have hnext : ∀ x ∈ taken ++ [name], x ∉ held := by
            simpa [or_imp, forall_and, hheld] using h
          simp only [htaken, hheld, if_false, ih hnext, untaken_cons_of_notMem htaken]
          simp [hheld]

/-- Claiming modules one after another comes to the same as claiming them together. -/
theorem takeAll_eq : takeAll names { claims := held } = match claimAll held names with
    | .error name => (.error name, { claims := held })
    | .ok claims => (.ok (), { claims, taken := distinct names }) := by
  rw [← besides_nil, takeAll_besides (List.forall_mem_nil _), claimAll, untaken_nil]
  cases names.find? held.contains with
  | some name => rw [besides_nil]
  | none => rfl

end Claim

/-- A call made from a hook leaves the claims as they are, whether it is refused or waits. -/
theorem Environment.tryClaim_eq {env : Environment} :
    env.tryClaim names = (match claimAll env.claims names with
      | .error name => .failed (.inFlight name)
      | .ok _ => .blocked, env) := by
  rw [tryClaim, Claim.takeAll_eq]
  cases h : claimAll env.claims names with
  | error name => rfl
  | ok claims =>
      have hback : unclaim claims (distinct names) = env.claims :=
        (unclaim_distinct claims).trans (unclaim_claimAll h)
      exact congrArg (fun c => (LifecycleReply.blocked, { env with claims := c })) hback

end Backplane
