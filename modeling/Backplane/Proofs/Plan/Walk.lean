import Backplane.Proofs.Plan.Verdict
/-!
# `Backplane.Proofs.Plan.Walk`: the circle that is reported

If some things cannot be put in order, a walk from the first of them along needs that are stuck
looks for a circle to report.

| the walk       |                                                               |
| :------------- | :------------------------------------------------------------ |
| goes on        | whatever is left when the ordering stops has a need that is left |
| ends           | its path never has a thing twice, and there are only so many  |
| finds a circle | it ends where it meets its path, and goes round from there    |

So the bound on its length that the walk is given makes no difference: it closes before that.

The walk is `find_cycle`.
-/
namespace Backplane

/-- Whether things lead from each to the next, and from the last to the first. -/
structure Circle {α : Type} (R : α → α → Prop) (xs : List α) : Prop where
  once : xs.Nodup
  filled : xs ≠ []
  chain : xs.IsChain R
  back : R (xs.getLast filled) (xs.head filled)

theorem Circle.map {α β : Type} {R : α → α → Prop} {S : β → β → Prop} {xs : List α} {f : α → β}
    (h : Circle R xs) (hinj : ∀ x ∈ xs, ∀ y ∈ xs, f x = f y → x = y)
    (hRS : ∀ x y, R x y → S (f x) (f y)) : Circle S (xs.map f) where
  once := (List.nodup_map_iff_inj_on h.once).mpr hinj
  filled := fun hnil => h.filled (List.map_eq_nil_iff.mp hnil)
  chain := List.isChain_map_of_isChain f hRS h.chain
  back := by
    rw [List.getLast_map, List.head_map]
    exact hRS _ _ h.back

namespace Order

variable {needs : List (List Nat)} {p : Progress} {next : Nat → Option Nat} {path cycle : List Nat}
  {current i j n bound : Nat}

/-! ## Walks -/

/-- Whether a walk closes after a number of steps: at each it goes on to something new, and the last
one meets its path.  There is no bound to it, and no other way out. -/
inductive Closes (next : Nat → Option Nat) : List Nat → Nat → Nat → List Nat → Prop
  | meets {path : List Nat} {current j : Nat} (hnext : next current = some j) (hj : j ∈ path) :
      Closes next path current 1 (path.dropWhile (· ≠ j))
  | goesOn {path cycle : List Nat} {current j n : Nat} (hnext : next current = some j)
      (hj : j ∉ path) (h : Closes next (path ++ [j]) j n cycle) :
      Closes next path current (n + 1) cycle

/-- A walk that closes yields the circle, whatever greater number of steps it is given. -/
theorem Closes.walk_eq (h : Closes next path current n cycle) (hn : n ≤ bound) :
    walk next bound path current = cycle := by
  induction h generalizing bound with
  | @meets path current j hnext hj =>
      obtain ⟨b, rfl⟩ : ∃ b, bound = b + 1 := ⟨bound - 1, by omega⟩
      rw [walk, hnext]
      simp [hj]
  | @goesOn path cycle current j n hnext hj h ih =>
      obtain ⟨b, rfl⟩ : ∃ b, bound = b + 1 := ⟨bound - 1, by omega⟩
      rw [walk, hnext]
      simp only [List.contains_eq_mem, hj, decide_false, Bool.false_eq_true, if_false]
      exact ih (by omega)

theorem length_le_of_lt {xs : List Nat} (hnd : xs.Nodup) (hlt : ∀ i ∈ xs, i < bound) :
    xs.length ≤ bound := by
  have hsub : xs ⊆ List.range bound := fun i hi => List.mem_range.mpr (hlt i hi)
  have hle := (List.subperm_of_subset hnd hsub).length_le
  rwa [List.length_range] at hle

/-- A walk among finitely many things, each of which leads on to another of them, closes. -/
theorem exists_closes {P : Nat → Prop} (hbound : ∀ i, P i → i < bound)
    (hnext : ∀ i, P i → ∃ j, next i = some j ∧ P j) (hpath : ∀ i ∈ path, P i) (hnd : path.Nodup)
    (hcur : P current) : ∃ n cycle, n + path.length ≤ bound + 1 ∧ Closes next path current n cycle := by
  have hroom : path.length ≤ bound := length_le_of_lt hnd fun i hi => hbound i (hpath i hi)
  induction hk : bound - path.length using Nat.strong_induction_on generalizing path current with
  | _ k ih =>
      obtain ⟨j, hj, hPj⟩ := hnext current hcur
      by_cases hin : j ∈ path
      · exact ⟨1, _, by omega, .meets hj hin⟩
      · have hlen : (path ++ [j]).length = path.length + 1 := by simp
        have hpath' : ∀ i ∈ path ++ [j], P i :=
          List.forall_mem_append.mpr ⟨hpath, List.forall_mem_singleton.mpr hPj⟩
        have hnd' : (path ++ [j]).Nodup := by simpa using hnd.concat hin
        -- with one thing more on the path there is less that could come
        have hroom' : (path ++ [j]).length ≤ bound :=
          length_le_of_lt hnd' fun i hi => hbound i (hpath' i hi)
        obtain ⟨n, cycle, hn, hclose⟩ := ih _ (by omega) hpath' hnd' hPj hroom' rfl
        exact ⟨n + 1, cycle, by omega, .goesOn hj hin hclose⟩

theorem head?_dropWhile_ne (hj : j ∈ path) : (path.dropWhile (· ≠ j)).head? = some j := by
  induction path with
  | nil => simp at hj
  | cons i path ih =>
      by_cases hij : i = j
      · simp [hij]
      · have hrest : j ∈ path := (List.mem_cons.mp hj).resolve_left (Ne.symm hij)
        rw [List.dropWhile_cons_of_pos (by simpa using hij)]
        exact ih hrest

/-- Where a walk closes it has gone round a circle, all of which lies on its path. -/
theorem Closes.circle {R : Nat → Nat → Prop} {P : Nat → Prop}
    (hnext : ∀ i j, next i = some j → R i j ∧ P j) (h : Closes next path current n cycle)
    (hlast : path.getLast? = some current) (hnd : path.Nodup) (hchain : path.IsChain R)
    (hpath : ∀ i ∈ path, P i) : Circle R cycle ∧ ∀ i ∈ cycle, P i := by
  induction h with
  | @meets path current j hj hin =>
      have hsuffix : path.dropWhile (· ≠ j) <:+ path := List.dropWhile_suffix _
      have hhead := head?_dropWhile_ne hin
      have hfilled : path.dropWhile (· ≠ j) ≠ [] := by
        intro hnil
        rw [hnil] at hhead
        cases hhead
      have hend : (path.dropWhile (· ≠ j)).getLast hfilled = current := by
        have hsame := hsuffix.getLast hfilled
        rw [hsame]
        exact Option.some.inj ((List.getLast?_eq_getLast_of_ne_nil _).symm.trans hlast)
      have hbegin : (path.dropWhile (· ≠ j)).head hfilled = j :=
        Option.some.inj ((List.head?_eq_some_head hfilled).symm.trans hhead)
      refine ⟨⟨hsuffix.sublist.nodup hnd, hfilled, hchain.suffix hsuffix, ?_⟩, ?_⟩
      · rw [hend, hbegin]
        exact (hnext current j hj).1
      · intro i hi
        exact hpath i (hsuffix.subset hi)
  | @goesOn path cycle current j n hj hout h ih =>
      obtain ⟨hR, hP⟩ := hnext current j hj
      have hchain' : (path ++ [j]).IsChain R := by
        refine hchain.append (List.isChain_singleton j) ?_
        intro x hx y hy
        obtain rfl : current = x := Option.some.inj (hlast.symm.trans hx)
        obtain rfl : j = y := by simpa using hy
        exact hR
      have hpath' : ∀ i ∈ path ++ [j], P i :=
        List.forall_mem_append.mpr ⟨hpath, List.forall_mem_singleton.mpr hP⟩
      exact ih (by simp) (by simpa using hnd.concat hout) hchain' hpath'

/-! ## What is left when the ordering stops -/

namespace Progress

theorem Exact.stuck_iff (hp : p.Exact needs) :
    p.stuck i = true ↔ i < needs.length ∧ ∃ j ∈ needs.getD i [], j ∉ p.order := by
  rw [Progress.stuck, decide_eq_true_eq]
  by_cases hi : i < needs.length
  · rw [hp.pending i hi, List.length_pos_iff_exists_mem]
    simp [mem_lacking, hi]
  · have hout : p.pending.length ≤ i := by
      rw [hp.length]
      omega
    rw [List.getD_eq_getElem?_getD, List.getElem?_eq_none hout]
    simp [hi]

/-- When nothing more may come, whatever has not come is stuck. -/
theorem Exact.stuck_of_notMem (hp : p.Exact needs) (hready : p.ready = []) (hj : j < needs.length)
    (hout : j ∉ p.order) : p.stuck j = true := by
  refine hp.stuck_iff.mpr ⟨hj, ?_⟩
  by_contra hnone
  have hmet : Met needs p.order j := by
    intro k hk
    by_contra hkout
    exact hnone ⟨k, hk, hkout⟩
  have hcome : j ∈ p.ready := (hp.ready j).mpr ⟨hj, hout, hmet⟩
  simp [hready] at hcome

/-- And it needs something that is stuck. -/
theorem Exact.nextStuck (hw : WellPosed needs) (hp : p.Exact needs) (hready : p.ready = [])
    (hi : p.stuck i = true) : ∃ j, nextStuck needs p i = some j ∧ p.stuck j = true := by
  obtain ⟨-, j, hj, hout⟩ := hp.stuck_iff.mp hi
  have hstuck : p.stuck j = true := hp.stuck_of_notMem hready (hw.known i j hj) hout
  have hfound : ((needs.getD i []).find? p.stuck).isSome = true :=
    List.find?_isSome.mpr ⟨j, hj, hstuck⟩
  obtain ⟨k, hk⟩ := Option.isSome_iff_exists.mp hfound
  exact ⟨k, hk, List.find?_some hk⟩

/-- Something is stuck unless everything is in order. -/
theorem Exact.exists_stuck (hp : p.Exact needs) (hready : p.ready = [])
    (hlen : p.order.length < needs.length) :
    ∃ i, (List.range needs.length).find? p.stuck = some i := by
  refine Option.isSome_iff_exists.mp (List.find?_isSome.mpr ?_)
  by_contra hnone
  have hsub : List.range needs.length ⊆ p.order := by
    intro j hj
    by_contra hout
    exact hnone ⟨j, hj, hp.stuck_of_notMem hready (List.mem_range.mp hj) hout⟩
  have hle := (List.subperm_of_subset List.nodup_range hsub).length_le
  rw [List.length_range] at hle
  omega

end Progress

/-! ## The search -/

/-- Whether the search for a circle among what could not be put in order finds one after a number of
steps: it sets out from the first thing that is stuck, and its walk closes. -/
def Finds (needs : List (List Nat)) (steps : Nat) (cycle : List Nat) : Prop :=
  ∃ i, (List.range needs.length).find? (Progress.final needs).stuck = some i ∧
    Closes (nextStuck needs (Progress.final needs)) [i] i steps cycle

/-- If there is no order, what stands in its way is a circle, and the search has found it. -/
theorem resolve_error (hw : WellPosed needs) (h : resolve needs = .error cycle) :
    Circle (Needs needs) cycle ∧ (∀ i ∈ cycle, i < needs.length) ∧
      ∃ steps, steps ≤ needs.length ∧ Finds needs steps cycle := by
  have hexact := Progress.final_exact hw
  let p := Progress.final needs
  by_cases hlen : p.order.length < needs.length
  · have hready : p.ready = [] := Progress.ready_steps _ (hlen.trans_eq (Nat.zero_add _).symm)
    have hcycle : Order.cycle needs p = cycle := by
      simp only [resolve] at h
      rw [if_pos hlen] at h
      exact Except.error.inj h
    obtain ⟨i, hi⟩ := hexact.exists_stuck hready hlen
    have hone : ∀ k ∈ [i], p.stuck k = true :=
      List.forall_mem_singleton.mpr (List.find?_some hi)
    have hbound : ∀ k, p.stuck k = true → k < needs.length := fun k hk =>
      (hexact.stuck_iff.mp hk).1
    obtain ⟨steps, cycle', hsteps, hcloses⟩ :=
      exists_closes hbound (fun k hk => hexact.nextStuck hw hready hk) hone (List.nodup_singleton i)
        (List.find?_some hi)
    have hle : steps ≤ needs.length := by
      rw [List.length_singleton] at hsteps
      omega
    obtain rfl : cycle' = cycle := by
      rw [← hcycle, Order.cycle, hi]
      exact (hcloses.walk_eq hle).symm
    have hstep : ∀ a b, nextStuck needs p a = some b → Needs needs a b ∧ p.stuck b = true := by
      intro a b hab
      exact ⟨List.mem_of_find?_eq_some hab, List.find?_some hab⟩
    obtain ⟨hcircle, hmem⟩ :=
      hcloses.circle hstep rfl (List.nodup_singleton i) (List.isChain_singleton i) hone
    exact ⟨hcircle, fun k hk => hbound k (hmem k hk), steps, hle, i, hi, hcloses⟩
  · simp only [resolve] at h
    rw [if_neg hlen] at h
    cases h

end Order

/-! ## The report -/

variable {depot : Depot} {loaded names : List String} {m : Manifest} {located : List PlannedModule}

theorem Plan.arrange_cycle (h : arrange loaded located = .error (.cycle names)) :
    ∃ cycle, Order.resolve (located.map (needs (located.map (·.name)))) = .error cycle ∧
      names = cycle.filterMap ((located.map (·.name))[·]?) := by
  simp only [arrange] at h
  cases hm : missing? (located.map (·.name)) loaded located with
  | some e =>
      simp only [hm, Except.error.injEq] at h
      subst h
      -- what is missing is reported as missing
      obtain ⟨p, -, hp⟩ := List.exists_of_findSome?_eq_some hm
      obtain ⟨x, -, hx⟩ := Option.map_eq_some_iff.mp hp
      cases hx
  | none =>
      simp only [hm] at h
      cases hr : Order.resolve (located.map (needs (located.map (·.name)))) with
      | ok order => simp [hr] at h
      | error cycle =>
          simp only [hr, Except.error.injEq, PlanError.cycle.injEq] at h
          exact ⟨cycle, rfl, h.symm⟩

/-- The error that names a circle names modules of the manifest, each once, of which each depends on
the next, and the last on the first.  It was found by a walk that closed after at most as many steps
as there are declarations. -/
theorem Plan.make_cycle (h : (Plan.make depot loaded m).result = .error (.cycle names)) :
    Circle (m.DependsOn depot) names ∧ names ⊆ m.names ∧
    ∃ located steps cycle, List.Forall₂ (Located depot) m.modules located ∧
      steps ≤ m.modules.length ∧
      Order.Finds (located.map (Plan.needs m.names)) steps cycle ∧
      names.map some = cycle.map (m.names[·]?) := by
  rw [make] at h
  cases hf : fault? loaded [] m.modules with
  | some e =>
      simp only [hf, Except.error.injEq] at h
      obtain ⟨before, d, after, -, -, hfails⟩ := fault?_eq_some hf
      rw [h] at hfails
      cases hfails
  | none =>
      simp only [hf] at h
      cases hl : (locateAll depot m.modules).result with
      | error e =>
          simp only [hl, Except.bind, Except.error.injEq] at h
          obtain ⟨before, d, after, -, -, hlacks⟩ := locateAll_error hl
          rw [h] at hlacks
          cases hlacks
      | ok located =>
          simp only [hl, Except.bind] at h
          have hall := locateAll_ok hl
          have hnames := Located.names_eq hall
          have hn : (located.map (·.name)).Nodup := hnames ▸ (fault?_eq_none hf).1
          obtain ⟨cycle, hresolve, rfl⟩ := arrange_cycle h
          obtain ⟨hcircle, hlt, steps, hsteps, hfinds⟩ :=
            Order.resolve_error (wellPosed hn (Located.all_once hall)) hresolve
          -- a number on the circle is the number of a module
          let name (i : Nat) : String := (located.map (·.name)).getD i ""
          have hlt' : ∀ i ∈ cycle, i < (located.map (·.name)).length := by
            intro i hi
            have hi' := hlt i hi
            rwa [List.length_map] at hi' ⊢
          have hget : ∀ i ∈ cycle, (located.map (·.name))[i]? = some (name i) := by
            intro i hi
            rw [List.getElem?_eq_getElem (hlt' i hi)]
            simp only [name, List.getD_eq_getElem?_getD, List.getElem?_eq_getElem (hlt' i hi),
              Option.getD_some]
          have hmap : cycle.filterMap ((located.map (·.name))[·]?) = cycle.map name :=
            List.filterMap_eq_map_iff_forall_eq_some.mpr hget
          have hlen : (located.map (Plan.needs (located.map (·.name)))).length = m.modules.length := by
            rw [List.length_map]
            exact hall.length_eq.symm
          rw [hmap]
          refine ⟨hcircle.map ?_ ?_, ?_, located, steps, cycle, hall, ?_, ?_, ?_⟩
          · intro i hi j hj heq
            have hsame : (located.map (·.name))[i]? = (located.map (·.name))[j]? := by
              rw [hget i hi, hget j hj, heq]
            exact (List.getElem?_inj (hlt' i hi) hn).mp hsame
          · intro i j hij
            obtain ⟨p, hp, q, hq, hneed⟩ := (mem_needs hn).mp hij
            have hpi : name i = p.name := by simp [name, hp]
            have hqj : name j = q.name := by simp [name, hq]
            rw [hpi, hqj]
            exact (Located.dependsOn_iff hall).mpr
              ⟨p, List.mem_of_getElem? hp, rfl, q, List.mem_of_getElem? hq, rfl, hneed⟩
          · intro x hx
            obtain ⟨i, hi, rfl⟩ := List.mem_map.mp hx
            exact hnames ▸ List.mem_of_getElem? (hget i hi)
          · exact hlen ▸ hsteps
          · exact hnames ▸ hfinds
          · rw [List.map_map, ← hnames]
            exact List.map_congr_left fun i hi => (hget i hi).symm

/-- Four modules: the first waits for the second, which depends on the third, which depends, by its
blueprint, on the second; the fourth depends on something that is loaded. -/
def entangled : Manifest :=
  ⟨[{ name := "scores", dependsOn := ["chat"] }, { name := "chat", dependsOn := ["clock", "relay"] },
    { name := "relay" }, { name := "clock", dependsOn := ["prng"] }]⟩

/-- A depot that has a blueprint for each of them. -/
def entangledDepot : Depot where
  builtin := .ofList "core"
    [{ name := "scores", construction := .panicked none },
      { name := "chat", construction := .panicked none },
      { name := "relay", dependencies := ["chat"], construction := .panicked none },
      { name := "clock", construction := .panicked none }]

/-- The first is stuck behind the circle, but not on it. -/
theorem make_cycle_entangled :
    (Plan.make entangledDepot ["prng"] entangled).result = .error (.cycle ["chat", "relay"]) ∧
    Circle (entangled.DependsOn entangledDepot) ["chat", "relay"] ∧
    ∃ located steps cycle, List.Forall₂ (Located entangledDepot) entangled.modules located ∧
      steps ≤ 4 ∧ Order.Finds (located.map (Plan.needs entangled.names)) steps cycle ∧
      ["chat", "relay"].map some = cycle.map (entangled.names[·]?) := by
  have h : (Plan.make entangledDepot ["prng"] entangled).result = .error (.cycle ["chat", "relay"]) :=
    rfl
  obtain ⟨hcircle, -, hwalk⟩ := Plan.make_cycle h
  exact ⟨h, hcircle, hwalk⟩

end Backplane
