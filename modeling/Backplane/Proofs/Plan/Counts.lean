import Backplane.Proofs.Plan.Walk
import Mathlib.Data.Set.Card
/-!
# `Backplane.Proofs.Plan.Counts`: counting what modules still wait for

Modules are put in order by counting, for each, the declared modules that it depends on and that are
not in order yet.

| | |
| :-- | :-- |
| the counts | are exact at each step, since a module needs another only once, whoever asks for it |
| a step | takes one from the count of each module that has waited for the new one, so there is one to take |
| the steps | put one module each in order, none twice, so there are at most as many as modules |
| what is left | has a count, and so it waits for something that is left |

Nothing here depends on the bound that the steps of the ordering are given: it is shown not to cut
them short.

This is `stable_topological_order`, on the counts that `plan_config` gives it.
-/
namespace Backplane

namespace Order.Progress

variable {needs : List (List Nat)} {p q : Progress} {i j k n : Nat}

/-- How far an ordering has come after a number of steps, however many it may take. -/
inductive Reached (needs : List (List Nat)) : Nat → Progress → Prop
  | start : Reached needs 0 (start needs)
  | step {n : Nat} {p q : Progress} (h : Reached needs n p) (hstep : p.step needs = some q) :
      Reached needs (n + 1) q

/-- Whether in the next step nothing is taken from a count of zero, whatever has been settled in it
before. -/
def Affords (needs : List (List Nat)) (p : Progress) : Prop :=
  ∀ i rest, p.ready = i :: rest →
    Stepwise (fun settled d => 0 < (settled.foldl settle (p.put i rest)).pending.getD d 0)
      (dependents needs i)

theorem Exact.affords (hw : WellPosed needs) (hp : p.Exact needs) : p.Affords needs := by
  intro i rest hready settled d unsettled hds
  have hmem : d ∈ dependents needs i := by simp [hds]
  obtain ⟨hlt, hneed, -⟩ := hp.dependents_later hready d hmem
  exact (hp.settling hw hready hds).pending_pos hneed hlt (hp.mayCome hready).2.1

theorem Exact.getElem?_pending (hp : p.Exact needs) (hi : i < needs.length) :
    p.pending[i]? = some (lacking needs p.order i).length := by
  have hlt : i < p.pending.length := hp.length.symm ▸ hi
  rw [← hp.pending i hi]
  simp [hlt]

/-- What is ready is what is not in order and has nothing left to count. -/
theorem Exact.mem_ready_iff_zero (hp : p.Exact needs) :
    i ∈ p.ready ↔ i ∉ p.order ∧ p.pending[i]? = some 0 := by
  rw [hp.ready i]
  constructor
  · rintro ⟨hlt, hout, hmet⟩
    refine ⟨hout, ?_⟩
    rw [hp.getElem?_pending hlt, lacking_eq_nil_iff.mpr hmet, List.length_nil]
  · rintro ⟨hout, hzero⟩
    have hlt : i < needs.length := hp.length ▸ (List.getElem?_eq_some_iff.mp hzero).1
    rw [hp.getElem?_pending hlt, Option.some.injEq, List.length_eq_zero_iff] at hzero
    exact ⟨hlt, hout, lacking_eq_nil_iff.mp hzero⟩

theorem Reached.exact (hw : WellPosed needs) (h : Reached needs n p) : p.Exact needs := by
  induction h with
  | start => exact exact_start
  | step _ hstep ih => exact ih.step hw hstep

theorem Reached.length_order (h : Reached needs n p) : p.order.length = n := by
  induction h with
  | start => rfl
  | step _ hstep ih => rw [length_step hstep, ih]

theorem Exact.length_le (hp : p.Exact needs) : p.order.length ≤ needs.length :=
  length_le_of_lt hp.nodup fun _ hi => hp.lt hi

/-- There are at most as many steps as things. -/
theorem Reached.le (hw : WellPosed needs) (h : Reached needs n p) : n ≤ needs.length :=
  h.length_order ▸ (h.exact hw).length_le

theorem Reached.steps (h : Reached needs n p) (bound : Nat) :
    ∃ k, Reached needs k (p.steps needs bound) := by
  induction bound generalizing n p with
  | zero => exact ⟨n, h⟩
  | succ bound ih =>
      rw [Progress.steps]
      cases hstep : p.step needs with
      | none => exact ⟨n, h⟩
      | some q => exact ih (h.step hstep)

/-- The bound does not cut the ordering short. -/
theorem reached_final (hw : WellPosed needs) :
    ∃ n, Reached needs n (final needs) ∧ (final needs).step needs = none := by
  have hstart : Reached needs 0 (start needs) := .start
  obtain ⟨n, hn⟩ := hstart.steps needs.length
  refine ⟨n, hn, ?_⟩
  by_contra hmore
  obtain ⟨q, hq⟩ := Option.ne_none_iff_exists'.mp hmore
  -- with a step to spare, the bound has not been used up
  have hle : n + 1 ≤ needs.length := (hn.step hq).le hw
  have hlen : (final needs).order.length = n := hn.length_order
  have hready : (final needs).ready = [] := by
    refine ready_steps needs.length ?_
    show (final needs).order.length < 0 + needs.length
    omega
  exact hmore (step_eq_none_iff.mpr hready)

/-- What is in order has all that it needs in front of it. -/
theorem Exact.met (hp : p.Exact needs) (hi : i ∈ p.order) : Met needs p.order i := by
  obtain ⟨before, hcome, hsub⟩ := hp.respects.exists_of_mem hi
  exact fun j hj => hsub (hcome.2.2 j hj)

/-- Where nothing is ready, what is not in order is what has a count. -/
theorem Exact.notMem_iff (hp : p.Exact needs) (hready : p.ready = []) (hi : i < needs.length) :
    i ∉ p.order ↔ 0 < p.pending.getD i 0 := by
  constructor
  · intro hout
    simpa [stuck] using hp.stuck_of_notMem hready hi hout
  · intro hpos hin
    have hstuck : p.stuck i = true := by simpa [stuck] using hpos
    obtain ⟨-, j, hj, hout⟩ := hp.stuck_iff.mp hstuck
    exact hout (hp.met hin j hj)

end Order.Progress

variable {depot : Depot} {loaded : List String} {m : Manifest} {graph : List (List Nat)}
  {located : List PlannedModule} {order : List Nat} {p : Order.Progress} {i j : Nat} {x y : String}

/-! ## Modules by number -/

/-- Whether planning a manifest comes to putting this in order: for each of the declared modules, by
number, those that it needs. -/
def Plan.Poses (depot : Depot) (loaded : List String) (m : Manifest) (graph : List (List Nat)) :
    Prop :=
  fault? loaded [] m.modules = none ∧ ∃ located,
    (locateAll depot m.modules).result = .ok located ∧
    missing? (located.map (·.name)) loaded located = none ∧
    graph = located.map (needs (located.map (·.name)))

/-- The declared modules that a module depends on and that are not in order. -/
def Manifest.awaited (m : Manifest) (depot : Depot) (order : List Nat) (x : String) : Set String :=
  {y | m.DependsOn depot x y ∧ ∀ j ∈ order, m.names[j]? ≠ some y}

/-- Whether in an ordering of the declared modules, by number, each has the count of what it waits
for, and is ready if that is nothing. -/
structure Plan.Counts (depot : Depot) (m : Manifest) (p : Order.Progress) : Prop where
  length : p.pending.length = m.modules.length
  pending : ∀ (i : Nat) (x : String), m.names[i]? = some x →
    p.pending[i]? = some (m.awaited depot p.order x).ncard
  ready : ∀ i : Nat, i ∈ p.ready ↔ i ∉ p.order ∧ p.pending[i]? = some 0
  ascending : p.ready.Pairwise (· < ·)
  once : p.order.Nodup
  declared : ∀ i ∈ p.order, i < m.modules.length

namespace Located

/-- With distinct names a number and a name say the same. -/
theorem getElem?_of_name (hn : (located.map (·.name)).Nodup) {q : PlannedModule} (hq : q ∈ located)
    (hi : (located.map (·.name))[i]? = some q.name) : located[i]? = some q := by
  rw [List.getElem?_map] at hi
  obtain ⟨r, hr, hname⟩ := Option.map_eq_some_iff.mp hi
  rw [hr, List.inj_on_of_nodup_map hn (List.mem_of_getElem? hr) hq hname]

theorem dependsOn_iff_mem_needs (hall : List.Forall₂ (Located depot) m.modules located)
    (hn : m.names.Nodup) (hx : m.names[i]? = some x) (hy : m.names[j]? = some y) :
    m.DependsOn depot x y ↔ j ∈ (located.map (Plan.needs m.names)).getD i [] := by
  rw [← names_eq hall] at hx hy hn ⊢
  rw [dependsOn_iff hall, Plan.mem_needs hn]
  constructor
  · rintro ⟨p, hp, rfl, q, hq, rfl, hneed⟩
    exact ⟨p, getElem?_of_name hn hp hx, q, getElem?_of_name hn hq hy, hneed⟩
  · rintro ⟨p, hp, q, hq, hneed⟩
    rw [List.getElem?_map, hp] at hx
    rw [List.getElem?_map, hq] at hy
    obtain rfl := Option.some.inj hx
    obtain rfl := Option.some.inj hy
    exact ⟨p, List.mem_of_getElem? hp, rfl, q, List.mem_of_getElem? hq, rfl, hneed⟩

/-- What a module waits for, by name, is what it lacks, by number. -/
theorem ncard_awaited (hall : List.Forall₂ (Located depot) m.modules located) (hn : m.names.Nodup)
    (hw : Order.WellPosed (located.map (Plan.needs m.names))) (hx : m.names[i]? = some x) :
    (m.awaited depot order x).ncard =
      (Order.lacking (located.map (Plan.needs m.names)) order i).length := by
  let lacking := Order.lacking (located.map (Plan.needs m.names)) order i
  let name (j : Nat) : String := m.names.getD j ""
  have hlen : (located.map (Plan.needs m.names)).length = m.names.length := by
    rw [List.length_map, ← names_eq hall, List.length_map]
  have hget : ∀ j ∈ lacking, m.names[j]? = some (name j) := by
    intro j hj
    have hlt : j < m.names.length := hlen ▸ hw.known i j (Order.mem_lacking.mp hj).1
    simp [name, hlt]
  have hset : m.awaited depot order x = ((lacking.map name).toFinset : Set String) := by
    ext y
    simp only [List.coe_toFinset, List.mem_map, Set.mem_ofPred_eq, Manifest.awaited]
    constructor
    · rintro ⟨hxy, hout⟩
      obtain ⟨j, hj⟩ := List.mem_iff_getElem?.mp hxy.2
      have hneed := (dependsOn_iff_mem_needs hall hn hx hj).mp hxy
      refine ⟨j, Order.mem_lacking.mpr ⟨hneed, fun hin => hout j hin hj⟩, ?_⟩
      simp [name, hj]
    · rintro ⟨j, hj, rfl⟩
      obtain ⟨hneed, hout⟩ := Order.mem_lacking.mp hj
      refine ⟨(dependsOn_iff_mem_needs hall hn hx (hget j hj)).mpr hneed, fun k hk heq => hout ?_⟩
      have hlt : j < m.names.length := (List.getElem?_eq_some_iff.mp (hget j hj)).1
      rwa [(List.getElem?_inj hlt hn).mp ((hget j hj).trans heq.symm)]
  have hnodup : (lacking.map name).Nodup := by
    refine (List.nodup_map_iff_inj_on ((hw.once i).filter _)).mpr fun j hj k hk heq => ?_
    have hlt : j < m.names.length := (List.getElem?_eq_some_iff.mp (hget j hj)).1
    exact (List.getElem?_inj hlt hn).mp (by rw [hget j hj, hget k hk, heq])
  rw [hset, Set.ncard_coe_finset, List.toFinset_card_of_nodup hnodup, List.length_map]

end Located

namespace Plan

theorem Poses.exists_located (h : Poses depot loaded m graph) :
    m.names.Nodup ∧ ∃ located, List.Forall₂ (Located depot) m.modules located ∧
      graph = located.map (needs m.names) := by
  obtain ⟨hf, located, hl, -, hgraph⟩ := h
  have hall := locateAll_ok hl
  exact ⟨(fault?_eq_none hf).1, located, hall, Located.names_eq hall ▸ hgraph⟩

theorem Poses.length_eq (h : Poses depot loaded m graph) : graph.length = m.modules.length := by
  obtain ⟨-, located, hall, rfl⟩ := h.exists_located
  rw [List.length_map, hall.length_eq]

theorem Poses.lt (h : Poses depot loaded m graph) (hx : m.names[i]? = some x) : i < graph.length := by
  rw [h.length_eq, ← List.length_map]
  exact (List.getElem?_eq_some_iff.mp hx).1

theorem Poses.wellPosed (h : Poses depot loaded m graph) : Order.WellPosed graph := by
  obtain ⟨hn, located, hall, rfl⟩ := h.exists_located
  have hnames := Located.names_eq hall
  exact hnames ▸ Plan.wellPosed (hnames ▸ hn) (Located.all_once hall)

theorem Poses.counts (h : Poses depot loaded m graph) (hp : p.Exact graph) : Counts depot m p where
  length := hp.length.trans h.length_eq
  pending := by
    intro i x hx
    have hw := h.wellPosed
    have hi := h.lt hx
    obtain ⟨hn, located, hall, rfl⟩ := h.exists_located
    rw [hp.getElem?_pending hi, Located.ncard_awaited hall hn hw hx]
  ready _ := hp.mem_ready_iff_zero
  ascending := hp.ascending
  once := hp.nodup
  declared _ hi := h.length_eq ▸ hp.lt hi

/-- There is a plan if everything has been put in order. -/
theorem Poses.make_ok_iff (h : Poses depot loaded m graph) :
    (∃ plan, (make depot loaded m).result = .ok plan) ↔
      (Order.Progress.final graph).order.length = m.modules.length := by
  have hlength := h.length_eq
  have hle := (Order.Progress.final_exact h.wellPosed).length_le
  obtain ⟨hf, located, hl, hm, hgraph⟩ := h
  simp only [make, hf, hl, Except.bind, arrange, hm, ← hgraph, Order.resolve]
  split_ifs with hlt
  · simp only [exists_false, false_iff]
    omega
  · simp only [Except.ok.injEq, exists_eq', true_iff]
    omega

/-- At every step of the ordering, however many there may be, the count of each module is the number
of declared modules that it depends on and that are not in order; those that are ready are those not
in order with no count; no count of zero is lessened, no module comes twice, and there are at most as
many steps as modules.  The ordering goes on until nothing is ready.  What it leaves is what has a
count then, and depends on something that is left. -/
theorem counts_exact (h : Poses depot loaded m graph) :
    (∀ n p, Order.Progress.Reached graph n p →
      Counts depot m p ∧ p.Affords graph ∧ p.order.length = n ∧ n ≤ m.modules.length) ∧
    ∃ n p, Order.Progress.Reached graph n p ∧ p.step graph = none ∧
      p = Order.Progress.final graph ∧
      ((∃ plan, (make depot loaded m).result = .ok plan) ↔ p.order.length = m.modules.length) ∧
      ∀ (i : Nat) (x : String), m.names[i]? = some x →
        (i ∉ p.order ↔ 0 < p.pending.getD i 0) ∧
        (i ∉ p.order → ∃ y, y ∈ m.awaited depot p.order x) := by
  have hw := h.wellPosed
  constructor
  · intro n p hp
    exact ⟨h.counts (hp.exact hw), (hp.exact hw).affords hw, hp.length_order, h.length_eq ▸ hp.le hw⟩
  · obtain ⟨n, hreached, hstop⟩ := Order.Progress.reached_final hw
    refine ⟨n, _, hreached, hstop, rfl, h.make_ok_iff, fun i x hx => ?_⟩
    have hexact := hreached.exact hw
    have hleft := hexact.notMem_iff (Order.Progress.step_eq_none_iff.mp hstop) (h.lt hx)
    refine ⟨hleft, fun hout => ?_⟩
    -- a count that is not zero counts something
    have hcount := (h.counts hexact).pending i x hx
    have hpos : 0 < (m.awaited depot (Order.Progress.final graph).order x).ncard := by
      simpa [hcount] using hleft.mp hout
    exact Set.nonempty_of_ncard_ne_zero (Nat.ne_of_gt hpos)

/-- Five modules: the first depends on the second, which depends on the third, by its declaration and
by its blueprint; the fourth depends on itself, and the last on the fourth and the third. -/
def snared : Manifest :=
  ⟨[{ name := "scores", dependsOn := ["chat"] }, { name := "chat", dependsOn := ["clock", "prng"] },
    { name := "clock" }, { name := "relay", dependsOn := ["relay"] },
    { name := "filter", dependsOn := ["relay", "clock"] }]⟩

/-- A depot that has a blueprint for each of them. -/
def snaredDepot : Depot where
  builtin := .ofList "core"
    [{ name := "scores", construction := .panicked none },
      { name := "chat", dependencies := ["clock"], construction := .panicked none },
      { name := "clock", construction := .panicked none },
      { name := "relay", construction := .panicked none },
      { name := "filter", construction := .panicked none }]

/-- The need that is asked for twice is counted once, and the one that a module has of itself is
counted, so the last two are left, each with a count of one. -/
theorem counts_exact_snared :
    Poses snaredDepot ["prng"] snared [[1], [2], [], [3], [3, 2]] ∧
    Order.Progress.Reached [[1], [2], [], [3], [3, 2]] 3 ⟨[2, 1, 0], [], [0, 0, 0, 1, 1]⟩ ∧
    (snared.awaited snaredDepot [2, 1, 0] "filter").ncard = 1 ∧
    ∃ y, y ∈ snared.awaited snaredDepot [2, 1, 0] "relay" := by
  have hposes : Poses snaredDepot ["prng"] snared [[1], [2], [], [3], [3, 2]] :=
    ⟨rfl, _, rfl, rfl, rfl⟩
  have hreached :
      Order.Progress.Reached [[1], [2], [], [3], [3, 2]] 3 ⟨[2, 1, 0], [], [0, 0, 0, 1, 1]⟩ :=
    .step (.step (.step .start rfl) rfl) rfl
  obtain ⟨hsteps, n, p, -, -, rfl, -, hleft⟩ := counts_exact hposes
  have hcount := (hsteps 3 _ hreached).1.pending 4 "filter" rfl
  exact ⟨hposes, hreached, (Option.some.inj hcount).symm, (hleft 3 "relay" rfl).2 (by decide)⟩

end Plan

end Backplane
