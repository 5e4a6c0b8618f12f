/-!
# `Backplane.Plan.Order`: putting things in an order that respects what they need

Things are numbered from 0, and `needs` lists for each the things that have to come before it.  Of
the things that are ready the lowest number always comes next, so the order is the least of all that
respect the needs.  Things on a cycle, or behind one, never become ready; a walk along needs that
are stuck finds a cycle.

`Order.final` models `stable_topological_order`, and `Order.cycle` models `find_cycle`.
-/
namespace Backplane.Order

/-- The things that need the `i`-th. -/
def dependents (needs : List (List Nat)) (i : Nat) : List Nat :=
  (List.range needs.length).filter fun j => (needs.getD j []).contains i

def insert (i : Nat) : List Nat → List Nat
  | [] => [i]
  | j :: rest => if i ≤ j then i :: j :: rest else j :: insert i rest

/-- How far the ordering has come. -/
structure Progress where
  /-- What has been put in order. -/
  order : List Nat
  /-- What may come next, ascending. -/
  ready : List Nat
  /-- How many needs of each thing are not in order yet. -/
  pending : List Nat
deriving DecidableEq, Repr

namespace Progress

/-- Nothing is in order yet, and what needs nothing is ready. -/
def start (needs : List (List Nat)) : Progress where
  order := []
  ready := (List.range needs.length).filter fun i => (needs.getD i []).isEmpty
  pending := needs.map (·.length)

/-- One need less for the `j`-th thing; with the last one gone it is ready. -/
def settle (p : Progress) (j : Nat) : Progress :=
  let left := p.pending.getD j 0 - 1
  { p with
    pending := p.pending.set j left
    ready := if left = 0 then insert j p.ready else p.ready }

/-- Puts the lowest thing that is ready in order; `none` if there is none. -/
def step (needs : List (List Nat)) (p : Progress) : Option Progress :=
  match p.ready with
  | [] => none
  | i :: rest => some ((dependents needs i).foldl settle { p with order := p.order ++ [i], ready := rest })

def steps (needs : List (List Nat)) : Nat → Progress → Progress
  | 0, p => p
  | n + 1, p =>
    match p.step needs with
    | none => p
    | some q => steps needs n q

/-- Everything that can be put in order; there is one step for each thing at most. -/
def final (needs : List (List Nat)) : Progress := (start needs).steps needs needs.length

/-- Whether a thing still lacks a need. -/
def stuck (p : Progress) (i : Nat) : Bool := 0 < p.pending.getD i 0

end Progress

/-- The first need of a thing that is itself stuck. -/
def nextStuck (needs : List (List Nat)) (p : Progress) (i : Nat) : Option Nat :=
  (needs.getD i []).find? p.stuck

/-- Walks from the end of a path along stuck needs until it meets the path again, and yields the
part of the path from there. -/
def walk (next : Nat → Option Nat) : Nat → List Nat → Nat → List Nat
  | 0, path, _ => path
  | n + 1, path, current =>
    match next current with
    | none => path
    | some j => if path.contains j then path.dropWhile (· ≠ j) else walk next n (path ++ [j]) j

/-- A cycle among the things that could not be put in order. -/
def cycle (needs : List (List Nat)) (p : Progress) : List Nat :=
  match (List.range needs.length).find? p.stuck with
  | none => []
  | some i => walk (nextStuck needs p) needs.length [i] i

/-- The order, or a cycle that stands in its way. -/
def resolve (needs : List (List Nat)) : Except (List Nat) (List Nat) :=
  let p := Progress.final needs
  if p.order.length < needs.length then .error (cycle needs p) else .ok p.order

end Backplane.Order
