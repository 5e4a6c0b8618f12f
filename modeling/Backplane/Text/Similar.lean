/-!
# `Backplane.Text.Similar`: how alike two words are

A character of one word is matched with the first equal character of the other that is still free
and not further from its own place than half the longer word.  The likeness of two words, from 0 to
1, is the mean of three shares: the matched characters in either word, and among the matched those
that keep their order.  It is a floating-point number, so a mean that lies at the threshold may come
out above it.

Where no `CliArgs` can be made of the arguments, an option that is not known is answered with the
one most like it.
-/
namespace Backplane.Similar

/-- How far apart matched characters may be. -/
def reach (a b : List Char) : Nat := max a.length b.length / 2 - 1

/-- The first place of `b` for the character at place `i` of another word, `taken` being matched
already. -/
def place? (far i : Nat) (taken : List Nat) (c : Char) (b : List Char) : Option Nat :=
  (List.range b.length).find? fun j =>
    i ≤ j + far && j ≤ i + far && !taken.contains j && b[j]? = some c

/-- The matched characters of a word from its place `i` on, and their places in `b`. -/
def pairs (far : Nat) (b : List Char) : Nat → List Nat → List Char → List (Char × Nat)
  | _, _, [] => []
  | i, taken, c :: r =>
    match place? far i taken c b with
    | some j => (c, j) :: pairs far b (i + 1) (j :: taken) r
    | none => pairs far b (i + 1) taken r

/-- The characters of a word at the given places, in the order of the word. -/
def kept (places : List Nat) (b : List Char) : List Char :=
  (b.zipIdx.filter fun x => places.contains x.2).map (·.1)

/-- The number of matched characters that have changed places with one another. -/
def crossed (xs ys : List Char) : Nat := (xs.zip ys).countP (fun x => x.1 ≠ x.2) / 2

/-- How alike two words are. -/
def likeness (a b : List Char) : Float :=
  let matched := pairs (reach a b) b 0 [] a
  if matched.isEmpty then (if a = b then 1 else 0)
  else
    let out := crossed (matched.map (·.1)) (kept (matched.map (·.2)) b)
    let n := matched.length.toFloat
    (n / a.length.toFloat + n / b.length.toFloat + (n - out.toFloat) / n) / 3

/-- The likeness above which one word may be meant by the other. -/
def threshold : Float := 0.7

/-- Of two candidates the more alike, or the later. -/
def better {α : Type} (best : Option (α × Float)) (x : α × Float) : Option (α × Float) :=
  match best with
  | some y => if y.2 ≤ x.2 then some x else some y
  | none => some x

/-- Of named things the one whose name is most like a word, if it is alike enough. -/
def mostLike? {α : Type} (name : α → String) (word : String) (all : List α) : Option α :=
  let rated := all.map fun x => (x, likeness word.toList (name x).toList)
  ((rated.filter fun x => threshold < x.2).foldl better none).map (·.1)

end Backplane.Similar
