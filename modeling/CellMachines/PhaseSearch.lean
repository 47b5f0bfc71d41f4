import CellMachines.Word

/-!
# Phase search

The search for the best phase settings runs a pipeline once for every ordering
of the candidates.  The orderings are those of Heap's method: each one differs
from the one before it by one swap.  To arrange the first `last + 1` positions
in every way it arranges the first `last` ones in every way, for each of the
`last + 1` values that come to stand at position `last`.
-/

namespace CellMachines

namespace Arrangement

variable {α : Type}

/-- The position that the value at `last` is exchanged with after `turn` earlier
exchanges. -/
def partner (last turn : Nat) : Nat :=
  if last % 2 = 0 then 0 else turn

/-- Visits all arrangements of the positions up to the given one, starting from
`current`, and returns the arrangement it stops at. -/
def visit : Nat → Array (Array α) × Array α → Array (Array α) × Array α
  | 0, (visited, current) => (visited.push current, current)
  | last + 1, state =>
    (List.range (last + 1)).foldl
      (fun (visited, current) turn =>
        visit last (visited,
          current.swapIfInBounds (partner (last + 1) turn) (last + 1)))
      (visit last state)

/-- Every ordering of a list, the list itself first. -/
def all (values : List α) : List (List α) :=
  (visit (values.length - 1) (#[], values.toArray)).1.toList.map Array.toList

end Arrangement

/-- The phase settings with the largest output. -/
structure BestOrdering where
  phases : List Word
  output : Word
  tried : Nat
  deriving DecidableEq, Repr

/-- Runs every ordering of the candidates and keeps the first of those with the
largest output.  The first run that fails ends the search. -/
def bestOrdering {m : Type → Type} [Monad m] (run : List Word → m Word)
    (candidates : List Word) : m BestOrdering := do
  let first ← run candidates
  let orderings := Arrangement.all candidates
  let (phases, output) ← orderings.tail.foldlM
    (fun best phases => do
      let output ← run phases
      return if best.2.toInt < output.toInt then (phases, output) else best)
    (candidates, first)
  return { phases, output, tried := orderings.length }

end CellMachines
