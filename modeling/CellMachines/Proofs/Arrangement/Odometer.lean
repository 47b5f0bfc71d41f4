import CellMachines.Proofs.Arrangement.Visits
import Mathlib.Logic.Relation

/-!
# Arrangements by counters

The visit of all arrangements can do without recursion.  An odometer keeps a
counter for every position, of the turns that this position has had, and looks
for the lowest position with a turn left: there it makes one exchange, counts
it, and starts over from the bottom, while it clears the counters that it passes
on the way.  It stops when no position has a turn left, and by then it has
visited what the recursion visits, in the same order.
-/

namespace CellMachines

namespace Arrangement

variable {α : Type}

structure Odometer (α : Type) where
  visited : Array (Array α)
  current : Array α
  counters : Array Nat
  /-- The position that is looked at. -/
  position : Nat

namespace Odometer

def start (values : List α) : Odometer α where
  visited := #[values.toArray]
  current := values.toArray
  counters := Array.replicate values.length 0
  position := 1

/-- One round of the loop, unless it is over. -/
def next? (odometer : Odometer α) : Option (Odometer α) :=
  match odometer.counters[odometer.position]? with
  | none => none
  | some turn =>
    if turn < odometer.position then
      let current := odometer.current.swapIfInBounds
        (partner odometer.position turn) odometer.position
      some {
        visited := odometer.visited.push current
        current
        counters := odometer.counters.setIfInBounds odometer.position (turn + 1)
        position := 1 }
    else
      some { odometer with
        counters := odometer.counters.setIfInBounds odometer.position 0
        position := odometer.position + 1 }

/-- The arrangements visited when the loop is over, if that happens within the
budget of rounds. -/
def run : Nat → Odometer α → Option (List (List α))
  | 0, _ => none
  | budget + 1, odometer =>
    match odometer.next? with
    | some next => run budget next
    | none => some (odometer.visited.toList.map Array.toList)

/-- Some rounds of the loop. -/
def Reaches : Odometer α → Odometer α → Prop :=
  Relation.ReflTransGen fun before after => before.next? = some after

theorem Reaches.exists_run {odometer last : Odometer α}
    (reaches : odometer.Reaches last) (ends : last.next? = none) :
    ∃ budget, run budget odometer =
      some (last.visited.toList.map Array.toList) := by
  induction reaches using Relation.ReflTransGen.head_induction_on with
  | refl => exact ⟨1, by rw [run, ends]⟩
  | head round _ induction =>
      obtain ⟨budget, ran⟩ := induction
      refine ⟨budget + 1, ?_⟩
      rw [run, round]
      exact ran

/-- From the bottom to the position after the given one, the loop does what a
visit does.  The counters are as they were before. -/
theorem reaches_visit {last : Nat} {counters : Array Nat}
    (cleared : ∀ position, 1 ≤ position → position ≤ last →
      counters[position]? = some 0)
    (visited : Array (Array α)) (current : Array α) :
    Reaches
      { visited := visited.push current, current, counters, position := 1 }
      { visited := (visit last (visited, current)).1
        current := (visit last (visited, current)).2
        counters
        position := last + 1 } := by
  induction last generalizing counters visited current with
  | zero => exact .refl
  | succ last induction =>
      have below : ∀ count position, 1 ≤ position → position ≤ last →
          (counters.setIfInBounds (last + 1) count)[position]? = some 0 := by
        intro count position positive lower
        rw [Array.getElem?_setIfInBounds_ne (by omega)]
        exact cleared position positive (by omega)
      have own := cleared (last + 1) (by omega) le_rfl
      have inside : last + 1 < counters.size :=
        (Array.getElem?_eq_some_iff.mp own).1
      have counted : ∀ count,
          (counters.setIfInBounds (last + 1) count)[last + 1]? =
            some count := by
        intro count
        rw [Array.getElem?_setIfInBounds_self_of_lt inside]
      have restored : ∀ count, (counters.setIfInBounds (last + 1)
          count).setIfInBounds (last + 1) 0 = counters := by
        intro count
        rw [Array.setIfInBounds_setIfInBounds]
        apply Array.ext_getElem?
        intro position
        rw [Array.getElem?_setIfInBounds]
        grind
      have turns : ∀ count ≤ last + 1,
          Reaches { visited := visited.push current, current, counters
                    position := 1 }
            { visited := ((List.range count).foldl (turned last)
                (visit last (visited, current))).1
              current := ((List.range count).foldl (turned last)
                (visit last (visited, current))).2
              counters := counters.setIfInBounds (last + 1) count
              position := last + 1 } := by
        intro count few
        induction count with
        | zero =>
            have same := restored 0
            rw [Array.setIfInBounds_setIfInBounds] at same
            rw [same]
            exact induction (fun position positive lower =>
              cleared position positive (by omega)) visited current
        | succ count earlier =>
            apply (earlier (by omega)).trans
            rw [foldl_turned_succ]
            generalize (List.range count).foldl (turned last)
              (visit last (visited, current)) = state
            refine .head ?_ (induction (below (count + 1)) state.1
              (state.2.swapIfInBounds (partner (last + 1) count) (last + 1)))
            simp [next?, counted, show count < last + 1 by omega]
      apply (turns (last + 1) le_rfl).tail
      simp [next?, counted, restored, visit_succ]

/-- The loop comes to its end, with the arrangements of the recursion. -/
theorem exists_run_start (values : List α) :
    ∃ budget, run budget (start values) = some (all values) := by
  have cleared : ∀ position, 1 ≤ position → position ≤ values.length - 1 →
      (Array.replicate values.length 0)[position]? = some 0 := by
    intro position positive within
    rw [Array.getElem?_replicate, if_pos (by omega)]
  have reaches := reaches_visit cleared #[] values.toArray
  apply Reaches.exists_run reaches
  have outside : values.length ≤ values.length - 1 + 1 := by omega
  simp [next?, outside]

end Odometer

end Arrangement

end CellMachines
