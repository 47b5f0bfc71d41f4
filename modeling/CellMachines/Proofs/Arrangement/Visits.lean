import CellMachines.Proofs.Arrangement.Orders
import Mathlib.Data.List.Forall2

/-!
# Visits of all arrangements

Every array that is visited holds the values of the first one in some order of
the positions, and these orders are the ones that `orders` lists.  So the
arrangements of a list are what all permutations of its positions make of it, in
the order of the visit.
-/

namespace CellMachines

namespace Arrangement

open Equiv

variable {α : Type}

/-- The visit with which a position takes one of its turns. -/
def turned (last : Nat) (state : Array (Array α) × Array α) (turn : Nat) :
    Array (Array α) × Array α :=
  visit last (state.1,
    state.2.swapIfInBounds (partner (last + 1) turn) (last + 1))

theorem visit_succ (last : Nat) (state : Array (Array α) × Array α) :
    visit (last + 1) state =
      (List.range (last + 1)).foldl (turned last) (visit last state) := rfl

theorem foldl_turned_succ (last count : Nat)
    (state : Array (Array α) × Array α) :
    (List.range (count + 1)).foldl (turned last) state =
      turned last ((List.range count).foldl (turned last) state) count := by
  rw [List.range_succ, List.foldl_append]
  rfl

/-- A list with the values of another one, each at the position that the order
takes it from. -/
structure Arranges (values : List α) (order : Perm Nat) (arranged : List α) :
    Prop where
  length_eq : arranged.length = values.length
  getElem?_eq : ∀ position, arranged[position]? = values[order position]?

theorem arranges_one (values : List α) : Arranges values 1 values :=
  ⟨rfl, fun _ => rfl⟩

theorem Arranges.swap {values : List α} {order : Perm Nat} {current : Array α}
    (arranges : Arranges values order current.toList) {left right : Nat}
    (leftWithin : left < values.length) (rightWithin : right < values.length) :
    Arranges values (order * swap left right)
      (current.swapIfInBounds left right).toList := by
  have size : current.size = values.length := arranges.length_eq
  constructor
  · simpa using size
  · intro position
    have leftInside : left < current.size := by omega
    have rightInside : right < current.size := by omega
    have exchanged : (current.swapIfInBounds left right)[position]? =
        current[Equiv.swap left right position]? := by
      rw [Array.swapIfInBounds, dif_pos leftInside, dif_pos rightInside,
        Array.getElem?_swap, swap_apply_def]
      grind
    rw [Array.getElem?_toList, exchanged, ← Array.getElem?_toList,
      arranges.getElem?_eq, Perm.mul_apply]

/-- What is added to the arrangements visited before, starting from the values
in the given order: those that the path leads through. -/
structure Adds (values : List α) (order : Perm Nat) (path : List (Perm Nat))
    (goal : Perm Nat) (before after : Array (Array α) × Array α) : Prop where
  visited : ∃ added : List (Array α),
    after.1.toList = before.1.toList ++ added ∧
      path.Forall₂ (fun inner arranged =>
        Arranges values (order * inner) arranged.toList) added
  current : Arranges values (order * goal) after.2.toList

theorem adds_visit {values : List α} {last : Nat}
    (within : last ≤ values.length - 1) {order : Perm Nat}
    {visited : Array (Array α)} {current : Array α}
    (arranges : Arranges values order current.toList) :
    Adds values order (orders last) (passage last) (visited, current)
      (visit last (visited, current)) := by
  induction last generalizing order visited current with
  | zero =>
      rw [visit]
      refine ⟨⟨[current], by simp, ?_⟩, by simpa [passage] using arranges⟩
      rw [orders]
      exact .cons (by simpa using arranges) .nil
  | succ last induction =>
      have below : last ≤ values.length - 1 := by omega
      -- after some turns, what the visits of the lower positions have added
      have turns : ∀ count ≤ last + 1, Adds values order
          ((List.range (count + 1)).flatMap fun turn =>
            (orders last).map fun inner =>
              opening (passage last) (last + 1) turn * inner)
          (opening (passage last) (last + 1) count * passage last)
          (visited, current)
          ((List.range count).foldl (turned last)
            (visit last (visited, current))) := by
        intro count few
        induction count with
        | zero => simpa [opening] using induction below arranges
        | succ count earlier =>
            obtain ⟨⟨added, addedBefore, paired⟩, stands⟩ := earlier (by omega)
            have folded := foldl_turned_succ last count
              (visit last (visited, current))
            have path : List.range (count + 2) =
                List.range (count + 1) ++ [count + 1] := List.range_succ
            rw [folded, path, List.flatMap_append, List.flatMap_singleton]
            generalize (List.range count).foldl (turned last)
              (visit last (visited, current)) = state at addedBefore stands ⊢
            have early := partner_lt (show count < last + 1 by omega)
            have swapped := stands.swap
              (show partner (last + 1) count < values.length by omega)
              (show last + 1 < values.length by omega)
            have opened : order * (opening (passage last) (last + 1) count *
                passage last) * swap (partner (last + 1) count) (last + 1) =
                order * opening (passage last) (last + 1) (count + 1) := by
              rw [opening, mul_assoc, mul_assoc]
            rw [opened] at swapped
            obtain ⟨⟨further, furtherBefore, furtherPaired⟩, arrives⟩ :=
              induction below swapped
            refine ⟨⟨added ++ further, ?_, ?_⟩, ?_⟩
            · rw [← List.append_assoc, ← addedBefore]
              exact furtherBefore
            · apply List.rel_append paired
              rw [List.forall₂_map_left_iff]
              simpa only [mul_assoc] using furtherPaired
            · rw [mul_assoc] at arrives
              exact arrives
      exact turns (last + 1) le_rfl

theorem arranges_all (values : List α) :
    (orders (values.length - 1)).Forall₂ (Arranges values) (all values) := by
  have start : Arranges values 1 values.toArray.toList := arranges_one values
  have adds : Adds values 1 (orders (values.length - 1))
      (passage (values.length - 1)) (#[], values.toArray)
      (visit (values.length - 1) (#[], values.toArray)) :=
    adds_visit le_rfl start
  obtain ⟨⟨added, visited, paired⟩, _⟩ := adds
  rw [Array.toList_empty, List.nil_append] at visited
  rw [all, visited, List.forall₂_map_right_iff]
  simpa only [one_mul] using paired

end Arrangement

end CellMachines
