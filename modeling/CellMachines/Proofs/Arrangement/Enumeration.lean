import CellMachines.Proofs.Arrangement.Odometer
import Mathlib.Data.Fintype.Perm
import Mathlib.Data.List.OfFn
import Mathlib.Data.List.Permutation

/-!
# The arrangements of a list

A permutation of all numbers that moves only the positions of a list is one of
these positions alone.  Seen so, the orders of a visit are an enumeration of the
permutations of the positions: every one of them occurs, and once.  The
arrangements of a list follow that enumeration, so an arrangement occurs as
often as there are permutations that produce it.
-/

namespace CellMachines

namespace Arrangement

open Equiv

variable {α : Type}

/-! ## Permutations of the positions -/

section Positions

variable {count : Nat} {order other : Perm Nat}

theorem apply_lt_of_fixed
    (fixed : ∀ position, count ≤ position → order position = position)
    {position : Nat} (within : position < count) : order position < count := by
  by_contra outside
  have same := order.injective (fixed _ (Nat.le_of_not_lt outside))
  rw [same] at outside
  exact outside within

theorem symm_fixed
    (fixed : ∀ position, count ≤ position → order position = position)
    (position : Nat) (outside : count ≤ position) :
    order.symm position = position := by
  rw [Equiv.symm_apply_eq, fixed position outside]

/-- A permutation of the first `count` positions that leaves the others alone,
as one of these positions. -/
def onPositions (order : Perm Nat)
    (fixed : ∀ position, count ≤ position → order position = position) :
    Perm (Fin count) where
  toFun position := ⟨order position, apply_lt_of_fixed fixed position.isLt⟩
  invFun position :=
    ⟨order.symm position, apply_lt_of_fixed (symm_fixed fixed) position.isLt⟩
  left_inv position := by simp
  right_inv position := by simp

theorem onPositions_injective
    (fixed : ∀ position, count ≤ position → order position = position)
    (otherFixed : ∀ position, count ≤ position → other position = position)
    (same : onPositions order fixed = onPositions other otherFixed) :
    order = other := by
  ext position
  by_cases within : position < count
  · exact congrArg
      (fun permutation => (permutation ⟨position, within⟩).val) same
  · rw [fixed position (Nat.le_of_not_lt within),
      otherFixed position (Nat.le_of_not_lt within)]

end Positions

theorem fixed_of_mem_orders {count : Nat} {order : Perm Nat}
    (member : order ∈ orders (count - 1)) (position : Nat)
    (outside : count ≤ position) : order position = position := by
  cases count with
  | zero =>
      obtain rfl := List.mem_singleton.mp member
      rfl
  | succ last => exact apply_of_mem_orders member outside

/-- The permutations of the positions of a list with `count` values, in the
order in which its arrangements are visited. -/
def permutations (count : Nat) : List (Perm (Fin count)) :=
  (orders (count - 1)).pmap onPositions fun _ => fixed_of_mem_orders

theorem length_permutations (count : Nat) :
    (permutations count).length = count.factorial := by
  rw [permutations, List.length_pmap, length_orders]
  cases count <;> rfl

theorem nodup_permutations (count : Nat) : (permutations count).Nodup := by
  apply (nodup_orders (count - 1)).pmap
  intro order fixed other otherFixed same
  exact onPositions_injective fixed otherFixed same

theorem mem_permutations {count : Nat} (permutation : Perm (Fin count)) :
    permutation ∈ permutations count := by
  have full : (permutations count).toFinset = Finset.univ := by
    apply Finset.eq_univ_of_card
    rw [List.toFinset_card_of_nodup (nodup_permutations count),
      length_permutations, Fintype.card_perm, Fintype.card_fin]
  rw [← List.mem_toFinset, full]
  exact Finset.mem_univ permutation

/-! ## Arrangements -/

/-- The list with the values of another one, each at the position that the
permutation takes it from. -/
def arranged (values : List α) (permutation : Perm (Fin values.length)) :
    List α :=
  List.ofFn fun position => values[permutation position]

theorem Arranges.eq_arranged {values list : List α} {order : Perm Nat}
    (arranges : Arranges values order list)
    (fixed : ∀ position, values.length ≤ position →
      order position = position) :
    list = arranged values (onPositions order fixed) := by
  apply List.ext_getElem?
  intro position
  rw [arranges.getElem?_eq, arranged, List.getElem?_ofFn]
  split
  · rename_i within
    exact List.getElem?_eq_getElem (apply_lt_of_fixed fixed within)
  · rename_i outside
    rw [fixed position (Nat.le_of_not_lt outside)]
    exact List.getElem?_eq_none (Nat.le_of_not_lt outside)

theorem all_eq_map (values : List α) :
    all values = (permutations values.length).map (arranged values) := by
  have arrangements : ∀ {path : List (Perm Nat)} {lists : List (List α)},
      path.Forall₂ (Arranges values) lists →
      ∀ fixed : ∀ order ∈ path, ∀ position, values.length ≤ position →
        order position = position,
      lists = (path.pmap onPositions fixed).map (arranged values) := by
    intro path lists paired
    induction paired with
    | nil => exact fun _ => rfl
    | @cons order list _ _ arranges _ induction =>
        intro fixed
        rw [List.pmap, List.map_cons, ← arranges.eq_arranged]
        congr 1
        exact induction _
  exact arrangements (arranges_all values) fun _ => fixed_of_mem_orders

/-- How often an arrangement occurs is how many permutations produce it. -/
theorem count_all [DecidableEq α] (values arrangement : List α) :
    (all values).count arrangement =
      Fintype.card { permutation : Perm (Fin values.length) //
        arranged values permutation = arrangement } := by
  rw [all_eq_map, List.count_eq_countP, List.countP_map,
    List.countP_eq_length_filter, Fintype.card_subtype,
    ← List.toFinset_card_of_nodup ((nodup_permutations _).filter _)]
  congr 1
  ext permutation
  simp [mem_permutations]

theorem arranged_perm (values : List α)
    (permutation : Perm (Fin values.length)) :
    (arranged values permutation).Perm values := by
  have shuffled := permutation.ofFn_comp_perm values.get
  rwa [List.ofFn_get] at shuffled

theorem arranged_injective {values : List α} (distinct : values.Nodup) :
    Function.Injective (arranged values) := by
  intro permutation other same
  ext position
  have equal := congrFun (List.ofFn_injective same) position
  exact distinct.getElem_inj_iff.mp equal

theorem nodup_all {values : List α} (distinct : values.Nodup) :
    (all values).Nodup := by
  rw [all_eq_map]
  exact (nodup_permutations _).map (arranged_injective distinct)

theorem length_all (values : List α) :
    (all values).length = values.length.factorial := by
  rw [all_eq_map, List.length_map, length_permutations]

theorem mem_all_iff {values : List α} (distinct : values.Nodup)
    (arrangement : List α) :
    arrangement ∈ all values ↔ arrangement.Perm values := by
  have within : all values ⊆ values.permutations := by
    intro list member
    rw [all_eq_map] at member
    obtain ⟨permutation, _, rfl⟩ := List.mem_map.mp member
    exact List.mem_permutations.mpr (arranged_perm values permutation)
  have whole : (all values).Perm values.permutations := by
    apply (List.subperm_of_subset (nodup_all distinct) within).perm_of_length_le
    rw [length_all, List.length_permutations]
  rw [whole.mem_iff, List.mem_permutations]

/-! ## Neighbours -/

/-- A list with the values of another one after two of its positions have been
exchanged. -/
def IsExchange (before after : List α) : Prop :=
  ∃ left right, left < right ∧ right < before.length ∧
    ∀ position, after[position]? = before[swap left right position]?

theorem AreNeighbours.isExchange {values before after : List α}
    {order next : Perm Nat}
    (neighbours : AreNeighbours (values.length - 1) order next)
    (first : Arranges values order before)
    (second : Arranges values next after) : IsExchange before after := by
  obtain ⟨left, right, lower, within, rfl⟩ := neighbours
  refine ⟨left, right, lower, ?_, ?_⟩
  · rw [first.length_eq]
    omega
  · intro position
    rw [second.getElem?_eq, first.getElem?_eq, Perm.mul_apply]

theorem isChain_all (values : List α) : (all values).IsChain IsExchange := by
  have linked : ∀ {path : List (Perm Nat)} {lists : List (List α)},
      path.Forall₂ (Arranges values) lists →
      path.IsChain (AreNeighbours (values.length - 1)) →
      lists.IsChain IsExchange := by
    intro path lists paired
    induction paired with
    | nil => exact fun _ => .nil
    | cons first rest induction =>
        intro chain
        cases rest with
        | nil => exact .singleton _
        | cons second _ =>
            rw [List.isChain_cons_cons] at chain ⊢
            exact ⟨chain.1.isExchange first second, induction chain.2⟩
  exact linked (arranges_all values) (leads_orders _).chain

theorem head?_all (values : List α) : (all values).head? = some values := by
  have first := (leads_orders (values.length - 1)).head
  have paired := arranges_all values
  generalize orders (values.length - 1) = path at first paired
  generalize all values = lists at paired ⊢
  cases paired with
  | nil => cases first
  | cons arranges _ =>
      cases first
      exact congrArg some (List.ext_getElem? arranges.getElem?_eq)

/-- The loop over the counters ends, and what it has visited then is every
arrangement: one for each permutation of the positions, the list itself first,
and every later one an exchange of two positions away from the one before it. -/
theorem all_enumerates [DecidableEq α] (values : List α) :
    (∃ budget, Odometer.run budget (.start values) = some (all values)) ∧
      (all values).length = values.length.factorial ∧
      (∃ orders : List (Perm (Fin values.length)),
        orders.Nodup ∧ (∀ order, order ∈ orders) ∧
          all values = orders.map (arranged values)) ∧
      (∀ arrangement, (all values).count arrangement =
        Fintype.card { order : Perm (Fin values.length) //
          arranged values order = arrangement }) ∧
      (values.Nodup → (all values).Nodup ∧
        ∀ arrangement, arrangement ∈ all values ↔ arrangement.Perm values) ∧
      (all values).head? = some values ∧
      (all values).IsChain IsExchange := by
  refine ⟨Odometer.exists_run_start values, length_all values,
    ⟨permutations values.length, ?_, mem_permutations, all_eq_map values⟩,
    count_all values, ?_, head?_all values, isChain_all values⟩
  · exact nodup_permutations values.length
  · intro distinct
    exact ⟨nodup_all distinct, mem_all_iff distinct⟩

end Arrangement

end CellMachines
