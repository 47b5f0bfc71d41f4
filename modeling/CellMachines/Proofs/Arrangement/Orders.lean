import CellMachines.PhaseSearch
import Mathlib.Data.List.Rotate
import Mathlib.GroupTheory.Perm.List

/-!
# Orders of positions

A visit of all arrangements moves values about without looking at them, so it is
explained by what it does to the positions: `orders` lists the permutations of
the positions up to the last one in the order of the visit.  They are all of
them, each once.  What carries this is the passage, the permutation that a whole
visit amounts to.  For an even last position it exchanges that position with the
first one, and for an odd one it runs through all positions in one cycle.  Hence
the exchanges of the next level bring every value to the last position once.
-/

namespace CellMachines

namespace Arrangement

open Equiv

/-- What has been done to the positions before the given turn, if the visit of
the lower ones amounts to `inner`. -/
def opening (inner : Perm Nat) (last : Nat) : Nat → Perm Nat
  | 0 => 1
  | turn + 1 => opening inner last turn * inner * swap (partner last turn) last

/-- What a visit of all arrangements does to the positions. -/
def passage : Nat → Perm Nat
  | 0 => 1
  | last + 1 => opening (passage last) (last + 1) (last + 1) * passage last

/-- The permutations of the positions up to the given one, as they are visited.
-/
def orders : Nat → List (Perm Nat)
  | 0 => [1]
  | last + 1 =>
    (List.range (last + 2)).flatMap fun turn =>
      (orders last).map fun order =>
        opening (passage last) (last + 1) turn * order

/-! ## Exchanges with a hub -/

/-- The exchanges of some positions with a hub, the first of them outermost. -/
def spokes (hub : Nat) (rim : List Nat) : Perm Nat :=
  (rim.map fun position => swap position hub).prod

variable {hub position : Nat} {rim : List Nat}

theorem spokes_cons (hub position : Nat) (rim : List Nat) :
    spokes hub (position :: rim) = swap position hub * spokes hub rim := by
  simp [spokes]

theorem spokes_concat (hub position : Nat) (rim : List Nat) :
    spokes hub (rim ++ [position]) = spokes hub rim * swap position hub := by
  simp [spokes]

theorem spokes_apply_of_notMem (elsewhere : position ∉ hub :: rim) :
    spokes hub rim position = position := by
  induction rim with
  | nil => simp [spokes]
  | cons other rim induction =>
      simp only [List.mem_cons, not_or] at elsewhere
      obtain ⟨notHub, notOther, notRim⟩ := elsewhere
      rw [spokes_cons, Perm.mul_apply, induction (by simp [notHub, notRim])]
      exact swap_apply_of_ne_of_ne notOther notHub

theorem spokes_concat_apply (elsewhere : position ∉ hub :: rim) :
    spokes hub (rim ++ [position]) hub = position := by
  rw [spokes_concat, Perm.mul_apply, swap_apply_right]
  exact spokes_apply_of_notMem elsewhere

theorem spokes_eq_formPerm (distinct : (hub :: rim).Nodup) :
    spokes hub rim = List.formPerm (hub :: rim.reverse) := by
  induction rim with
  | nil => simp [spokes]
  | cons first rim induction =>
      have inner : (hub :: rim).Nodup :=
        distinct.sublist (.cons_cons hub (List.sublist_cons_self first rim))
      have turned : (first :: hub :: rim.reverse).Nodup := by
        simp only [List.nodup_cons, List.mem_cons, List.mem_reverse, not_or,
          List.nodup_reverse] at distinct ⊢
        grind
      calc spokes hub (first :: rim)
        _ = swap first hub * List.formPerm (hub :: rim.reverse) := by
          rw [spokes_cons, induction inner]
        _ = List.formPerm (first :: hub :: rim.reverse) :=
          (List.formPerm_cons_cons _ _ _).symm
        _ = List.formPerm ((first :: hub :: rim.reverse).rotate 1) :=
          (List.formPerm_rotate_one _ turned).symm
        _ = List.formPerm (hub :: (first :: rim).reverse) := by simp

/-! ## The passages -/

/-- A single cycle through all positions up to the last one. -/
def IsRound (last : Nat) (order : Perm Nat) : Prop :=
  ∃ cycle : List Nat, cycle.Nodup ∧ (∀ position, position ∈ cycle ↔
    position ≤ last) ∧ order = cycle.formPerm

/-- The exchanges of one level, before an even position and with an odd position
`last + 1`. -/
theorem opening_of_even {last : Nat} (even : last % 2 = 0) (turn : Nat)
    (early : turn < last) :
    opening (swap 0 last) (last + 1) (turn + 1) =
      spokes (last + 1) (last :: List.range' 1 turn) *
        swap 0 last ^ (turn + 1) := by
  have odd : ¬(last + 1) % 2 = 0 := by omega
  induction turn with
  | zero =>
      have hub : swap 0 last (last + 1) = last + 1 :=
        swap_apply_of_ne_of_ne (by omega) (by omega)
      have unfolded : opening (swap 0 last) (last + 1) 1 =
          swap 0 last * swap 0 (last + 1) := by
        rw [opening, opening, partner, if_neg odd, one_mul]
      rw [unfolded, mul_swap_eq_swap_mul, swap_apply_left, hub, pow_one]
      simp [spokes]
  | succ turn induction =>
      have kept : (swap 0 last ^ (turn + 2)) (turn + 1) = turn + 1 := by
        apply Perm.pow_apply_eq_self_of_apply_eq_self
        exact swap_apply_of_ne_of_ne (by omega) (by omega)
      have hub : (swap 0 last ^ (turn + 2)) (last + 1) = last + 1 := by
        apply Perm.pow_apply_eq_self_of_apply_eq_self
        exact swap_apply_of_ne_of_ne (by omega) (by omega)
      have exchange : swap 0 last ^ (turn + 2) * swap (turn + 1) (last + 1) =
          swap (turn + 1) (last + 1) * swap 0 last ^ (turn + 2) := by
        rw [mul_swap_eq_swap_mul, kept, hub]
      have longer : last :: List.range' 1 (turn + 1) =
          (last :: List.range' 1 turn) ++ [turn + 1] := by
        rw [List.range'_1_concat, List.cons_append, Nat.add_comm 1 turn]
      have unfolded : opening (swap 0 last) (last + 1) (turn + 2) =
          opening (swap 0 last) (last + 1) (turn + 1) * swap 0 last *
            swap (turn + 1) (last + 1) := by
        rw [opening, partner, if_neg odd]
      rw [unfolded, induction (by omega), longer, spokes_concat, mul_assoc,
        mul_assoc, ← mul_assoc (swap 0 last ^ _), ← pow_succ, exchange,
        mul_assoc]

/-- The position whose value comes to stand last before the given turn, where
the last position is odd. -/
private def arrival (last turn : Nat) : Nat :=
  if turn = 0 then last + 1
  else if turn = 1 then last
  else if turn ≤ last then turn - 1
  else 0

theorem opening_last_of_even {last : Nat} (even : last % 2 = 0)
    (wide : last ≠ 0) :
    opening (swap 0 last) (last + 1) (last + 1) =
      spokes (last + 1) (last :: List.range' 1 (last - 1)) *
        swap 0 last * swap last (last + 1) := by
  have odd : ¬(last + 1) % 2 = 0 := by omega
  have settled : swap 0 last ^ last = 1 := by
    obtain ⟨half, twice⟩ := Nat.dvd_of_mod_eq_zero even
    conv_lhs => rw [twice]
    rw [pow_mul, sq, swap_mul_self, one_pow]
  have before := opening_of_even even (last - 1) (by omega)
  rw [Nat.sub_add_cancel (by omega), settled, mul_one] at before
  rw [opening, partner, if_neg odd, before]

theorem opening_apply_last_of_even {last turn : Nat} (even : last % 2 = 0)
    (within : turn ≤ last + 1) :
    opening (swap 0 last) (last + 1) turn (last + 1) = arrival last turn := by
  have hub : ∀ turn, (swap 0 last ^ turn) (last + 1) = last + 1 := by
    intro turn
    apply Perm.pow_apply_eq_self_of_apply_eq_self
    exact swap_apply_of_ne_of_ne (by omega) (by omega)
  match turn with
  | 0 => simp [opening, arrival]
  | 1 =>
      by_cases narrow : last = 0
      · subst narrow
        simp [opening, partner, arrival]
      · rw [opening_of_even even 0 (by omega), Perm.mul_apply, hub]
        simp [spokes, arrival]
  | turn + 2 =>
      by_cases early : turn + 1 < last
      · have longer : last :: List.range' 1 (turn + 1) =
            (last :: List.range' 1 turn) ++ [turn + 1] := by
          rw [List.range'_1_concat, List.cons_append, Nat.add_comm 1 turn]
        rw [opening_of_even even (turn + 1) early, Perm.mul_apply, hub, longer,
          spokes_concat_apply (by simp; omega)]
        simp [arrival, show turn + 2 ≤ last by omega]
      · obtain rfl : turn + 1 = last := by omega
        rw [opening_last_of_even even (by omega), Perm.mul_apply,
          swap_apply_right, Perm.mul_apply, swap_apply_right,
          spokes_apply_of_notMem (by simp)]
        simp [arrival]

theorem isRound_passage_of_even {last : Nat} (even : last % 2 = 0)
    (inner : passage last = swap 0 last) :
    IsRound (last + 1) (passage (last + 1)) := by
  have unfolded : passage (last + 1) =
      opening (swap 0 last) (last + 1) (last + 1) * swap 0 last := by
    rw [passage, inner]
  by_cases narrow : last = 0
  · subst narrow
    refine ⟨[0, 1], by simp, by simp; omega, ?_⟩
    simp [passage, opening, partner]
  · have hub : swap 0 last (last + 1) = last + 1 :=
      swap_apply_of_ne_of_ne (by omega) (by omega)
    have distinct :
        ((last + 1) :: (last :: List.range' 1 (last - 1) ++ [0])).Nodup := by
      have rim : (List.range' 1 (last - 1)).Nodup := List.nodup_range'
      have between : ∀ position ∈ List.range' 1 (last - 1),
          0 < position ∧ position < last := by
        intro position member
        rw [List.mem_range'_1] at member
        omega
      grind
    refine ⟨(last + 1) :: (last :: List.range' 1 (last - 1) ++ [0]).reverse,
      ?_, ?_, ?_⟩
    · rw [List.nodup_cons, List.nodup_reverse, List.mem_reverse]
      exact List.nodup_cons.mp distinct
    · intro position
      simp [List.mem_range'_1]
      omega
    · rw [← spokes_eq_formPerm distinct, spokes_concat, unfolded,
        opening_last_of_even even narrow, mul_assoc, mul_assoc,
        ← mul_assoc (swap 0 last), mul_swap_eq_swap_mul (swap 0 last),
        swap_apply_right, hub, mul_assoc (swap 0 (last + 1)), swap_mul_self,
        mul_one]

/-- One exchange more makes the round of all lower positions one of the last
position as well. -/
theorem IsRound.exists_longer {last : Nat} {order : Perm Nat}
    (round : IsRound last order) :
    ∃ rest : List Nat, ((last + 1) :: rest).Nodup ∧ rest.length = last + 1 ∧
      order * swap 0 (last + 1) = List.formPerm ((last + 1) :: rest) := by
  obtain ⟨cycle, distinct, positions, rfl⟩ := round
  have within : cycle.formPerm 0 ∈ cycle :=
    List.formPerm_apply_mem_of_mem ((positions 0).mpr (Nat.zero_le last))
  have outside : last + 1 ∉ cycle := by
    rw [positions]
    omega
  have fixed := List.formPerm_apply_of_notMem outside
  have count : cycle.length = last + 1 := by
    have same : cycle.Perm (List.range (last + 1)) := by
      rw [List.perm_ext_iff_of_nodup distinct List.nodup_range]
      intro position
      rw [positions, List.mem_range, Nat.lt_succ_iff]
    rw [same.length_eq, List.length_range]
  obtain ⟨front, back, split⟩ := List.append_of_mem within
  have turned : cycle ~r cycle.formPerm 0 :: (back ++ front) := by
    conv_lhs => rw [split]
    exact List.isRotated_append
  have same := List.formPerm_eq_of_isRotated distinct turned
  refine ⟨cycle.formPerm 0 :: (back ++ front), ?_, ?_, ?_⟩
  · rw [List.nodup_cons, ← turned.mem_iff, ← turned.nodup_iff]
    exact ⟨outside, distinct⟩
  · rw [← turned.perm.length_eq, count]
  · rw [mul_swap_eq_swap_mul, fixed, swap_comm, List.formPerm_cons_cons, ← same]

/-- The exchanges of one level, with an even position `last + 1`. -/
theorem opening_of_odd {last : Nat} (odd : last % 2 = 1) (inner : Perm Nat)
    (turn : Nat) :
    opening inner (last + 1) turn = (inner * swap 0 (last + 1)) ^ turn := by
  have even : (last + 1) % 2 = 0 := by omega
  induction turn with
  | zero => rfl
  | succ turn induction =>
      rw [opening, induction, partner, if_pos even, pow_succ, mul_assoc]

theorem passage_of_round {last : Nat} (odd : last % 2 = 1)
    (round : IsRound last (passage last)) :
    passage (last + 1) = swap 0 (last + 1) := by
  obtain ⟨rest, distinct, count, longer⟩ := round.exists_longer
  have whole := List.formPerm_pow_length_eq_one_of_nodup _ distinct
  rw [List.length_cons, count, pow_succ, ← longer, ← mul_assoc] at whole
  rw [passage, opening_of_odd odd, ← swap_inv 0 (last + 1)]
  exact eq_inv_of_mul_eq_one_left whole

theorem passage_cases (last : Nat) :
    (last % 2 = 0 → passage last = swap 0 last) ∧
      (last % 2 = 1 → IsRound last (passage last)) := by
  induction last with
  | zero => simp [passage, Perm.one_def]
  | succ last induction =>
      refine ⟨fun even => ?_, fun odd => ?_⟩
      · have odd : last % 2 = 1 := by omega
        exact passage_of_round odd (induction.2 odd)
      · have even : last % 2 = 0 := by omega
        exact isRound_passage_of_even even (induction.1 even)

/-- No value comes to stand last twice. -/
theorem opening_apply_last_injOn (last : Nat) :
    Set.InjOn (fun turn => opening (passage last) (last + 1) turn (last + 1))
      (Set.Iic (last + 1)) := by
  intro turn within other otherWithin same
  simp only [Set.mem_Iic] at within otherWithin same
  rcases Nat.mod_two_eq_zero_or_one last with even | odd
  · rw [(passage_cases last).1 even, opening_apply_last_of_even even within,
      opening_apply_last_of_even even otherWithin] at same
    unfold arrival at same
    grind
  · obtain ⟨rest, distinct, count, longer⟩ :=
      ((passage_cases last).2 odd).exists_longer
    have length : ((last + 1) :: rest).length = last + 2 := by
      rw [List.length_cons, count]
    rw [opening_of_odd odd, opening_of_odd odd, longer,
      List.formPerm_pow_apply_head _ _ distinct,
      List.formPerm_pow_apply_head _ _ distinct,
      distinct.getElem_inj_iff, length, Nat.mod_eq_of_lt (by omega),
      Nat.mod_eq_of_lt (by omega)] at same
    exact same

/-! ## The orders -/

theorem opening_apply_of_lt {inner : Perm Nat} {last position : Nat}
    (fixed : inner position = position) (above : last < position)
    (turn : Nat) (within : turn ≤ last) :
    opening inner last turn position = position := by
  induction turn with
  | zero => rfl
  | succ turn induction =>
      have below : partner last turn < position := by
        unfold partner
        split <;> omega
      rw [opening, Perm.mul_apply, Perm.mul_apply,
        swap_apply_of_ne_of_ne below.ne' above.ne', fixed]
      exact induction (by omega)

theorem passage_apply_of_lt {last position : Nat} (above : last < position) :
    passage last position = position := by
  induction last with
  | zero => rfl
  | succ last induction =>
      have fixed := induction (by omega)
      rw [passage, Perm.mul_apply, fixed]
      exact opening_apply_of_lt fixed above _ le_rfl

theorem apply_of_mem_orders {last position : Nat} {order : Perm Nat}
    (member : order ∈ orders last) (above : last < position) :
    order position = position := by
  induction last generalizing order with
  | zero =>
      obtain rfl := List.mem_singleton.mp member
      rfl
  | succ last induction =>
      simp only [orders, List.mem_flatMap, List.mem_range,
        List.mem_map] at member
      obtain ⟨turn, early, inner, member, rfl⟩ := member
      rw [Perm.mul_apply, induction member (by omega)]
      apply opening_apply_of_lt (passage_apply_of_lt (by omega)) above
      omega

theorem nodup_orders (last : Nat) : (orders last).Nodup := by
  induction last with
  | zero => exact List.nodup_singleton 1
  | succ last induction =>
      rw [orders, List.nodup_flatMap]
      constructor
      · intro turn _
        exact induction.map (mul_right_injective _)
      · -- the value that stands last tells the turn
        apply List.nodup_range.imp_of_mem
        intro turn other member otherMember different order left right
        obtain ⟨inner, innerMember, rfl⟩ := List.mem_map.mp left
        obtain ⟨second, secondMember, same⟩ := List.mem_map.mp right
        have same := congrArg (fun order : Perm Nat => order (last + 1)) same
        simp only [Perm.mul_apply,
          apply_of_mem_orders innerMember (Nat.lt_succ_self last),
          apply_of_mem_orders secondMember (Nat.lt_succ_self last)] at same
        apply different
        rw [List.mem_range] at member otherMember
        apply opening_apply_last_injOn last _ _ same.symm
        · exact Set.mem_Iic.mpr (by omega)
        · exact Set.mem_Iic.mpr (by omega)

theorem length_orders (last : Nat) :
    (orders last).length = (last + 1).factorial := by
  induction last with
  | zero => rfl
  | succ last induction =>
      rw [orders, List.length_flatMap, Nat.factorial_succ, ← induction]
      simp

/-! ## Neighbours -/

/-- Two orders with an exchange of two positions between them. -/
def AreNeighbours (last : Nat) (before after : Perm Nat) : Prop :=
  ∃ left right, left < right ∧ right ≤ last ∧ after = before * swap left right

theorem AreNeighbours.mul_left {last : Nat} {before after : Perm Nat}
    (neighbours : AreNeighbours last before after) (order : Perm Nat) :
    AreNeighbours (last + 1) (order * before) (order * after) := by
  obtain ⟨left, right, lower, within, rfl⟩ := neighbours
  exact ⟨left, right, lower, by omega, (mul_assoc _ _ _).symm⟩

theorem partner_lt {last turn : Nat} (early : turn < last) :
    partner last turn < last := by
  unfold partner
  split <;> omega

/-- Orders that lead from `1` to the given one by single exchanges. -/
structure Leads (last : Nat) (path : List (Perm Nat)) (goal : Perm Nat) :
    Prop where
  chain : path.IsChain (AreNeighbours last)
  head : path.head? = some 1
  goal : path.getLast? = some goal

theorem leads_orders (last : Nat) :
    Leads last (orders last) (passage last) := by
  induction last with
  | zero => exact ⟨.singleton 1, rfl, rfl⟩
  | succ last induction =>
      have turns : ∀ turn ≤ last + 1, Leads (last + 1)
          ((List.range (turn + 1)).flatMap fun turn =>
            (orders last).map fun order =>
              opening (passage last) (last + 1) turn * order)
          (opening (passage last) (last + 1) turn * passage last) := by
        intro turn within
        have block : ∀ order : Perm Nat,
            ((orders last).map (order * ·)).IsChain
              (AreNeighbours (last + 1)) := by
          intro order
          rw [List.isChain_map]
          exact induction.chain.imp fun _ _ neighbours =>
            neighbours.mul_left order
        induction turn with
        | zero =>
            constructor
            · simpa using block (opening (passage last) (last + 1) 0)
            · simp [induction.head, opening]
            · simp [induction.goal]
        | succ turn earlier =>
            have before := earlier (by omega)
            rw [List.range_succ, List.flatMap_append, List.flatMap_singleton]
            constructor
            · apply before.chain.append (block _)
              intro left leftLast right rightFirst
              rw [before.goal, Option.mem_some_iff] at leftLast
              rw [List.head?_map, induction.head, Option.map_some,
                Option.mem_some_iff, mul_one] at rightFirst
              subst leftLast rightFirst
              exact ⟨_, _, partner_lt (by omega), le_rfl, rfl⟩
            · rw [List.head?_append, before.head, Option.some_or]
            · rw [List.getLast?_append, List.getLast?_map, induction.goal]
              rfl
      exact turns (last + 1) le_rfl

end Arrangement

end CellMachines
