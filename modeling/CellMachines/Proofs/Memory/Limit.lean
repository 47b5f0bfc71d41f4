import CellMachines.Proofs.Machine.MemoryLimit
import CellMachines.Proofs.Memory.History

/-!
# The limit of a memory

No write makes a memory longer than its limit, or than it was at the beginning
if that is more.  A demand for a length does not look at the limit, though, and
is granted wherever there are cells for it (`limit_passed_demanding`).  So a
history keeps the memory within its limit exactly if no demand that was granted
asked for more.
-/

namespace CellMachines

namespace Memory

/-- The length that a granted demand has asked for. -/
def demanded? : Access × Answer → Option Nat
  | (.ensure length, .done) => some length
  | _ => none

def demanded (entries : List (Access × Answer)) : List Nat :=
  entries.filterMap demanded?

variable {memory first last : Memory} {access : Access} {answer : Answer}
  {entries : List (Access × Answer)} {accesses : List Access}
  {limit bound length : Nat}

theorem Performs.length_le (performs : Performs memory access answer last)
    (limited : memory.limit = some limit) (within : limit ≤ bound)
    (fits : memory.length ≤ bound)
    (modest : ∀ length ∈ demanded [(access, answer)], length ≤ bound) :
    last.length ≤ bound := by
  cases performs with
  | reads | refuses => exact fits
  | writes _ granted => exact length_set_le limited within fits granted
  | ensures =>
      rw [length_extend]
      exact Nat.max_le.mpr ⟨fits, modest _ List.mem_cons_self⟩

/-- A history in which no granted demand asks for more than a bound keeps the
memory within it. -/
theorem length_after_le (limited : first.limit = some limit)
    (within : limit ≤ bound) (fits : first.length ≤ bound)
    (modest : ∀ length ∈ demanded (first.journal accesses), length ≤ bound) :
    (first.after accesses).length ≤ bound := by
  induction accesses generalizing first with
  | nil => exact fits
  | cons access later induction =>
      have performs := performs_perform first access
      rw [journal, ← List.singleton_append, demanded, List.filterMap_append]
        at modest
      obtain ⟨now, afterwards⟩ := List.forall_mem_append.mp modest
      apply induction (performs.limit_eq.1.trans limited)
      · exact performs.length_le limited within fits now
      · exact afterwards

theorem demanded_subset_extents (entries : List (Access × Answer)) :
    demanded entries ⊆ extents entries := by
  intro length member
  obtain ⟨⟨access, answer⟩, among, found⟩ := List.mem_filterMap.mp member
  refine List.mem_filterMap.mpr ⟨_, among, ?_⟩
  cases access with
  | ensure asked =>
      cases answer with
      | done => exact found
      | value | refused => cases found
  | read | write => cases found

/-- A memory stays within its limit, or the length that it has had from the
beginning, exactly if no granted demand asks for more.  A write never takes it
any further, while a demand does wherever there are cells for it. -/
theorem limit_kept_iff (first : Memory) (limit : Nat)
    (limited : first.limit = some limit) (accesses : List Access) :
    ((first.after accesses).length ≤ max limit first.length ↔
        ∀ length ∈ demanded (first.journal accesses),
          length ≤ max limit first.length) ∧
      (∀ (address value : Word) (index : Nat), address.toInt = index →
        (first.after accesses).length ≤ index → limit ≤ index →
        (first.after accesses).perform (.write address value) =
          (.refused (.beyondLimit index limit), first.after accesses)) ∧
      ∀ length, length ≤ first.available →
        (first.after accesses).perform (.ensure length) =
          (.done, (first.after accesses).extend length) := by
  have recounts := recounts first accesses
  refine ⟨⟨?_, ?_⟩, ?_, ?_⟩
  · intro kept length member
    have longest := (List.max?_eq_some_iff.mp recounts.max_length).2
    have asked := demanded_subset_extents _ member
    exact Nat.le_trans (longest length (List.mem_cons_of_mem _ asked)) kept
  · exact length_after_le limited (Nat.le_max_left ..) (Nat.le_max_right ..)
  · intro address value index same outside beyond
    have still := recounts.limit_eq.trans limited
    rw [perform_write same, writeRefusal?_of_le still outside beyond]
  · intro length available
    rw [← recounts.available_eq] at available
    rw [perform_ensure, lengthRefusal?_eq_none_iff.mpr (.inr available)]

/-- Two cells with a limit of three. -/
def capped : Memory where
  cells := #[1, 2]
  limit := some 3

theorem limit_kept_iff_capped :
    (capped.after [.write 2 5, .write 3 5, .ensure 1]).length ≤ 3 ∧
      (capped.after [.write 2 5]).perform (.write 3 5) =
        (.refused (.beyondLimit 3 3), capped.after [.write 2 5]) := by
  have kept := (limit_kept_iff capped 3 rfl
    [.write 2 5, .write 3 5, .ensure 1]).1
  have refused := (limit_kept_iff capped 3 rfl [.write 2 5]).2.1
  exact ⟨kept.mpr (by decide +kernel),
    refused 3 5 3 rfl (by decide +kernel) (by decide)⟩

/-- A demand for five cells is granted to a memory that is limited to three. -/
theorem limit_passed_demanding :
    (capped.perform (.ensure 5)).1 = .done ∧
      ¬(capped.after [.ensure 5]).length ≤ max 3 capped.length := by
  decide +kernel

end Memory

end CellMachines
