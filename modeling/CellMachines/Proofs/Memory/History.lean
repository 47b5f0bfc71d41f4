import CellMachines.Memory
import Mathlib.Data.List.Basic

/-!
# Histories of a memory

A history is what users make of a memory: reads, writes and demands for a length
in any order, each with its answer.  Of all that, the contents depend on the
successful writes alone, and the length on the successful writes and demands.
So a memory is a total map with an extent, and what is not there reads as zero
(`history_tells`).
-/

namespace CellMachines

namespace Memory

inductive Access where
  | read (address : Word)
  | write (address value : Word)
  | ensure (length : Nat)
  deriving DecidableEq, Repr

inductive Answer where
  | value (word : Word)
  | done
  | refused (refusal : Refusal)
  deriving DecidableEq, Repr

/-- The answer to a change, and the memory after it. -/
def changed (memory : Memory) : Except Refusal Memory → Answer × Memory
  | .ok after => (.done, after)
  | .error refusal => (.refused refusal, memory)

/-- The answer to an access, and the memory after it. -/
def perform (memory : Memory) : Access → Answer × Memory
  | .read address =>
    match memory.read address with
    | .ok word => (.value word, memory)
    | .error refusal => (.refused refusal, memory)
  | .write address value => memory.changed (memory.write address value)
  | .ensure length => memory.changed (memory.ensureLength length)

def after (memory : Memory) : List Access → Memory
  | [] => memory
  | access :: later => (memory.perform access).2.after later

/-- The accesses with their answers. -/
def journal (memory : Memory) : List Access → List (Access × Answer)
  | [] => []
  | access :: later =>
    (access, (memory.perform access).1) ::
      (memory.perform access).2.journal later

/-- The cell that a successful write has written, with its new content. -/
def written? : Access × Answer → Option (Nat × Word)
  | (.write address value, .done) => address.address?.map fun index =>
    (index, value)
  | _ => none

/-- The length that a success has asked for. -/
def extent? : Access × Answer → Option Nat
  | (.write address _, .done) => address.address?.map (· + 1)
  | (.ensure length, .done) => some length
  | _ => none

def written (entries : List (Access × Answer)) : List (Nat × Word) :=
  entries.filterMap written?

def extents (entries : List (Access × Answer)) : List Nat :=
  entries.filterMap extent?

/-- What was last written to a cell. -/
def lastWritten? (index : Nat) (entries : List (Access × Answer)) :
    Option Word :=
  (written entries).reverse.lookup index

variable {memory first last : Memory} {access : Access} {answer : Answer}
  {address value : Word} {index length : Nat} {refusal : Refusal}
  {entries : List (Access × Answer)} {accesses : List Access}

/-! ## One access -/

/-- What an access can come to. -/
inductive Performs (memory : Memory) : Access → Answer → Memory → Prop where
  | reads {address : Word} {index : Nat} :
      address.toInt = index →
      Performs memory (.read address) (.value (memory.get index)) memory
  | writes {address value : Word} {index : Nat} :
      address.toInt = index → memory.writeRefusal? index = none →
      Performs memory (.write address value) .done (memory.set index value)
  | ensures {length : Nat} :
      memory.lengthRefusal? length = none →
      Performs memory (.ensure length) .done (memory.extend length)
  | refuses {access : Access} {refusal : Refusal} :
      Performs memory access (.refused refusal) memory

theorem perform_read (nonneg : address.toInt = index) :
    memory.perform (.read address) = (.value (memory.get index), memory) := by
  rw [perform, read, Word.address?_eq_some_iff.mpr nonneg]

theorem perform_write (nonneg : address.toInt = index) :
    memory.perform (.write address value) =
      match memory.writeRefusal? index with
      | some refusal => (.refused refusal, memory)
      | none => (.done, memory.set index value) := by
  rw [perform, write, Word.address?_eq_some_iff.mpr nonneg]
  simp only
  cases memory.writeRefusal? index <;> rfl

theorem perform_ensure :
    memory.perform (.ensure length) =
      match memory.lengthRefusal? length with
      | some refusal => (.refused refusal, memory)
      | none => (.done, memory.extend length) := by
  rw [perform, ensureLength]
  cases memory.lengthRefusal? length <;> rfl

theorem perform_read_negative (negative : address.toInt < 0) :
    memory.perform (.read address) =
      (.refused (.negativeAddress address.toInt), memory) := by
  rw [perform, read, Word.address?_eq_none_iff.mpr negative]

theorem perform_write_negative (negative : address.toInt < 0) :
    memory.perform (.write address value) =
      (.refused (.negativeAddress address.toInt), memory) := by
  rw [perform, write, Word.address?_eq_none_iff.mpr negative]
  rfl

theorem performs_perform (memory : Memory) (access : Access) :
    Performs memory access (memory.perform access).1
      (memory.perform access).2 := by
  cases access with
  | read address =>
      cases found : address.address? with
      | none =>
          rw [perform_read_negative (Word.address?_eq_none_iff.mp found)]
          exact .refuses
      | some index =>
          have same := Word.address?_eq_some_iff.mp found
          rw [perform_read same]
          exact .reads same
  | write address value =>
      cases found : address.address? with
      | none =>
          rw [perform_write_negative (Word.address?_eq_none_iff.mp found)]
          exact .refuses
      | some index =>
          have same := Word.address?_eq_some_iff.mp found
          rw [perform_write same]
          cases granted : memory.writeRefusal? index with
          | none => exact .writes same granted
          | some refusal => exact .refuses
  | ensure length =>
      rw [perform_ensure]
      cases granted : memory.lengthRefusal? length with
      | none => exact .ensures granted
      | some refusal => exact .refuses

theorem Performs.get_eq (performs : Performs memory access answer last)
    (index : Nat) :
    last.get index =
      (lastWritten? index [(access, answer)]).getD (memory.get index) := by
  cases performs with
  | @writes address value target same granted =>
      have found := Word.address?_eq_some_iff.mpr same
      rw [get_set]
      simp only [lastWritten?, written, written?, found, List.filterMap_cons,
        Option.map_some, List.filterMap_nil, List.reverse_singleton,
        List.lookup_cons, List.lookup_nil]
      by_cases here : index = target
      · simp [here]
      · simp [here, beq_false_of_ne here]
  | reads => rfl
  | ensures => exact get_extend ..
  | refuses => cases access <;> rfl

theorem Performs.length_eq (performs : Performs memory access answer last) :
    last.length = (extents [(access, answer)]).foldl max memory.length := by
  cases performs with
  | writes same =>
      have found := Word.address?_eq_some_iff.mpr same
      simp [extents, extent?, found]
  | reads => rfl
  | ensures => exact length_extend ..
  | refuses => cases access <;> rfl

theorem Performs.limit_eq (performs : Performs memory access answer last) :
    last.limit = memory.limit ∧ last.available = memory.available := by
  cases performs <;> exact ⟨rfl, rfl⟩

/-! ## Histories -/

theorem extents_append (earlier later : List (Access × Answer)) :
    extents (earlier ++ later) = extents earlier ++ extents later :=
  List.filterMap_append

theorem lastWritten?_append (index : Nat)
    (earlier later : List (Access × Answer)) :
    lastWritten? index (earlier ++ later) =
      (lastWritten? index later).or (lastWritten? index earlier) := by
  rw [lastWritten?, written, List.filterMap_append, List.reverse_append,
    List.lookup_append]
  rfl

/-- What a memory has become is told by the history that has led there. -/
structure Recounts (first : Memory) (entries : List (Access × Answer))
    (last : Memory) : Prop where
  get_eq : ∀ index,
    last.get index = (lastWritten? index entries).getD (first.get index)
  length_eq : last.length = (extents entries).foldl max first.length
  limit_eq : last.limit = first.limit
  available_eq : last.available = first.available

theorem recounts (first : Memory) (accesses : List Access) :
    Recounts first (first.journal accesses) (first.after accesses) := by
  induction accesses generalizing first with
  | nil => exact ⟨fun _ => rfl, rfl, rfl, rfl⟩
  | cons access later induction =>
      have performs := performs_perform first access
      have rest := induction (first.perform access).2
      rw [journal, after, ← List.singleton_append]
      refine ⟨?_, ?_, ?_, ?_⟩
      · intro index
        rw [lastWritten?_append, Option.getD_or, ← performs.get_eq]
        exact rest.get_eq index
      · rw [extents_append, List.foldl_append, ← performs.length_eq]
        exact rest.length_eq
      · exact rest.limit_eq.trans performs.limit_eq.1
      · exact rest.available_eq.trans performs.limit_eq.2

theorem Recounts.max_length (recounts : Recounts first entries last) :
    (first.length :: extents entries).max? = some last.length := by
  rw [List.max?_cons', recounts.length_eq]

/-! ## Answers -/

theorem perform_of_refused
    (refused : (memory.perform access).1 = .refused refusal) :
    (memory.perform access).2 = memory := by
  have performs := performs_perform memory access
  rw [refused] at performs
  generalize (memory.perform access).2 = last at performs ⊢
  cases performs
  rfl

theorem le_length_perform (memory : Memory) (access : Access) :
    memory.length ≤ (memory.perform access).2.length := by
  have performs := performs_perform memory access
  generalize (memory.perform access).1 = answer at performs
  generalize (memory.perform access).2 = last at performs ⊢
  cases performs with
  | reads | refuses => exact Nat.le_refl _
  | writes =>
      rw [length_set]
      exact Nat.le_max_left ..
  | ensures =>
      rw [length_extend]
      exact Nat.le_max_left ..

theorem lengthRefusal?_eq_none_iff :
    memory.lengthRefusal? length = none ↔
      length ≤ memory.length ∨ length ≤ memory.available := by
  rw [lengthRefusal?, ite_eq_right_iff]
  constructor
  · intro granted
    by_contra outside
    have refused := granted (by omega)
    cases refused
  · intro inside outside
    omega

theorem writeRefusal?_eq_none_iff :
    memory.writeRefusal? index = none ↔
      index < memory.length ∨
        (∀ limit, memory.limit = some limit → index < limit) ∧
          index < memory.available := by
  unfold writeRefusal?
  by_cases inside : index < memory.length
  · rw [if_pos inside]
    exact ⟨fun _ => .inl inside, fun _ => rfl⟩
  · have grows : memory.lengthRefusal? (index + 1) = none ↔
        index < memory.available := by
      rw [lengthRefusal?_eq_none_iff]
      omega
    rw [if_neg inside]
    cases memory.limit with
    | none =>
        simp only [grows, inside, reduceCtorEq, false_imp_iff, implies_true,
          true_and, false_or]
    | some limit =>
        simp only [Option.some.injEq, forall_eq', inside, false_or]
        split
        · rename_i beyond
          exact ⟨nofun, fun granted => absurd granted.1 (Nat.not_lt.mpr beyond)⟩
        · rename_i below
          rw [grows]
          exact ⟨fun room => ⟨Nat.not_le.mp below, room⟩, And.right⟩

theorem ensure_done_iff :
    (memory.perform (.ensure length)).1 = .done ↔
      length ≤ memory.length ∨ length ≤ memory.available := by
  rw [perform_ensure, ← lengthRefusal?_eq_none_iff]
  cases memory.lengthRefusal? length with
  | none => exact ⟨fun _ => rfl, fun _ => rfl⟩
  | some refusal => exact ⟨nofun, nofun⟩

theorem write_done_iff (same : address.toInt = index) :
    (memory.perform (.write address value)).1 = .done ↔
      index < memory.length ∨
        (∀ limit, memory.limit = some limit → index < limit) ∧
          index < memory.available := by
  rw [perform_write same, ← writeRefusal?_eq_none_iff]
  cases memory.writeRefusal? index with
  | none => exact ⟨fun _ => rfl, fun _ => rfl⟩
  | some refusal => exact ⟨nofun, nofun⟩

/-- A total map with an extent, after a history: reading finds what was last
written to a cell, or else what was there at the beginning, or else zero. -/
structure IsTotalMap (first : Memory) (entries : List (Access × Answer))
    (last : Memory) : Prop where
  read_eq : ∀ (address : Word) (index : Nat), address.toInt = index →
    last.perform (.read address) =
      (.value ((lastWritten? index entries).getD
        (first.cells[index]?.getD 0)), last)
  read_negative : ∀ address : Word, address.toInt < 0 →
    last.perform (.read address) =
      (.refused (.negativeAddress address.toInt), last)
  write_negative : ∀ address value : Word, address.toInt < 0 →
    last.perform (.write address value) =
      (.refused (.negativeAddress address.toInt), last)
  /-- The length is the greatest that was there, written or asked for. -/
  max_length : (first.length :: extents entries).max? = some last.length
  le_length : ∀ access, last.length ≤ (last.perform access).2.length
  unchanged : ∀ access refusal,
    (last.perform access).1 = .refused refusal →
    (last.perform access).2 = last
  write_done : ∀ (address value : Word) (index : Nat), address.toInt = index →
    ((last.perform (.write address value)).1 = .done ↔
      index < last.length ∨
        (∀ limit, first.limit = some limit → index < limit) ∧
          index < first.available)
  ensure_done : ∀ length,
    (last.perform (.ensure length)).1 = .done ↔
      length ≤ last.length ∨ length ≤ first.available

/-- A memory is a total map with an extent after any history.  Reads cannot tell
histories with the same successful writes apart, whatever lengths were asked for
in between and whatever the limits. -/
theorem history_tells (first : Memory) (accesses : List Access) :
    IsTotalMap first (first.journal accesses) (first.after accesses) ∧
      ∀ (other : Memory) (others : List Access), other.cells = first.cells →
        written (other.journal others) = written (first.journal accesses) →
        ∀ address,
          ((other.after others).perform (.read address)).1 =
            ((first.after accesses).perform (.read address)).1 := by
  have recounts := recounts first accesses
  constructor
  · constructor
    · intro address index same
      rw [perform_read same, recounts.get_eq]
      rfl
    · exact fun address negative => perform_read_negative negative
    · exact fun address value negative => perform_write_negative negative
    · exact recounts.max_length
    · exact le_length_perform _
    · exact fun access refusal refused => perform_of_refused refused
    · intro address value index same
      rw [← recounts.limit_eq, ← recounts.available_eq]
      exact write_done_iff same
    · intro length
      rw [← recounts.available_eq]
      exact ensure_done_iff
  · intro other others same_cells same_writes address
    have other_recounts := Memory.recounts other others
    have get_eq (index : Nat) :
        (other.after others).get index = (first.after accesses).get index := by
      rw [other_recounts.get_eq, recounts.get_eq, lastWritten?, lastWritten?,
        same_writes, get, get, same_cells]
    cases found : address.address? with
    | none =>
        have negative := Word.address?_eq_none_iff.mp found
        rw [perform_read_negative negative, perform_read_negative negative]
    | some index =>
        have same := Word.address?_eq_some_iff.mp found
        rw [perform_read same, perform_read same, get_eq]

/-- Two cells with a limit of six, and all that can happen to them. -/
def growing : Memory where
  cells := #[7, 8]
  limit := some 6

def growth : List Access :=
  [.write 4 42, .write 1 3, .ensure 9, .write (-1) 5, .read 20, .write 12 5,
    .write 1 4]

theorem history_tells_growing :
    (growing.after growth).perform (.read 1) =
        (.value 4, growing.after growth) ∧
      (growing.after growth).perform (.read 3) =
        (.value 0, growing.after growth) ∧
      (growing.after growth).length = 9 ∧
      ((growing.after growth).perform (.write 12 5)).2 =
        growing.after growth ∧
      (({ growing with limit := none }.after
          [.write 4 42, .write 1 3, .write 1 4]).perform (.read 4)).1 =
        ((growing.after growth).perform (.read 4)).1 := by
  obtain ⟨total, untold⟩ := history_tells growing growth
  refine ⟨?_, ?_, ?_, ?_, ?_⟩
  · rw [total.read_eq 1 1 rfl]
    rfl
  · rw [total.read_eq 3 3 rfl]
    rfl
  · have longest := total.max_length
    have known : (growing.length :: extents (growing.journal growth)).max? =
        some 9 := by
      decide +kernel
    exact Option.some.inj (longest.symm.trans known)
  · exact total.unchanged _ (.beyondLimit 12 6) (by decide +kernel)
  · exact untold { growing with limit := none }
      [.write 4 42, .write 1 3, .write 1 4] rfl (by decide +kernel) 4

end Memory

end CellMachines
