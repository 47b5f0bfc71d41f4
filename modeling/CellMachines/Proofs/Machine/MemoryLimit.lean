import CellMachines.Proofs.Machine.Limits

/-!
# Runs with a memory limit

A memory limit is looked at only where the memory would have to grow, so what
counts is the limit or the length of the program, whichever is more: no memory
ever gets longer than that.  A run goes the same way with the limit and without
it as long as no instruction gets to write a cell at this bound or beyond.  The
first one that does is refused, whatever room the system has, and leaves
everything as it was but for an input it has taken.
-/

namespace CellMachines

namespace Memory

variable {memory : Memory} {least limit index bound : Nat} {value : Word}

/-- A limit beyond a cell is of no account there, and none is in a memory that
has the cell already. -/
theorem writeRefusal?_of_lt (unlimited : memory.limit = none)
    (grown : least ≤ memory.length) (below : index < max limit least) :
    writeRefusal? { memory with limit := some limit } index =
      memory.writeRefusal? index := by
  have same : length { memory with limit := some limit } = memory.length := rfl
  unfold writeRefusal?
  rw [same, unlimited]
  by_cases inside : index < memory.length
  · rw [if_pos inside, if_pos inside]
  · have small : ¬limit ≤ index := by omega
    rw [if_neg inside, if_neg inside]
    exact if_neg small

theorem writeRefusal?_of_le (limited : memory.limit = some limit)
    (outside : memory.length ≤ index) (beyond : limit ≤ index) :
    memory.writeRefusal? index = some (.beyondLimit index limit) := by
  unfold writeRefusal?
  rw [if_neg (Nat.not_lt_of_le outside), limited]
  exact if_pos beyond

theorem length_set_le (limited : memory.limit = some limit)
    (within : limit ≤ bound) (fits : memory.length ≤ bound)
    (accepted : memory.writeRefusal? index = none) :
    (memory.set index value).length ≤ bound := by
  rw [length_set]
  by_contra long
  have refused : memory.writeRefusal? index = _ :=
    writeRefusal?_of_le limited (by omega) (by omega)
  rw [refused] at accepted
  cases accepted

end Memory

namespace Machine

variable {σ : Type} {surroundings : Surroundings σ} {world left : σ}
  {first machine next last : Machine} {tape between final : Tape}
  {outcome : Except Failure Outcome} {limits : Limits}
  {least limit bound steps target : Nat}

/-- The same limits, but for the memory. -/
def withMemory (limits : Limits) (memory : Option Nat) : Limits :=
  { limits with memory }

/-! ## The length of the memory -/

theorem writeRefusal?_of_storeFailure?
    (accepted : machine.storeFailure? target = none) :
    machine.memory.writeRefusal? target = none :=
  Option.map_eq_none_iff.mp accepted

/-- The memory has a limit, and neither this nor its length is beyond a bound.
-/
structure Fits (limit bound : Nat) (machine : Machine) : Prop where
  limited : machine.memory.limit = some limit
  within : limit ≤ bound
  fits : machine.memory.length ≤ bound

theorem Fits.of_does (fits : Fits limit bound machine)
    (does : Does surroundings machine world outcome next left) :
    Fits limit bound next := by
  rcases does.memory_cases with same | ⟨target, value, accepted, same⟩
  · constructor
    · rw [same, fits.limited]
    · exact fits.within
    · rw [same]
      exact fits.fits
  · refine ⟨by rw [same, Memory.limit_set, fits.limited], fits.within, ?_⟩
    rw [same]
    exact Memory.length_set_le fits.limited fits.within fits.fits
      (writeRefusal?_of_storeFailure? accepted)

theorem Fits.stepped (fits : Fits limit bound machine)
    (occasions : List (Occasion σ)) :
    Fits limit bound (machine.stepped occasions) := by
  induction occasions generalizing machine with
  | nil => exact fits
  | cons occasion later induction =>
      apply induction
      exact fits.of_does (Call.does { occasion with machine })

/-! ## Below the bound -/

/-- A machine with all cells of its program does not notice a memory limit at a
cell below the bound. -/
theorem isIndifferent_of_writes?_lt
    (same : machine.limits = withMemory limits none)
    (grown : least ≤ machine.memory.length)
    (below : ∀ target, machine.writes? surroundings world = some target →
      target < max limit least) :
    machine.IsIndifferent surroundings world
      (withMemory limits (some limit)) := by
  have unlimited : machine.memory.limit = none := congrArg Limits.memory same
  have room : machine.memory.available = limits.available :=
    congrArg Limits.available same
  have steps : machine.stepLimit = limits.steps := congrArg Limits.steps same
  constructor
  · rw [request_under]
    exact steps.symm
  · intro target writes
    have refusal := Memory.writeRefusal?_of_lt unlimited grown
      (below target writes)
    have memory : (machine.under (withMemory limits (some limit))).memory =
        { machine.memory with limit := some limit } := by
      rw [under, withMemory, ← room]
    rw [storeFailure?, memory, refusal]
    rfl

/-! ## Beyond it -/

theorem ne_inputExhausted_of_storeFailure? {failure : Failure}
    (refused : machine.storeFailure? target = some failure) :
    failure ≠ .inputExhausted := by
  rintro rfl
  cases isFault_of_storeFailure? refused

/-- What an instruction that gets to write leaves behind when its write is
refused depends only on what it asks for. -/
theorem exists_does_of_refused
    (writes : machine.writes? surroundings world = some target) :
    ∃ left, machine.Spends surroundings world target left ∧
      ∀ other failure, other.request = machine.request →
        other.storeFailure? target = some failure →
        Does surroundings other world (.error failure) other.faulted left := by
  obtain ⟨left, spends⟩ := exists_spends_of_writes? writes
  refine ⟨left, spends, ?_⟩
  intro other failure same refused
  rcases spends with ⟨⟨value, asks⟩, rfl⟩ | ⟨asks, value, taken⟩
  · rw [asks] at same
    have running := (effect_of_request same).1
    rw [← failed_of_ne running (ne_inputExhausted_of_storeFailure? refused)]
    exact .overreaches same refused
  · rw [asks] at same
    have does := Does.loses same taken refused
    rw [failed_of_ne rfl (ne_inputExhausted_of_storeFailure? refused)] at does
    exact does

variable {program : Program}

/-- Among so many instructions none gets to write a cell at the bound or
beyond. -/
def StaysBelow (bound steps : Nat) (first : Machine) (tape : Tape) : Prop :=
  ∀ done < steps, ∀ machine between,
    after done first tape = (none, machine, between) →
      ∀ target, machine.writes? Tape.surroundings between = some target →
        target < bound

theorem length_le_of_going
    (reached : after steps first tape = (none, last, final)) :
    first.memory.length ≤ last.memory.length := by
  refine after_keeps
    (fun machine => first.memory.length ≤ machine.memory.length) ?_
    (Nat.le_refl _) reached
  intro machine next tape rest does grown
  exact Nat.le_trans grown does.length_mono

theorem fits_of_going (fits : Fits limit bound first)
    (reached : after steps first tape = (none, last, final)) :
    Fits limit bound last := by
  refine after_keeps (Fits limit bound) ?_ fits reached
  intro machine next tape rest does fits
  exact fits.of_does does

theorem fits_start (program : Program) (limits : Limits) (limit : Nat) :
    Fits limit (max limit program.cells.length)
      (start program (withMemory limits (some limit))) where
  limited := rfl
  within := Nat.le_max_left _ _
  fits := Nat.le_max_right _ _

/-- Below the bound, a run goes the same way with the limit and without it. -/
theorem after_of_staysBelow {ending : Option (Except Failure Unit)}
    (below : StaysBelow (max limit program.cells.length) steps
      (start program (withMemory limits none)) tape)
    (reached : after steps (start program (withMemory limits none)) tape =
      (ending, last, final)) :
    after steps (start program (withMemory limits (some limit))) tape =
      (ending, last.under (withMemory limits (some limit)), final) := by
  rw [← start_under program (withMemory limits none)]
  apply after_under ?_ reached
  intro done within machine between goes
  apply isIndifferent_of_writes?_lt
  · exact limits_of_going goes
  · exact length_le_of_going goes
  · exact below done within machine between goes

theorem storeFailure?_of_le (fits : Fits limit bound machine)
    (beyond : bound ≤ target) :
    machine.storeFailure? target =
      some (.memoryLimitExceeded target limit) := by
  have refused := Memory.writeRefusal?_of_le fits.limited
    (Nat.le_trans fits.fits beyond) (Nat.le_trans fits.within beyond)
  rw [storeFailure?, refused]
  rfl

/-- A memory limit changes nothing about a run as long as no instruction gets
to write a cell at the limit or beyond, or beyond the program if that is longer.
The first one that gets to write there fails without regard to what memory is
available, and changes nothing but the status and, if it is an input, what is
left to be taken.  The memory never gets longer than that, whatever the machine
is stepped with. -/
theorem memoryLimit_cuts_run (program : Program) (limits : Limits) (tape : Tape)
    (limit : Nat) :
    (∀ steps,
      StaysBelow (max limit program.cells.length) steps
          (start program (withMemory limits none)) tape →
        (∀ ending last final,
          after steps (start program (withMemory limits none)) tape =
              (ending, last, final) →
            after steps (start program (withMemory limits (some limit))) tape =
              (ending, last.under (withMemory limits (some limit)), final)) ∧
        run Tape.surroundings steps
            (start program (withMemory limits (some limit))) tape =
          (run Tape.surroundings steps (start program (withMemory limits none))
              tape).map
            fun (result, last, final) =>
              (result, last.under (withMemory limits (some limit)), final)) ∧
    (∀ done machine between target,
      StaysBelow (max limit program.cells.length) done
          (start program (withMemory limits none)) tape →
        after done (start program (withMemory limits none)) tape =
          (none, machine, between) →
        machine.writes? Tape.surroundings between = some target →
        max limit program.cells.length ≤ target →
        ∃ final,
          machine.Spends Tape.surroundings between target final ∧
          (∀ available,
            let other := machine.under
              { withMemory limits (some limit) with available }
            other.step Tape.surroundings between =
              (.error (.memoryLimitExceeded target limit), other.faulted,
                final)) ∧
          ∀ budget > done,
            run Tape.surroundings budget
                (start program (withMemory limits (some limit))) tape =
              some (.error (.memoryLimitExceeded target limit),
                (machine.under (withMemory limits (some limit))).faulted,
                final)) ∧
    ∀ (σ : Type) (occasions : List (Occasion σ)),
      ((start program (withMemory limits (some limit))).stepped
        occasions).memory.length ≤ max limit program.cells.length := by
  refine ⟨?_, ?_, ?_⟩
  · intro steps below
    refine ⟨fun _ _ _ reached => after_of_staysBelow below reached, ?_⟩
    rcases reached : after steps (start program (withMemory limits none)) tape
      with ⟨ending, last, final⟩
    rw [run_eq_after, run_eq_after, after_of_staysBelow below reached, reached]
    cases ending <;> rfl
  · intro done machine between target below reached writes beyond
    have capped := after_of_staysBelow below reached
    have fits := fits_of_going (fits_start program limits limit) capped
    have steps : machine.stepLimit = limits.steps :=
      congrArg Limits.steps (limits_of_going reached)
    obtain ⟨final, taken, refuses⟩ := exists_does_of_refused writes
    have does (available : Nat) := refuses
      (machine.under { withMemory limits (some limit) with available })
      (.memoryLimitExceeded target limit) (request_under steps.symm)
      (storeFailure?_of_le ⟨rfl, fits.within, fits.fits⟩ beyond)
    refine ⟨final, taken, fun available => (does available).step_eq, ?_⟩
    intro budget later
    obtain ⟨further, rfl⟩ : ∃ further, budget = done + (further + 1) :=
      ⟨budget - done - 1, by omega⟩
    rw [run_eq_some_iff, after_add capped]
    exact after_of_does (does limits.available) further
  · intro σ occasions
    exact ((fits_start program limits limit).stepped occasions).fits

/-- A program that writes its first cell beyond its end and then one far
away. -/
def straying : Program where
  cells := [1101, 1, 2, 9, 1101, 3, 4, 20, 99]

/-- With room for ten cells the first write is accepted and the second one
refused, with room for three already the first one. -/
theorem memoryLimit_cuts_run_straying :
    ((run Tape.surroundings 2
          (start straying (withMemory {} (some 10))) { waiting := [] }).map
        fun (result, last, _) => (result, last.ip, last.memory.length)) =
      some (.error (.memoryLimitExceeded 20 10), 4, 10) ∧
    ((run Tape.surroundings 1
          (start straying (withMemory {} (some 3))) { waiting := [] }).map
        fun (result, last, _) => (result, last.ip, last.memory.length)) =
      some (.error (.memoryLimitExceeded 9 3), 0, 9) := by
  constructor
  · obtain ⟨_, refused, _⟩ :=
      memoryLimit_cuts_run straying {} { waiting := [] } 10
    have below : StaysBelow (max 10 straying.cells.length) 1
        (start straying (withMemory {} none)) { waiting := [] } := by
      intro done first machine between reached target writes
      obtain rfl : done = 0 := by omega
      cases reached
      have own : writes? Tape.surroundings (start straying (withMemory {} none))
          { waiting := [] } = some 9 := by decide +kernel
      rw [own] at writes
      cases writes
      decide
    obtain ⟨final, _, _, ends⟩ := refused 1 _ _ 20 below rfl
      (by decide +kernel) (by decide)
    rw [ends 2 (by decide)]
    rfl
  · obtain ⟨_, refused, _⟩ :=
      memoryLimit_cuts_run straying {} { waiting := [] } 3
    obtain ⟨final, _, _, ends⟩ := refused 0 _ _ 9 nofun rfl
      (by decide +kernel) (by decide)
    rw [ends 1 (by decide)]
    rfl

end Machine

end CellMachines
