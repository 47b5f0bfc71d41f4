import CellMachines.Proofs.Machine.Conclusion
import CellMachines.Proofs.Machine.Tracking

/-!
# Machines of words against the ideal machine

A machine of words without configured limits does what the ideal machine does
until it comes to an instruction with a figure that is no word, or with a cell
to be written beyond the reach of its memory.  There it fails, and nothing but
an input that was consumed tells it from the ideal machine just before.  Each
instruction either keeps the two together or parts them for good (`Moves`), and
by induction a run keeps them together until they part.
-/

namespace CellMachines

namespace Machine

variable {machine : Machine} {tape : Tape} {ideal : Ideal} {reach : Nat}

/-! ## Instructions -/

/-- A machine on its way that nothing but the room for its memory limits, on a
tape that does not limit it either. -/
structure IsFree (reach : Nat) (machine : Machine) (tape : Tape) : Prop where
  plain : IsPlain tape
  running : machine.status.isTerminal = false
  stepLimit : machine.stepLimit = none
  memoryLimit : machine.memory.limit = none
  room : max machine.memory.length machine.memory.available = reach

namespace IsFree

variable (free : IsFree reach machine tape)
include free

theorem request_eq : machine.request = machine.effect := by
  rw [request, free.running, free.stepLimit]
  rfl

theorem storeFailure?_eq {target : Nat} (inside : Word.InRange target) :
    machine.storeFailure? target =
      if reach ≤ target then some (.allocationFailed target machine.ip)
      else none := by
  have room := free.room
  obtain ⟨_, atMost⟩ := inside
  unfold storeFailure? Memory.writeRefusal? Memory.lengthRefusal?
  rw [free.memoryLimit]
  by_cases beyond : reach ≤ target
  · rw [if_neg (by omega), if_pos beyond]
    simp only [show machine.memory.length < target + 1 ∧
      machine.memory.available < target + 1 by omega, Nat.add_sub_cancel,
      and_self, if_true, Option.map_some, Memory.Refusal.failureAt]
    rw [Int.min_eq_left atMost]
  · rw [if_neg beyond]
    split
    · rfl
    · rw [if_neg (by omega)]
      rfl

theorem stored {target : Nat} (within : ¬reach ≤ target) (value : Word)
    (width : Nat) : IsFree reach (machine.stored target value width) tape where
  plain := free.plain
  running := free.running
  stepLimit := free.stepLimit
  memoryLimit := free.memoryLimit
  room := by
    have room := free.room
    simp only [Machine.stored, Memory.length_set, Memory.available_set]
    omega

theorem fed (rest : List Word) :
    IsFree reach machine.resumed { tape with waiting := rest } :=
  ⟨⟨free.plain.dry, free.plain.room⟩, rfl, free.stepLimit, free.memoryLimit,
    free.room⟩

theorem sent (value : Word) :
    IsFree reach machine.sent
      { tape with emitted := tape.emitted.push value } :=
  ⟨⟨free.plain.dry, free.plain.room⟩, free.running, free.stepLimit,
    free.memoryLimit, free.room⟩

theorem jumped (target : Nat) : IsFree reach (machine.jumped target) tape :=
  ⟨free.plain, free.running, free.stepLimit, free.memoryLimit, free.room⟩

theorem rebased (base : Word) : IsFree reach (machine.rebased base) tape :=
  ⟨free.plain, free.running, free.stepLimit, free.memoryLimit, free.room⟩

end IsFree

theorem isFree_start (program : Program) (inputs : List Word)
    (available : Nat) :
    IsFree (program.reach available) (start program { available })
      { waiting := inputs } where
  plain := ⟨rfl, rfl⟩
  running := rfl
  stepLimit := rfl
  memoryLimit := rfl
  room := by simp [start, Memory.length, Program.reach]

namespace Agrees

variable (agrees : Agrees machine tape ideal)
include agrees

theorem failed (failure : Failure) :
    Agrees (machine.failed failure) tape ideal := by
  unfold Machine.failed
  split
  · exact agrees
  · split <;> exact ⟨agrees.memory, agrees.ip, agrees.base, agrees.waiting,
      agrees.emitted⟩

theorem stored (target : Nat) (value : Word) (width : Nat) :
    Agrees (machine.stored target value width) tape
      (ideal.stored target value.toInt width) where
  memory index := by
    simp only [Machine.stored, Ideal.stored, Memory.get_set]
    split
    · rfl
    · exact agrees.memory index
  ip := by simp only [Machine.stored, Ideal.stored, agrees.ip]
  base := agrees.base
  waiting := agrees.waiting
  emitted := agrees.emitted

theorem fed (rest : List Word) :
    Agrees machine.resumed { tape with waiting := rest }
      { ideal with waiting := rest.map Int64.toInt } :=
  ⟨agrees.memory, agrees.ip, agrees.base, rfl, agrees.emitted⟩

theorem sent (value : Word) :
    Agrees machine.sent { tape with emitted := tape.emitted.push value }
      { ideal with
        emitted := ideal.emitted ++ [value.toInt]
        ip := ideal.ip + 2 } where
  memory := agrees.memory
  ip := congrArg (· + 2) agrees.ip
  base := agrees.base
  waiting := agrees.waiting
  emitted := by simp [agrees.emitted]

theorem jumped (target : Nat) :
    Agrees (machine.jumped target) tape { ideal with ip := target } :=
  ⟨agrees.memory, rfl, agrees.base, agrees.waiting, agrees.emitted⟩

theorem rebased (base : Word) :
    Agrees (machine.rebased base) tape
      { ideal with base := base.toInt, ip := ideal.ip + 2 } :=
  ⟨agrees.memory, congrArg (· + 2) agrees.ip, rfl, agrees.waiting,
    agrees.emitted⟩

theorem halted : Agrees machine.halted tape ideal :=
  ⟨agrees.memory, agrees.ip, agrees.base, agrees.waiting, agrees.emitted⟩

end Agrees

/-- What becomes of the next instruction: the machine fails where the ideal one
goes beyond words, and else the two do the same. -/
def Moves (reach : Nat) (machine : Machine) (tape : Tape) (ideal : Ideal) :
    Prop :=
  match ideal.departure? reach with
  | some (failure, left) =>
    ∃ last final,
      machine.step Tape.surroundings tape = (.error failure, last, final) ∧
        Agrees last final left
  | none =>
    ∃ next after,
      machine.step Tape.surroundings tape = (ideal.step.1, next, after) ∧
        Agrees next after ideal.step.2 ∧
        (ideal.step.1 = .ok .proceeds → IsFree reach next after)

section Moves

variable (agrees : Agrees machine tape ideal)
  (free : IsFree reach machine tape)
include agrees free

private theorem moves_of_store {target : Nat} {value : Word}
    (inside : Word.InRange target) (figures : ideal.effect.InRange)
    (asks : machine.request = .ok (.store target value))
    (intends : ideal.effect.result = .ok (.store target value.toInt)) :
    Moves reach machine tape ideal := by
  have refusal := free.storeFailure?_eq inside
  by_cases beyond : reach ≤ target
  · rw [if_pos beyond, agrees.ip] at refusal
    simp only [Moves, Ideal.departure?, figures, intends, beyond, if_true, step,
      asks, settle, refusal]
    exact ⟨_, _, rfl, agrees.failed _⟩
  · rw [if_neg beyond] at refusal
    simp only [Moves, Ideal.departure?, figures, intends, beyond, if_true,
      if_false, step, asks, settle, refusal, Ideal.step, Ideal.perform]
    exact ⟨_, _, rfl, agrees.stored target value 4,
      fun _ => free.stored beyond value 4⟩

private theorem moves_of_input {target : Nat} (inside : Word.InRange target)
    (figures : ideal.effect.InRange)
    (asks : machine.request = .ok (.input target))
    (intends : ideal.effect.result = .ok (.input target)) :
    Moves reach machine tape ideal := by
  have inputs := agrees.waiting
  cases waiting : tape.waiting with
  | nil =>
      rw [waiting, List.map_nil] at inputs
      simp only [Moves, Ideal.departure?, figures, intends, ← inputs, if_true,
        step, asks, Tape.surroundings, Tape.take, waiting, free.plain.dry,
        Ideal.step, Ideal.perform]
      refine ⟨_, _, rfl, agrees.failed _, ?_⟩
      intro proceeds
      cases proceeds
  | cons value rest =>
      rw [waiting, List.map_cons] at inputs
      have refusal := free.storeFailure?_eq inside
      rw [← storeFailure?_resumed] at refusal
      by_cases beyond : reach ≤ target
      · rw [if_pos beyond, agrees.ip] at refusal
        simp only [Moves, Ideal.departure?, figures, intends, ← inputs, beyond,
          if_true, step, asks, Tape.surroundings, Tape.take, waiting, settle,
          refusal]
        exact ⟨_, _, rfl, (agrees.fed rest).failed _⟩
      · rw [if_neg beyond] at refusal
        simp only [Moves, Ideal.departure?, figures, intends, ← inputs, beyond,
          if_true, if_false, step, asks, Tape.surroundings, Tape.take, waiting,
          settle, refusal, Ideal.step, Ideal.perform]
        exact ⟨_, _, rfl, (agrees.fed rest).stored target value 2,
          fun _ => (free.fed rest).stored beyond value 2⟩

theorem moves : Moves reach machine tape ideal := by
  have request := free.request_eq
  have tracks := tracks_effect agrees
  generalize machine.effect = asked at tracks request
  cases tracks with
  | overflows beyond =>
      simp only [Moves, Ideal.departure?, beyond, if_false, step, request,
        ← agrees.ip]
      exact ⟨_, _, rfl, agrees.failed _⟩
  | fails inside fails =>
      simp only [Moves, Ideal.departure?, inside, fails, if_true, step, request,
        Ideal.step]
      refine ⟨_, _, rfl, agrees.failed _, ?_⟩
      intro proceeds
      cases proceeds
  | yields inside yields denotes =>
      cases denotes with
      | store nameable =>
          exact moves_of_store agrees free nameable inside request yields
      | input nameable =>
          exact moves_of_input agrees free nameable inside request yields
      | output =>
          have taken : tape.refusal? = none := by
            rw [Tape.refusal?, free.plain.room]
          simp only [Moves, Ideal.departure?, inside, yields, if_true, step,
            request, Tape.surroundings, Tape.put, taken, Ideal.step,
            Ideal.perform]
          exact ⟨_, _, rfl, agrees.sent _, fun _ => free.sent _⟩
      | jump =>
          simp only [Moves, Ideal.departure?, inside, yields, if_true, step,
            request, Ideal.step, Ideal.perform]
          exact ⟨_, _, rfl, agrees.jumped _, fun _ => free.jumped _⟩
      | rebase =>
          simp only [Moves, Ideal.departure?, inside, yields, if_true, step,
            request, Ideal.step, Ideal.perform]
          exact ⟨_, _, rfl, agrees.rebased _, fun _ => free.rebased _⟩
      | halt =>
          simp only [Moves, Ideal.departure?, inside, yields, if_true, step,
            request, Ideal.step, Ideal.perform]
          refine ⟨_, _, rfl, agrees.halted, ?_⟩
          intro proceeds
          cases proceeds

end Moves

/-! ## Runs -/

/-- How a machine on a tape has ended within a number of instructions, if it
has, and where it stands then. -/
def after : Nat → Machine → Tape →
    Option (Except Failure Unit) × Machine × Tape
  | 0, machine, tape => (none, machine, tape)
  | steps + 1, machine, tape =>
    match machine.step Tape.surroundings tape with
    | (.ok .proceeds, next, rest) => after steps next rest
    | (.ok .halts, last, final) => (some (.ok ()), last, final)
    | (.error failure, last, final) => (some (.error failure), last, final)

theorem run_eq_after (steps : Nat) (machine : Machine) (tape : Tape) :
    run Tape.surroundings steps machine tape =
      (after steps machine tape).1.map
        fun result => (result, (after steps machine tape).2) := by
  induction steps generalizing machine tape with
  | zero => rfl
  | succ steps induction =>
      rw [run, after]
      rcases machine.step Tape.surroundings tape with
        ⟨failure | outcome, next, rest⟩
      · rfl
      · cases outcome with
        | proceeds => exact induction next rest
        | halts => rfl

theorem step_of_together (agrees : Agrees machine tape ideal)
    (free : IsFree reach machine tape)
    (together : ideal.departure? reach = none) :
    ∃ next rest,
      machine.step Tape.surroundings tape = (ideal.step.1, next, rest) ∧
        Agrees next rest ideal.step.2 ∧
        (ideal.step.1 = .ok .proceeds → IsFree reach next rest) := by
  have moves := moves agrees free
  rwa [Moves, together] at moves

theorem step_of_departure {failure : Failure} {left : Ideal}
    (agrees : Agrees machine tape ideal) (free : IsFree reach machine tape)
    (departs : ideal.departure? reach = some (failure, left)) :
    ∃ last final,
      machine.step Tape.surroundings tape = (.error failure, last, final) ∧
        Agrees last final left := by
  have moves := moves agrees free
  rwa [Moves, departs] at moves

/-- As long as no instruction parts them, the two machines do the same. -/
theorem after_eq_of_together (agrees : Agrees machine tape ideal)
    (free : IsFree reach machine tape) {steps : Nat}
    (together : ideal.StaysWithin reach steps) :
    (after steps machine tape).1 = (ideal.after steps).1 ∧
      Agrees (after steps machine tape).2.1 (after steps machine tape).2.2
        (ideal.after steps).2 := by
  induction steps generalizing machine tape ideal with
  | zero => exact ⟨rfl, agrees⟩
  | succ steps induction =>
      obtain ⟨next, rest, stepped, agrees, free⟩ :=
        step_of_together agrees free together.head
      rcases meant : ideal.step with ⟨failure | outcome, other⟩
      · rw [meant] at stepped agrees
        rw [after, stepped, Ideal.after, meant]
        exact ⟨rfl, agrees⟩
      · rw [meant] at stepped agrees free
        cases outcome with
        | halts =>
            rw [after, stepped, Ideal.after, meant]
            exact ⟨rfl, agrees⟩
        | proceeds =>
            rw [after, stepped, Ideal.after_succ meant]
            exact induction agrees (free rfl) (together.tail meant)

/-- At the first instruction that parts the two machines the run is over. -/
theorem after_of_departure (agrees : Agrees machine tape ideal)
    (free : IsFree reach machine tape) {done : Nat} {failure : Failure}
    {left : Ideal} (together : ideal.StaysWithin reach done)
    (departs : ideal.departureAfter? reach done = some (failure, left))
    {steps : Nat} (within : done < steps) :
    (after steps machine tape).1 = some (.error failure) ∧
      Agrees (after steps machine tape).2.1 (after steps machine tape).2.2
        left := by
  obtain ⟨steps, rfl⟩ : ∃ rest, steps = rest + 1 := ⟨steps - 1, by omega⟩
  induction done generalizing machine tape ideal steps with
  | zero =>
      obtain ⟨last, final, stepped, agrees⟩ :=
        step_of_departure agrees free departs
      rw [after, stepped]
      exact ⟨rfl, agrees⟩
  | succ done induction =>
      obtain ⟨next, rest, stepped, agrees, free⟩ :=
        step_of_together agrees free together.head
      obtain ⟨other, meant⟩ := Ideal.step_of_departureAfter?_succ departs
      rw [meant] at stepped agrees free
      rw [Ideal.departureAfter?_succ meant] at departs
      obtain ⟨steps, rfl⟩ : ∃ rest, steps = rest + 1 := ⟨steps - 1, by omega⟩
      rw [after, stepped]
      exact induction agrees (free rfl) (together.tail meant) departs steps
        (Nat.lt_of_succ_lt_succ within)

/-- A machine of words without configured limits refines the ideal machine.
After any number of instructions it has ended or not as the ideal machine has,
for the same reason, and stands where that one does, unless an instruction among
these was beyond words or beyond the reach of the memory.  The first such
instruction is an overflow or a failed allocation at its own instruction
pointer, and leaves everything as it was but for an input consumed. -/
theorem run_refines_ideal (program : Program) (inputs : List Word)
    (available steps : Nat) :
    ∃ ending last final,
      after steps (start program { available }) { waiting := inputs } =
        (ending, last, final) ∧
      run Tape.surroundings steps (start program { available })
          { waiting := inputs } =
        ending.map (·, last, final) ∧
      ((Ideal.start program inputs).StaysWithin (program.reach available)
          steps →
        ending = ((Ideal.start program inputs).after steps).1 ∧
          Agrees last final ((Ideal.start program inputs).after steps).2) ∧
      ∀ done < steps, ∀ failure left,
        (Ideal.start program inputs).StaysWithin (program.reach available)
          done →
        (Ideal.start program inputs).departureAfter? (program.reach available)
          done = some (failure, left) →
        ending = some (.error failure) ∧ Agrees last final left ∧
          ∃ stop, (Ideal.start program inputs).after done = (none, stop) ∧
            left = { stop with waiting := left.waiting } ∧
            (failure = .arithmeticOverflow stop.ip ∧ ¬stop.effect.InRange ∨
              ∃ target ≥ program.reach available,
                failure = .allocationFailed target stop.ip) := by
  have agrees := agrees_start program { available } inputs
  have free := isFree_start program inputs available
  rcases ran : after steps (start program { available })
    { waiting := inputs } with ⟨ending, last, final⟩
  refine ⟨ending, last, final, rfl, ?_, ?_, ?_⟩
  · rw [run_eq_after, ran]
  · intro together
    have same := after_eq_of_together agrees free together
    rwa [ran] at same
  · intro done within failure left together departs
    have parted := after_of_departure agrees free together departs within
    rw [ran] at parted
    exact ⟨parted.1, parted.2, Ideal.departureAfter?_cases departs⟩

/-- A program that puts out a seven and adds one to the greatest word. -/
def overflowing : Program where
  cells := [104, 7, 1101, 9223372036854775807, 1, 0, 99]

/-- The two machines part at the second instruction, not at the first one. -/
theorem run_refines_ideal_overflowing :
    ∃ last final,
      run Tape.surroundings 5 (start overflowing {}) { waiting := [] } =
        some (.error (.arithmeticOverflow 2), last, final) ∧
      last.ip = 2 ∧ final.emitted.toList.map Int64.toInt = [7] := by
  have stays : ((Ideal.start overflowing []).departureAfter?
      (overflowing.reach Memory.addressable) 0).isNone = true := by
    decide +kernel
  have departs : ((Ideal.start overflowing []).departureAfter?
      (overflowing.reach Memory.addressable) 1).any (fun (failure, left) =>
        failure = .arithmeticOverflow 2 && left.ip = 2 &&
          left.emitted = [7]) = true := by
    decide +kernel
  obtain ⟨⟨failure, left⟩, departs, checks⟩ :=
    (Option.any_eq_true _ _).mp departs
  simp only [Bool.and_eq_true, decide_eq_true_eq] at checks
  obtain ⟨⟨rfl, ip⟩, emitted⟩ := checks
  obtain ⟨ending, last, final, _, ran, _, parts⟩ :=
    run_refines_ideal overflowing [] Memory.addressable 5
  have together : (Ideal.start overflowing []).StaysWithin
      (overflowing.reach Memory.addressable) 1 := by
    intro done first
    obtain rfl : done = 0 := by omega
    exact Option.isNone_iff_eq_none.mp stays
  obtain ⟨rfl, agrees, _⟩ := parts 1 (by omega) _ left together departs
  exact ⟨last, final, ran, agrees.ip.trans ip, agrees.emitted.trans emitted⟩

end Machine

end CellMachines
