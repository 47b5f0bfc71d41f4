import CellMachines.Proofs.Listing.Tiling
import CellMachines.Proofs.Machine.Deeds

/-!
# What a step leaves alone

The table of instructions says how many operands an opcode has and which of them
it writes, and listings are made by it.  A machine does not look there: it goes
on by the effect of the instruction at hand.  Both agree (`Performs`).  A step
that does not jump ends up right behind the operands of its instruction, so that
a machine that stands on an instruction of a listing goes on to the next line of
it.  The one cell that may change is the one that the written operand names, as
the operand stood before the step, even where that cell belongs to the
instruction itself.
-/

namespace CellMachines

open Listing (Line)

namespace Opcode

variable {opcode : Opcode}

theorem of_writeSlot_eq_two (writes : opcode.writeSlot = some 2) :
    opcode = .add ∨ opcode = .mul ∨ opcode = .lessThan ∨ opcode = .equals := by
  cases opcode <;> simp [writeSlot] at writes ⊢

end Opcode

namespace Machine

variable {σ : Type} {surroundings : Surroundings σ} {machine next : Machine}
  {world left : σ} {instruction : Instruction}
  {target : Nat} {value : Word}

/-- A step of the machine, after which it is `next` and its surroundings are
`left`, does what the table says of the instruction, and nothing else. -/
structure Performs (surroundings : Surroundings σ) (machine : Machine)
    (world : σ) (instruction : Instruction) (next : Machine) (left : σ) :
    Prop where
  goes_on : ¬machine.IsTaken instruction →
    next.ip = machine.ip + instruction.width
  jumps : machine.IsTaken instruction →
    ∃ destination, machine.Reads instruction 1 destination ∧
      destination.toInt = next.ip
  writes : ∀ slot, instruction.opcode.writeSlot = some slot →
    ∃ target, machine.Names instruction slot target ∧
      next.memory.length = max machine.memory.length (target + 1) ∧
      ∀ index, index ≠ target →
        next.memory.get index = machine.memory.get index
  keeps : instruction.opcode.writeSlot = none → next.memory = machine.memory
  base : instruction.opcode ≠ .adjustBase → next.base = machine.base
  takes : instruction.opcode = .input →
    ∃ target value, machine.Names instruction 0 target ∧
      surroundings.take world = (.ok value, left) ∧
      next.memory.get target = value
  puts : instruction.opcode = .output →
    ∃ value, machine.Reads instruction 0 value ∧
      surroundings.put value world = (.ok (), left)
  apart : instruction.opcode ≠ .input → instruction.opcode ≠ .output →
    left = world

/-! ## The deeds of a step -/

theorem IsTaken.opcode (taken : machine.IsTaken instruction) :
    instruction.opcode = .jumpIfTrue ∨ instruction.opcode = .jumpIfFalse := by
  obtain ⟨_, _, ⟨opcode, _⟩ | ⟨opcode, _⟩⟩ := taken
  · exact .inl opcode
  · exact .inr opcode

theorem set_frame (memory : Memory) (target : Nat) (value : Word) :
    (memory.set target value).length = max memory.length (target + 1) ∧
      ∀ index, index ≠ target →
        (memory.set target value).get index = memory.get index := by
  refine ⟨Memory.length_set memory target value, ?_⟩
  intro index other
  rw [Memory.get_set, if_neg other]

theorem performs_stored (writes : instruction.opcode.writeSlot = some 2)
    (named : machine.Names instruction 2 target) :
    Performs surroundings machine world instruction
      (machine.stored target value 4) world := by
  have opcodes := Opcode.of_writeSlot_eq_two writes
  constructor
  case goes_on =>
    intro _
    rcases opcodes with opcode | opcode | opcode | opcode
    all_goals simp [stored, Instruction.width, opcode, Opcode.arity]
  case jumps =>
    intro taken
    have jump := taken.opcode
    rcases opcodes with opcode | opcode | opcode | opcode
    all_goals simp [opcode] at jump
  case writes =>
    intro slot again
    cases writes.symm.trans again
    exact ⟨target, named, set_frame machine.memory target value⟩
  case keeps =>
    intro none
    cases writes.symm.trans none
  case base => exact fun _ => rfl
  case takes | puts =>
    intro opcode
    simp [opcode] at opcodes
  case apart => exact fun _ _ => rfl

theorem performs_taken (opcode : instruction.opcode = .input)
    (named : machine.Names instruction 0 target)
    (taken : surroundings.take world = (.ok value, left)) :
    Performs surroundings machine world instruction
      (machine.resumed.stored target value 2) left := by
  constructor
  case goes_on =>
    intro _
    rw [Instruction.width, opcode]
    rfl
  case jumps =>
    intro taken
    have jump := taken.opcode
    simp [opcode] at jump
  case writes =>
    intro slot writes
    rw [opcode] at writes
    cases writes
    exact ⟨target, named, set_frame machine.memory target value⟩
  case keeps =>
    intro none
    rw [opcode] at none
    cases none
  case base => exact fun _ => rfl
  case takes =>
    intro _
    refine ⟨target, value, named, taken, ?_⟩
    exact (Memory.get_set machine.memory target target value).trans (if_pos rfl)
  case puts =>
    intro other
    cases opcode.symm.trans other
  case apart =>
    intro other _
    exact absurd opcode other

theorem performs_sent (opcode : instruction.opcode = .output)
    (reads : machine.Reads instruction 0 value)
    (put : surroundings.put value world = (.ok (), left)) :
    Performs surroundings machine world instruction machine.sent left := by
  constructor
  case goes_on =>
    intro _
    rw [Instruction.width, opcode]
    rfl
  case jumps =>
    intro taken
    have jump := taken.opcode
    simp [opcode] at jump
  case writes =>
    intro slot writes
    rw [opcode] at writes
    cases writes
  case keeps | base => exact fun _ => rfl
  case takes =>
    intro other
    cases opcode.symm.trans other
  case puts => exact fun _ => ⟨value, reads, put⟩
  case apart =>
    intro _ other
    exact absurd opcode other

theorem performs_rebased {base : Word} (opcode : instruction.opcode = .adjustBase) :
    Performs surroundings machine world instruction (machine.rebased base)
      world := by
  constructor
  case goes_on =>
    intro _
    rw [Instruction.width, opcode]
    rfl
  case jumps =>
    intro taken
    have jump := taken.opcode
    simp [opcode] at jump
  case writes =>
    intro slot writes
    rw [opcode] at writes
    cases writes
  case keeps => exact fun _ => rfl
  case base =>
    intro other
    exact absurd opcode other
  case takes | puts =>
    intro other
    cases opcode.symm.trans other
  case apart => exact fun _ _ => rfl

theorem performs_jumped
    (opcode : instruction.opcode = .jumpIfTrue ∨
      instruction.opcode = .jumpIfFalse)
    (goes_on : ¬machine.IsTaken instruction →
      target = machine.ip + instruction.width)
    (jumps : machine.IsTaken instruction →
      ∃ destination, machine.Reads instruction 1 destination ∧
        destination.toInt = target) :
    Performs surroundings machine world instruction (machine.jumped target)
      world := by
  constructor
  case goes_on => exact goes_on
  case jumps => exact jumps
  case writes =>
    intro slot writes
    rcases opcode with opcode | opcode
    all_goals
      rw [opcode] at writes
      cases writes
  case keeps | base => exact fun _ => rfl
  case takes | puts =>
    intro other
    simp [other] at opcode
  case apart => exact fun _ _ => rfl

theorem Does.exists_performs
    (does : Does surroundings machine world (.ok .proceeds) next left) :
    ∃ instruction,
      Instruction.decode (machine.memory.get machine.ip) machine.ip =
          .ok instruction ∧
        Performs surroundings machine world instruction next left := by
  cases does with
  | stores asks =>
      obtain ⟨instruction, decodes, causes⟩ := causes_of_request asks
      refine ⟨instruction, decodes, ?_⟩
      cases causes with
      | store writes named => exact performs_stored writes named
  | takes asks taken =>
      obtain ⟨instruction, decodes, causes⟩ := causes_of_request asks
      refine ⟨instruction, decodes, ?_⟩
      cases causes with
      | input opcode named => exact performs_taken opcode named taken
  | puts asks put =>
      obtain ⟨instruction, decodes, causes⟩ := causes_of_request asks
      refine ⟨instruction, decodes, ?_⟩
      cases causes with
      | output opcode reads => exact performs_sent opcode reads put
  | jumps asks =>
      obtain ⟨instruction, decodes, causes⟩ := causes_of_request asks
      refine ⟨instruction, decodes, ?_⟩
      cases causes with
      | jump taken reads leads =>
          exact performs_jumped taken.opcode (absurd taken)
            (fun _ => ⟨_, reads, leads⟩)
      | pass opcode straight =>
          exact performs_jumped opcode (fun _ => rfl) (absurd · straight)
  | rebases asks =>
      obtain ⟨instruction, decodes, causes⟩ := causes_of_request asks
      refine ⟨instruction, decodes, ?_⟩
      cases causes with
      | rebase opcode => exact performs_rebased opcode

/-! ## The next line of a listing -/

/-- A line of a listing that shows an instruction shows the one that a machine
finds at its address, and the next line begins where that instruction ends. -/
theorem next_line {memory : Memory} {earlier following : List Line}
    {address : Nat} {shown : Instruction} {operands : List Word}
    (listing : Listing.ofCells memory.cells.toList =
      earlier ++ ⟨address, .code shown operands⟩ :: following)
    (decodes : Instruction.decode (memory.get address) address =
      .ok instruction) :
    shown = instruction ∧
      (following.head?.map Line.address).getD memory.length =
        address + instruction.width := by
  have tiles := (Listing.sweeps_ofCells memory.cells.toList).tiles
  have shows_line := Listing.shows_ofCells memory.cells.toList
  rw [listing] at tiles shows_line
  have same : shown = instruction := by
    cases shows_line _ (List.mem_append_right earlier List.mem_cons_self) with
    | code found again _ =>
        rw [Memory.get, ← Array.getElem?_toList, found] at decodes
        cases again.symm.trans decodes
        rfl
  subst same
  rw [Nat.zero_add] at tiles
  exact ⟨rfl, tiles.next⟩

/-- A step that goes on does what the table says of the instruction at hand.  On
a line of a listing it goes on to the next line, or behind the last cell, unless
it jumps. -/
theorem step_follows_table
    (steps : machine.step surroundings world = (.ok .proceeds, next, left)) :
    ∃ instruction,
      Instruction.decode (machine.memory.get machine.ip) machine.ip =
          .ok instruction ∧
        Performs surroundings machine world instruction next left ∧
        ∀ earlier following shown operands,
          Listing.ofCells machine.memory.cells.toList =
              earlier ++ ⟨machine.ip, .code shown operands⟩ :: following →
            shown = instruction ∧
              (¬machine.IsTaken instruction →
                next.ip = (following.head?.map Line.address).getD
                  machine.memory.length) := by
  obtain ⟨instruction, decodes, performs⟩ := (does_iff.mpr steps).exists_performs
  refine ⟨instruction, decodes, performs, ?_⟩
  intro earlier following shown operands listing
  obtain ⟨same, behind⟩ := next_line listing decodes
  refine ⟨same, ?_⟩
  intro straight
  rw [behind, performs.goes_on straight]

/-- A machine at an addition that writes its sum over its own opcode. -/
def overwriting : Machine :=
  start { cells := [1101, 5, 6, 0, 99] } {}

/-- It goes on to the next line of the listing as it was, and the operands stay.
-/
theorem step_follows_table_overwriting :
    ∃ next left,
      overwriting.step Tape.surroundings { waiting := [7] } =
          (.ok .proceeds, next, left) ∧
        next.ip = 4 ∧ next.memory.length = 5 ∧ next.memory.get 3 = 0 ∧
        left = { waiting := [7] } := by
  have answer : (overwriting.step Tape.surroundings { waiting := [7] }).1 =
      .ok .proceeds := by
    decide +kernel
  have steps : overwriting.step Tape.surroundings { waiting := [7] } =
      (.ok .proceeds, _, _) :=
    Prod.ext answer rfl
  refine ⟨_, _, steps, ?_⟩
  obtain ⟨instruction, decodes, performs, lines⟩ := step_follows_table steps
  have listing : Listing.ofCells overwriting.memory.cells.toList =
      [] ++ ⟨0, .code ⟨.add, .immediate, .immediate, .position⟩ [5, 6, 0]⟩ ::
        [⟨4, .code ⟨.halt, .position, .position, .position⟩ []⟩] := by
    decide +kernel
  obtain ⟨rfl, follows⟩ := lines _ _ _ _ listing
  obtain ⟨target, named, length_eq, same⟩ := performs.writes 2 rfl
  have at_zero : target = 0 := by
    obtain ⟨mode, found, names⟩ := named
    cases found
    cases names
    rfl
  subst at_zero
  refine ⟨follows ?_, length_eq, same 3 (by decide),
    performs.apart nofun nofun⟩
  intro taken
  rcases taken.opcode with jump | jump <;> cases jump

end Machine

end CellMachines
