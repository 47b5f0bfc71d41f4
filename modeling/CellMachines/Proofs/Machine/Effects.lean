import CellMachines.Machine

/-!
# What an instruction asks for

`Causes` lists the effects that an instruction can have, each with the opcodes
that have it and with the operands that it is made of.  The operands are counted
as in the table of instructions, so that an effect can be compared with what the
table says of the opcode.
-/

namespace CellMachines

namespace Machine

variable {machine : Machine} {instruction : Instruction} {effect : Effect}
  {condition value : Word} {taken : Word → Bool}

/-- The value of the operand in a slot. -/
def Reads (machine : Machine) (instruction : Instruction) (slot : Nat)
    (value : Word) : Prop :=
  ∃ mode ∈ instruction.modes[slot]?, machine.operand mode slot = .ok value

/-- The cell that the operand in a slot names as the one to be written. -/
def Names (machine : Machine) (instruction : Instruction) (slot target : Nat) :
    Prop :=
  ∃ mode ∈ instruction.modes[slot]?, machine.target mode slot = .ok target

/-- The instruction is a jump, and its first operand is as it requires. -/
def IsTaken (machine : Machine) (instruction : Instruction) : Prop :=
  ∃ condition, machine.Reads instruction 0 condition ∧
    (instruction.opcode = .jumpIfTrue ∧ condition ≠ 0 ∨
      instruction.opcode = .jumpIfFalse ∧ condition = 0)

inductive Causes (machine : Machine) (instruction : Instruction) :
    Effect → Prop where
  | store {target : Nat} {value : Word} :
      instruction.opcode.writeSlot = some 2 →
      machine.Names instruction 2 target →
      Causes machine instruction (.store target value)
  | input {target : Nat} :
      instruction.opcode = .input →
      machine.Names instruction 0 target →
      Causes machine instruction (.input target)
  | output {value : Word} :
      instruction.opcode = .output →
      machine.Reads instruction 0 value →
      Causes machine instruction (.output value)
  | jump {destination : Word} {target : Nat} :
      machine.IsTaken instruction →
      machine.Reads instruction 1 destination →
      destination.toInt = target →
      Causes machine instruction (.jump target)
  | pass :
      instruction.opcode = .jumpIfTrue ∨ instruction.opcode = .jumpIfFalse →
      ¬machine.IsTaken instruction →
      Causes machine instruction (.jump (machine.ip + instruction.width))
  | rebase {base : Word} :
      instruction.opcode = .adjustBase →
      Causes machine instruction (.rebase base)
  | halt : instruction.opcode = .halt → Causes machine instruction .halt

theorem reads_zero_iff :
    machine.Reads instruction 0 value ↔
      machine.operand instruction.first 0 = .ok value := by
  constructor
  · rintro ⟨mode, same, reads⟩
    cases same
    exact reads
  · intro reads
    exact ⟨_, rfl, reads⟩

theorem toInt_of_cellAt {address : Word} {index : Nat}
    (found : machine.cellAt address = .ok index) : address.toInt = index := by
  rw [cellAt] at found
  split at found
  · rename_i addressed
    cases found
    exact Word.address?_eq_some_iff.mp addressed
  · cases found

theorem causes_of_combine {operation : Word → Word → Option Word}
    (writes : instruction.opcode.writeSlot = some 2)
    (asks : machine.combine instruction operation = .ok effect) :
    machine.Causes instruction effect := by
  obtain ⟨_, _, asks⟩ := bind_eq_ok_iff.mp asks
  obtain ⟨_, _, asks⟩ := bind_eq_ok_iff.mp asks
  obtain ⟨target, named, asks⟩ := bind_eq_ok_iff.mp asks
  split at asks
  · cases asks
    exact .store writes ⟨_, rfl, named⟩
  · cases asks

/-- The opcode of a jump together with the test that it makes. -/
def Tests (instruction : Instruction) (taken : Word → Bool) : Prop :=
  instruction.opcode = .jumpIfTrue ∧
      taken = (fun condition => decide (condition ≠ 0)) ∨
    instruction.opcode = .jumpIfFalse ∧
      taken = (fun condition => decide (condition = 0))

/-- The width by which a machine goes on behind a jump is that of the table. -/
theorem Tests.width_eq (tests : Tests instruction taken) :
    instruction.width = 3 := by
  rcases tests with ⟨opcode, _⟩ | ⟨opcode, _⟩
  all_goals
    rw [Instruction.width, opcode]
    rfl

theorem isTaken_iff (tests : Tests instruction taken)
    (reads : machine.operand instruction.first 0 = .ok condition) :
    machine.IsTaken instruction ↔ taken condition = true := by
  constructor
  · rintro ⟨other, again, required⟩
    have same := reads.symm.trans (reads_zero_iff.mp again)
    cases same
    rcases tests with ⟨opcode, rfl⟩ | ⟨opcode, rfl⟩
    all_goals simpa [opcode] using required
  · intro holds
    refine ⟨condition, reads_zero_iff.mpr reads, ?_⟩
    rcases tests with ⟨opcode, rfl⟩ | ⟨opcode, rfl⟩
    · exact .inl ⟨opcode, of_decide_eq_true holds⟩
    · exact .inr ⟨opcode, of_decide_eq_true holds⟩

theorem causes_of_branch (tests : Tests instruction taken)
    (asks : machine.branch instruction taken = .ok effect) :
    machine.Causes instruction effect := by
  obtain ⟨condition, reads, asks⟩ := bind_eq_ok_iff.mp asks
  obtain ⟨destination, leads, asks⟩ := bind_eq_ok_iff.mp asks
  have decides := isTaken_iff tests reads
  split at asks
  · rename_i holds
    obtain ⟨target, found, asks⟩ := bind_eq_ok_iff.mp asks
    cases asks
    exact .jump (decides.mpr holds) ⟨_, rfl, leads⟩ (toInt_of_cellAt found)
  · rename_i fails
    cases asks
    rw [← tests.width_eq]
    exact .pass (tests.imp And.left And.left) (mt decides.mp fails)

/-- An instruction has no other effects than those of its opcode. -/
theorem causes_of_effectOf
    (asks : machine.effectOf instruction = .ok effect) :
    machine.Causes instruction effect := by
  rw [effectOf] at asks
  cases opcode : instruction.opcode with
  | add | mul | lessThan | equals =>
      simp only [opcode] at asks
      apply causes_of_combine _ asks
      rw [opcode]
      rfl
  | input =>
      simp only [opcode] at asks
      obtain ⟨target, named, asks⟩ := bind_eq_ok_iff.mp asks
      cases asks
      exact .input opcode ⟨_, rfl, named⟩
  | output =>
      simp only [opcode] at asks
      obtain ⟨value, reads, asks⟩ := bind_eq_ok_iff.mp asks
      cases asks
      exact .output opcode ⟨_, rfl, reads⟩
  | jumpIfTrue =>
      simp only [opcode] at asks
      exact causes_of_branch (.inl ⟨opcode, rfl⟩) asks
  | jumpIfFalse =>
      simp only [opcode] at asks
      exact causes_of_branch (.inr ⟨opcode, rfl⟩) asks
  | adjustBase =>
      simp only [opcode] at asks
      obtain ⟨_, _, asks⟩ := bind_eq_ok_iff.mp asks
      obtain ⟨base, _, asks⟩ := bind_eq_ok_iff.mp asks
      cases asks
      exact .rebase opcode
  | halt =>
      simp only [opcode] at asks
      cases asks
      exact .halt opcode

theorem effect_of_request (asks : machine.request = .ok effect) :
    machine.status.isTerminal = false ∧ machine.effect = .ok effect := by
  rw [request] at asks
  split at asks
  · cases asks
  · rename_i running
    refine ⟨by simpa using running, ?_⟩
    split at asks
    · split at asks
      · cases asks
      · exact asks
    · exact asks

theorem causes_of_request (asks : machine.request = .ok effect) :
    ∃ instruction,
      Instruction.decode (machine.memory.get machine.ip) machine.ip =
          .ok instruction ∧
        machine.Causes instruction effect := by
  obtain ⟨_, asks⟩ := effect_of_request asks
  obtain ⟨instruction, decodes, asks⟩ := bind_eq_ok_iff.mp asks
  exact ⟨instruction, decodes, causes_of_effectOf asks⟩

end Machine

end CellMachines
