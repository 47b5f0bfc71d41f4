import CellMachines.Proofs.Machine.Ideal

/-!
# Instructions in words and in integers

What an instruction amounts to is settled alike by a machine of words and by the
ideal machine, one operand after the other.  Where the two machines stand at the
same place, the computation on words tracks the one on integers: it overflows if
one of the figures so far is no word, and else it fails or yields the same.
`Tracks.bind` carries that through everything put together from such
computations, down to the effect of the whole instruction.
-/

namespace CellMachines

namespace Machine

variable {machine : Machine} {tape : Tape} {ideal : Ideal} {ip : Nat}

/-- Both machines stand at the same place, with the same numbers everywhere. -/
structure Agrees (machine : Machine) (tape : Tape) (ideal : Ideal) : Prop where
  memory : ∀ index, (machine.memory.get index).toInt = ideal.memory index
  ip : machine.ip = ideal.ip
  base : machine.base.toInt = ideal.base
  waiting : tape.waiting.map Int64.toInt = ideal.waiting
  emitted : tape.emitted.toList.map Int64.toInt = ideal.emitted

theorem agrees_start (program : Program) (limits : Limits)
    (inputs : List Word) :
    Agrees (start program limits) { waiting := inputs }
      (.start program inputs) where
  memory index := by
    simp only [start, Memory.get, Ideal.start, List.getElem?_toArray,
      List.getD_eq_getElem?_getD, List.getElem?_map]
    cases program.cells[index]? <;> rfl
  ip := rfl
  base := rfl
  waiting := rfl
  emitted := rfl

/-! ## Operands -/

/-- How a computation of the instruction at `ip` goes on words when it goes on
integers as reckoned: it overflows if a figure is no word, and else comes to the
same. -/
inductive Tracks {α β : Type} (ip : Nat) (Denotes : α → β → Prop) :
    Except Failure α → Reckoning β → Prop where
  | overflows {reckoning : Reckoning β} :
      ¬reckoning.InRange →
      Tracks ip Denotes (.error (.arithmeticOverflow ip)) reckoning
  | fails {failure : Failure} {reckoning : Reckoning β} :
      reckoning.InRange → reckoning.result = .error failure →
      Tracks ip Denotes (.error failure) reckoning
  | yields {result : α} {value : β} {reckoning : Reckoning β} :
      reckoning.InRange → reckoning.result = .ok value →
      Denotes result value → Tracks ip Denotes (.ok result) reckoning

section Tracks

variable {α β γ δ : Type} {Denotes : α → β → Prop} {Means : γ → δ → Prop}

theorem tracks_ok {result : α} {value : β} (denotes : Denotes result value) :
    Tracks ip Denotes (.ok result) (pure value) :=
  .yields (Reckoning.inRange_pure value) rfl denotes

theorem tracks_error (failure : Failure) :
    Tracks ip Denotes (.error failure) (.fail failure) :=
  .fails (Reckoning.inRange_fail failure) rfl

theorem Tracks.bind {result : Except Failure α} {reckoning : Reckoning β}
    {later : α → Except Failure γ} {further : β → Reckoning δ}
    (first : Tracks ip Denotes result reckoning)
    (continues : ∀ result value, Denotes result value →
      Tracks ip Means (later result) (further value)) :
    Tracks ip Means (result >>= later) (reckoning >>= further) := by
  cases first with
  | overflows beyond => exact .overflows (Reckoning.not_inRange_bind beyond)
  | fails inside fails =>
      exact .fails ((Reckoning.inRange_bind_of_error fails).mpr inside)
        (Reckoning.result_bind_of_error fails)
  | @yields result value _ inside yields denotes =>
      have bound : (reckoning >>= further).InRange ↔ _ :=
        Reckoning.inRange_bind_of_ok yields
      have same : (reckoning >>= further).result = _ :=
        Reckoning.result_bind_of_ok yields
      have rest := continues result value denotes
      change Tracks ip Means (later result) (reckoning >>= further)
      generalize later result = ending at rest ⊢
      cases rest with
      | overflows beyond =>
          apply Tracks.overflows
          rw [bound]
          exact fun both => beyond both.2
      | fails within fails =>
          exact .fails (bound.mpr ⟨inside, within⟩) (same.trans fails)
      | yields within yields means =>
          exact .yields (bound.mpr ⟨inside, within⟩) (same.trans yields) means

theorem Tracks.map {result : Except Failure α} {reckoning : Reckoning β}
    {onWords : α → γ} {onIntegers : β → δ}
    (first : Tracks ip Denotes result reckoning)
    (means : ∀ result value, Denotes result value →
      Means (onWords result) (onIntegers value)) :
    Tracks ip Means (do return onWords (← result))
      (do return onIntegers (← reckoning)) := by
  apply first.bind
  intro result value denotes
  exact tracks_ok (means result value denotes)

end Tracks

/-- A word stands for the integer it denotes. -/
def IsValue (word : Word) (value : Int) : Prop :=
  word.toInt = value

theorem isValue_ofBool (condition : Prop) [Decidable condition] :
    IsValue (Word.ofBool condition) (if condition then 1 else 0) := by
  unfold IsValue Word.ofBool
  by_cases holds : condition <;> simp [holds]

/-- Both sides have the same cell, at an index that a word can name. -/
def IsCell (index other : Nat) : Prop :=
  index = other ∧ Word.InRange index

theorem tracks_decodeMode (cell : Word) (ip : Nat) (digit : Int) :
    Tracks ip Eq (Instruction.decodeMode cell ip digit)
      (Ideal.decodeMode cell.toInt ip digit) := by
  unfold Instruction.decodeMode Ideal.decodeMode
  cases Mode.ofDigit? digit with
  | none => exact tracks_error _
  | some mode => exact tracks_ok rfl

theorem tracks_decode (cell : Word) (ip : Nat) :
    Tracks ip Eq (Instruction.decode cell ip) (Ideal.decode cell.toInt ip) := by
  unfold Instruction.decode Ideal.decode
  split
  · exact tracks_error _
  · apply (tracks_decodeMode cell ip _).bind
    rintro first _ rfl
    apply (tracks_decodeMode cell ip _).bind
    rintro second _ rfl
    apply (tracks_decodeMode cell ip _).bind
    rintro third _ rfl
    cases Opcode.ofCode? (cell.toInt % 100) with
    | none => exact tracks_error _
    | some opcode => exact tracks_ok rfl

/-- The outcome of a computation on words that may leave their range. -/
def checked (ip : Nat) : Option Word → Except Failure Word
  | some word => .ok word
  | none => .error (.arithmeticOverflow ip)

theorem tracks_checked (ip : Nat) (value : Int) :
    Tracks ip IsValue (checked ip (Word.ofInt? value)) (.figure value) := by
  cases found : Word.ofInt? value with
  | none =>
      apply Tracks.overflows
      rw [Reckoning.inRange_figure_iff]
      exact Word.ofInt?_eq_none_iff.mp found
  | some word =>
      have same := Word.ofInt?_eq_some_iff.mp found
      refine .yields ?_ rfl same
      rw [Reckoning.inRange_figure_iff, ← same]
      exact Word.inRange_toInt word

section Operands

variable (agrees : Agrees machine tape ideal)
include agrees

theorem Agrees.parameter (slot : Nat) :
    IsValue (machine.parameter slot) (ideal.parameter slot) := by
  rw [IsValue, Machine.parameter, Ideal.parameter, ← agrees.ip]
  exact agrees.memory _

theorem tracks_fromBase {distance : Word} {value : Int}
    (same : IsValue distance value) :
    Tracks machine.ip IsValue (machine.fromBase distance)
      (ideal.fromBase value) := by
  rw [Ideal.fromBase, ← agrees.base, ← same]
  exact tracks_checked machine.ip (machine.base.toInt + distance.toInt)

theorem tracks_cellAt {address : Word} {value : Int}
    (same : IsValue address value) :
    Tracks machine.ip IsCell (machine.cellAt address) (ideal.cellAt value) := by
  obtain rfl := same
  unfold cellAt Ideal.cellAt
  cases found : address.address? with
  | none =>
      rw [if_pos (Word.address?_eq_none_iff.mp found), ← agrees.ip]
      exact tracks_error _
  | some index =>
      have same := Word.address?_eq_some_iff.mp found
      have inside := Word.inRange_toInt address
      rw [same] at inside ⊢
      rw [if_neg (by omega)]
      exact tracks_ok ⟨rfl, inside⟩

theorem tracks_load {address : Word} {value : Int}
    (same : IsValue address value) :
    Tracks machine.ip IsValue (machine.load address) (ideal.load value) := by
  have loads : machine.load address =
      (do return machine.memory.get (← machine.cellAt address)) := by
    unfold load cellAt Memory.read
    cases address.address? <;> rfl
  rw [loads]
  apply (tracks_cellAt agrees same).map
  rintro index _ ⟨rfl, _⟩
  exact agrees.memory index

theorem tracks_operand (mode : Mode) (slot : Nat) :
    Tracks machine.ip IsValue (machine.operand mode slot)
      (ideal.operand mode slot) := by
  cases mode with
  | position => exact tracks_load agrees (agrees.parameter slot)
  | immediate => exact tracks_ok (agrees.parameter slot)
  | relative =>
      apply (tracks_fromBase agrees (agrees.parameter slot)).bind
      intro address value same
      exact tracks_load agrees same

theorem tracks_target (mode : Mode) (slot : Nat) :
    Tracks machine.ip IsCell (machine.target mode slot)
      (ideal.target mode slot) := by
  cases mode with
  | position => exact tracks_cellAt agrees (agrees.parameter slot)
  | immediate =>
      rw [Ideal.target, ← agrees.ip]
      exact tracks_error _
  | relative =>
      apply (tracks_fromBase agrees (agrees.parameter slot)).bind
      intro address value same
      exact tracks_cellAt agrees same

end Operands

/-! ## Effects -/

/-- An effect on words stands for the one with the same numbers. -/
inductive Denotes : Effect → Ideal.Effect → Prop where
  | store {target : Nat} {value : Word} :
      Word.InRange target →
      Denotes (.store target value) (.store target value.toInt)
  | input {target : Nat} :
      Word.InRange target → Denotes (.input target) (.input target)
  | output {value : Word} : Denotes (.output value) (.output value.toInt)
  | jump {target : Nat} : Denotes (.jump target) (.jump target)
  | rebase {base : Word} : Denotes (.rebase base) (.rebase base.toInt)
  | halt : Denotes .halt .halt

section Effects

variable (agrees : Agrees machine tape ideal)
include agrees

theorem tracks_combine (instruction : Instruction)
    {operation : Word → Word → Option Word}
    {reckon : Int → Int → Reckoning Int}
    (follows : ∀ left right : Word,
      Tracks machine.ip IsValue (checked machine.ip (operation left right))
        (reckon left.toInt right.toInt)) :
    Tracks machine.ip Denotes (machine.combine instruction operation)
      (ideal.combine instruction reckon) := by
  apply (tracks_operand agrees _ _).bind
  rintro left _ rfl
  apply (tracks_operand agrees _ _).bind
  rintro right _ rfl
  apply (tracks_target agrees _ _).bind
  rintro target _ ⟨rfl, inside⟩
  have computed : Tracks machine.ip Denotes
      (do return .store target (← checked machine.ip (operation left right)))
      (do return .store target (← reckon left.toInt right.toInt)) := by
    apply (follows left right).map
    rintro word _ rfl
    exact .store inside
  cases result : operation left right <;> rwa [result] at computed

theorem tracks_branch (instruction : Instruction) {taken : Word → Bool}
    {passes : Int → Bool}
    (alike : ∀ word : Word, taken word = passes word.toInt) :
    Tracks machine.ip Denotes (machine.branch instruction taken)
      (ideal.branch instruction passes) := by
  apply (tracks_operand agrees _ _).bind
  rintro condition _ rfl
  apply (tracks_operand agrees _ _).bind
  intro destination value same
  rw [alike]
  split
  · apply (tracks_cellAt agrees same).map
    rintro target _ ⟨rfl, _⟩
    exact .jump
  · rw [agrees.ip]
    exact tracks_ok .jump

theorem tracks_effectOf (instruction : Instruction) :
    Tracks machine.ip Denotes (machine.effectOf instruction)
      (ideal.effectOf instruction) := by
  unfold Machine.effectOf Ideal.effectOf
  cases instruction.opcode with
  | add | mul =>
      apply tracks_combine agrees
      intro left right
      exact tracks_checked _ _
  | lessThan =>
      apply tracks_combine agrees
      intro left right
      exact tracks_ok (isValue_ofBool _)
  | equals =>
      apply tracks_combine agrees
      intro left right
      simp only [Int64.toInt_inj]
      exact tracks_ok (isValue_ofBool _)
  | input =>
      apply (tracks_target agrees _ _).map
      rintro target _ ⟨rfl, inside⟩
      exact .input inside
  | output =>
      apply (tracks_operand agrees _ _).map
      rintro value _ rfl
      exact .output
  | jumpIfTrue | jumpIfFalse =>
      apply tracks_branch agrees
      intro word
      simp [← Int64.toInt_inj]
  | adjustBase =>
      apply (tracks_operand agrees _ _).bind
      intro distance value same
      apply (tracks_fromBase agrees same).map
      rintro base _ rfl
      exact .rebase
  | halt => exact tracks_ok .halt

theorem tracks_effect :
    Tracks machine.ip Denotes machine.effect ideal.effect := by
  rw [Machine.effect, Ideal.effect, ← agrees.ip, ← agrees.memory]
  apply (tracks_decode _ _).bind
  rintro instruction _ rfl
  exact tracks_effectOf agrees instruction

end Effects

end Machine

end CellMachines
