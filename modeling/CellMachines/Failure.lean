import CellMachines.Text.Decimal
import CellMachines.Text.Quoted

/-!
# Failures

Everything that can go wrong while a program is read or a machine runs.  A
failure that an instruction causes carries the instruction pointer of that
instruction.  The last four are not the machine's own: they arise at its input
or output, or from using a machine that has ended.
-/

namespace CellMachines

open Text

/-- A cause of failure, with the data that its message tells. -/
inductive Failure where
  | malformedProgram (position : Nat) (token : String)
  | emptyProgram
  | invalidOpcode (opcode : Int) (ip : Nat)
  | invalidMode (mode cell : Int) (ip : Nat)
  | invalidWriteTarget (ip : Nat)
  | negativeAddress (address : Int) (ip : Nat)
  | arithmeticOverflow (ip : Nat)
  | memoryLimitExceeded (address : Int) (limit : Nat)
  | allocationFailed (address : Int) (ip : Nat)
  | stepLimitExceeded (limit : Nat)
  | inputExhausted
  | channelOverflow (capacity : Nat)
  | interrupted
  | notRunning
  deriving DecidableEq, Repr

namespace Failure

/-- Whether the machine itself is at fault rather than one of its ends. -/
def isFault : Failure → Bool
  | .inputExhausted | .channelOverflow _ | .interrupted | .notRunning => false
  | _ => true

def message : Failure → String
  | .malformedProgram position token =>
    s!"malformed program: token {natText position} ({Quoted.encode token}) is not an integer"
  | .emptyProgram => "malformed program: no cells"
  | .invalidOpcode opcode ip =>
    s!"invalid opcode {intText opcode} at ip {natText ip}"
  | .invalidMode mode cell ip =>
    s!"invalid addressing mode {intText mode} in instruction {intText cell} at ip {natText ip}"
  | .invalidWriteTarget ip =>
    s!"immediate-mode parameter used as a write target at ip {natText ip}"
  | .negativeAddress address ip =>
    s!"negative address {intText address} at ip {natText ip}"
  | .arithmeticOverflow ip => s!"arithmetic overflow at ip {natText ip}"
  | .memoryLimitExceeded address limit =>
    s!"memory limit exceeded: address {intText address} beyond {natText limit} cells"
  | .allocationFailed address ip =>
    s!"cannot grow memory to address {intText address} at ip {natText ip}"
  | .stepLimitExceeded limit => s!"step limit exceeded: {natText limit}"
  | .inputExhausted => "input exhausted"
  | .channelOverflow capacity =>
    s!"channel overflow: capacity {natText capacity} reached"
  | .interrupted => "interrupted: peer channel closed"
  | .notRunning => "machine is not running"

end Failure

theorem bind_eq_ok_iff {α β : Type} {result : Except Failure α}
    {next : α → Except Failure β} {value : β} :
    (result >>= next) = .ok value ↔
      ∃ middle, result = .ok middle ∧ next middle = .ok value := by
  cases result with
  | error failure => exact ⟨nofun, nofun⟩
  | ok middle =>
      constructor
      · intro goes
        exact ⟨middle, rfl, goes⟩
      · rintro ⟨_, same, goes⟩
        cases same
        exact goes

theorem bind_eq_error_iff {α β : Type} {result : Except Failure α}
    {next : α → Except Failure β} {failure : Failure} :
    (result >>= next) = .error failure ↔
      result = .error failure ∨
        ∃ middle, result = .ok middle ∧ next middle = .error failure := by
  cases result with
  | error other =>
      change Except.error other = .error failure ↔ _
      simp
  | ok middle =>
      change next middle = .error failure ↔ _
      simp

end CellMachines
