import CellMachines.Proofs.Pipeline.Ends
import Mathlib.Order.Basic

/-!
# Runs that get stuck

A machine waits for a word on an empty link or for room on a full one, and the
conductor waits for room for the seed.  An empty link is not full, so whoever
waits for a word waits for somebody who waits for a word as well, if for anybody
who waits, and the same holds for room.  Waits of one kind thus lead from
machine to machine, and end at somebody who can act unless they lead around a
ring in which everybody waits and no machine is on its way out.
-/

namespace CellMachines

namespace Network

variable {n : Nat} {topology : Topology} {holds : Fin n → Prop}
  {index : Fin n}

end Network

namespace Pipeline

namespace Progress

variable {n : Nat} {progress : Progress n}

section Unserved

variable {pipeline : Pipeline} (wired : Wired pipeline progress)
  (accepted : policyProblem? pipeline.policy = none)

include wired accepted

end Unserved

end Progress

/-- A ring whose machine waits for a third word that nobody puts. -/
def starving : Pipeline where
  program := ⟨[3, 0, 3, 0, 3, 0, 99]⟩
  topology := .ring

end Pipeline

end CellMachines
