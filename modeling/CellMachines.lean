import CellMachines.Channel.Exchange
import CellMachines.Main
import CellMachines.Proofs.Machine.Feeding
import CellMachines.Proofs.Machine.Refinement
import CellMachines.Proofs.Pipeline.Causes
import CellMachines.Proofs.Pipeline.Composition
import CellMachines.Proofs.Pipeline.Deadlock
import CellMachines.Proofs.Pipeline.Determinacy
import CellMachines.Proofs.Pipeline.Seeding
import CellMachines.Proofs.Remote.Ending
import CellMachines.Remote
import CellMachines.Proofs.Pipeline.Conservation
import CellMachines.Proofs.Machine.Retracing
import CellMachines.Proofs.Network.Ledger
import CellMachines.Proofs.Executor.Bench
import CellMachines.Proofs.Executor.Agreement
import CellMachines.Proofs.Remote.Replay
import CellMachines.Proofs.Remote.Progress
import CellMachines.Proofs.Remote.Timing
import CellMachines.Proofs.Arrangement.Enumeration
import CellMachines.Proofs.Machine.Status
import CellMachines.Proofs.Network.Cancellation
import CellMachines.Proofs.Channel.Conservation
import CellMachines.Proofs.Arrangement.Search
import CellMachines.Proofs.Machine.StepLimit
import CellMachines.Proofs.Machine.MemoryLimit
import CellMachines.Proofs.Machine.Atomicity
import CellMachines.Proofs.Program.Printing
import CellMachines.Proofs.Listing.Tiling
import CellMachines.Proofs.Machine.Effects
import CellMachines.Proofs.Machine.Frame
import CellMachines.Proofs.Listing.Printing
import CellMachines.Proofs.Memory.Limit
import CellMachines.Proofs.Pipeline.Acceptance
import CellMachines.Proofs.Machine.InstructionPointer
import CellMachines.Proofs.Instruction.Rejection
