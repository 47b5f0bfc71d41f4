import CellMachines.Network

/-!
# Pipelines

A pipeline runs one program on several machines at once.  Machine `i` finds its
phase setting as the first word on its link, a seed follows for machine `0`, and
the result is the last word that the last machine put out.  The phase settings
are on the links before any executor starts; the seed is put while the executors
are running already, by a conductor that then lets go of its end of link `0` and
waits for all of them.

`Progress` is a configuration of such a run and `step` performs one action of
the conductor or of an executor, so the runs of a pipeline are the sequences of
steps, in whatever order.  `run` follows one fair order: everybody gets a turn
again and again, the conductor last.
-/

namespace CellMachines

open Text

inductive PipelineError where
  | program (failure : Failure)
  | invalidPhases (reason : String)
  | invalidPolicy (reason : String)
  | seed (index : Nat) (source : ChannelError)
  | machine (index : Nat) (failure : Failure)
  | executorPanicked (index : Nat) (message : String)
  | spawn (message : String)
  | noOutput
  deriving DecidableEq, Repr

def PipelineError.message : PipelineError → String
  | .program failure => s!"program: {failure.message}"
  | .invalidPhases reason => s!"invalid phase settings: {reason}"
  | .invalidPolicy reason => s!"invalid channel policy: {reason}"
  | .seed index source => s!"seeding machine {natText index}: {source.message}"
  | .machine index failure => s!"machine {natText index}: {failure.message}"
  | .executorPanicked index message =>
    s!"machine {natText index} executor panicked: {message}"
  | .spawn message => s!"failed to spawn executor thread: {message}"
  | .noOutput => "last machine produced no output"

/-- The result of a run in which every machine halted. -/
structure PipelineRun where
  output : Word
  topology : Topology
  reports : List Report
  deriving DecidableEq, Repr

structure Pipeline where
  program : Program
  topology : Topology := .chain
  policy : Policy := .unbounded
  seed : Word := 0
  limits : Limits := {}

namespace Pipeline

/-! ## What is accepted -/

/-- The first setting that occurs again further on, when `seen` come before the
list. -/
def repeatedFrom (seen : List Word) : List Word → Option Word
  | [] => none
  | phase :: later =>
    if phase ∈ seen then some phase else repeatedFrom (phase :: seen) later

/-- Why a list of phase settings is not accepted. -/
def phaseProblem? (phases : List Word) : Option String :=
  if phases.isEmpty then some "at least one phase setting is required"
  else
    (repeatedFrom [] phases).map fun phase =>
      s!"phase setting {wordText phase} appears more than once"

/-- Why a policy is not accepted: link `0` has to hold a phase setting before
anybody takes from it, and where a put does not wait it has to hold the seed as
well. -/
def policyProblem? : Policy → Option String
  | .bounded capacity .fail =>
    if capacity < 2 then
      some s!"fail-fast channels need a capacity of at least 2, got {natText capacity}"
    else none
  | .bounded capacity .block =>
    if capacity = 0 then some "bounded channels need a capacity of at least 1"
    else none
  | .unbounded => none

/-! ## Configurations of a run -/

/-- Where the conductor stands between two actions. -/
inductive Conductor where
  /-- About to put the seed on link `0`. -/
  | seeding
  /-- About to let go of link `0`, after the seed was put or not. -/
  | releasing (delivery : Except ChannelError Unit)
  /-- The seed found no room; the token is to be tripped. -/
  | tripping (source : ChannelError)
  /-- Waiting for the executors, after the seed found no room if a source is
  given. -/
  | joining (refusal : Option ChannelError)

structure Progress (n : Nat) where
  network : Network n
  conductor : Conductor
  seed : Word

/-- An action of a run, with the choice that it may leave open. -/
inductive Move (n : Nat) where
  | conduct (heed : Bool)
  | execute (index : Fin n) (heed : Bool)
  deriving DecidableEq, Repr

namespace Progress

variable {n : Nat}

def conduct (progress : Progress n) (heed : Bool) : Option (Progress n) :=
  match progress.conductor with
  | .seeding =>
    let entry := progress.network.link (Network.entry n)
    match entry.offerOrCancel progress.seed progress.network.tripped heed with
    | .done delivery link =>
      some { progress with
        network := progress.network.updateLink (Network.entry n) fun _ => link
        conductor := .releasing delivery }
    | .waits => none
  | .releasing delivery =>
    some { progress with
      network :=
        progress.network.updateLink (Network.entry n) Channel.dropSender
      conductor :=
        match delivery with
        | .error (.full capacity) => .tripping (.full capacity)
        | _ => .joining none }
  | .tripping source =>
    some { progress with
      network := progress.network.trip
      conductor := .joining (some source) }
  | .joining _ => none

/-- One action, unless whoever performs it has to wait or has nothing left to
do. -/
def step (progress : Progress n) : Move n → Option (Progress n)
  | .conduct heed => progress.conduct heed
  | .execute index heed =>
    (progress.network.advance index heed).map fun network =>
      { progress with network }

def isComplete (progress : Progress n) : Bool :=
  match progress.conductor with
  | .joining _ => progress.network.hasEnded
  | _ => false

/-- The actions of one round, in which everybody has a turn: each executor looks
at the token and executes one instruction, and then the conductor acts. -/
def round (n : Nat) : List (Move n) :=
  (List.finRange n).flatMap
    (fun index => [.execute index false, .execute index false]) ++
    [.conduct false]

/-- Performs those of the moves that are possible, in order, and tells whether
any was. -/
def sweep (progress : Progress n) : List (Move n) → Progress n × Bool
  | [] => (progress, false)
  | move :: later =>
    match progress.step move with
    | none => progress.sweep later
    | some after => ((after.sweep later).1, true)

/-- Performs rounds until the run is over.  There is no result when the budget
of rounds is spent before, and none when everybody waits for somebody else. -/
def finish (moves : List (Move n)) (budget : Nat) (progress : Progress n) :
    Option (Progress n) :=
  if progress.isComplete then some progress
  else
    match budget with
    | 0 => none
    | budget + 1 =>
      match progress.sweep moves with
      | (_, false) => none
      | (after, true) => finish moves budget after

/-! ## The result of a run -/

/-- The results of all executors, in order; those that have not ended are left
out. -/
def results (progress : Progress n) : List (Nat × Except Failure Report) :=
  progress.network.executors.toList.zipIdx.filterMap fun (executor, index) =>
    executor.result?.map fun result =>
      (index, result.map fun () => executor.report index)

end Progress

/-- The failure of the first machine that failed by itself, or else of the first
one that was interrupted.  An interruption is what the others see once one has
stopped. -/
def rootCause? (results : List (Nat × Except Failure Report)) :
    Option PipelineError :=
  let failures := results.filterMap fun (index, result) =>
    match result with
    | .ok _ => none
    | .error failure => some (index, failure)
  match failures.find? (fun entry => entry.2 ≠ .interrupted) <|>
      failures.head? with
  | some (index, failure) => some (.machine index failure)
  | none => none

/-- The reports of all machines if every one of them halted. -/
def collect (results : List (Nat × Except Failure Report)) :
    Except PipelineError (List Report) :=
  match rootCause? results with
  | some error => .error error
  | none => .ok (results.filterMap fun entry => entry.2.toOption)

/-- What a run that is over amounts to. -/
def verdict {n : Nat} (progress : Progress n) :
    Except PipelineError PipelineRun :=
  match progress.conductor with
  | .joining (some source) => .error (.seed 0 source)
  | _ => do
    let reports ← collect progress.results
    match reports.getLast?.bind Report.lastOutput with
    | some output =>
      return { output, topology := progress.network.topology, reports }
    | none => .error .noOutput

/-! ## Running -/

/-- The number of senders of a link besides the conductor. -/
def writers (topology : Topology) (index : Nat) : Nat :=
  match topology with
  | .chain => if index = 0 then 0 else 1
  | .ring => 1

/-- Link `index` with its phase setting on it.  There is no result when the put
has to wait. -/
def primedLink (pipeline : Pipeline) (index : Nat) (phase : Word) :
    ExceptT PipelineError Option Channel :=
  let conductors := if index = 0 then 1 else 0
  let link :=
    Channel.create pipeline.policy
      (writers pipeline.topology index + conductors) 1
  match link.offer phase with
  | .done (.ok ()) link => return link
  | .done (.error source) _ => throw (.seed index source)
  | .waits => ExceptT.lift none

/-- The link after the last machine's input: the collector of a chain. -/
def lastLink (topology : Topology) : Channel :=
  match topology with
  | .chain => Channel.create .unbounded 1 1
  | .ring => Channel.create .unbounded 0 0

/-- The configuration in which all executors are about to start. -/
def start (pipeline : Pipeline) {n : Nat} (phases : Vector Word n) :
    ExceptT PipelineError Option (Progress n) := do
  let links ←
    Vector.ofFnM fun index => pipeline.primedLink index (phases.get index)
  return {
    network := {
      topology := pipeline.topology
      executors :=
        Vector.replicate n (Executor.start pipeline.program pipeline.limits)
      links := links.push (lastLink pipeline.topology)
      tripped := false }
    conductor := .seeding
    seed := pipeline.seed }

/-- Runs one machine per phase setting until all have ended.  There is no result
when they do not end within the budget. -/
def run (pipeline : Pipeline) (phases : List Word) (budget : Nat) :
    ExceptT PipelineError Option PipelineRun := do
  if let some reason := phaseProblem? phases then throw (.invalidPhases reason)
  if let some reason := policyProblem? pipeline.policy then
    throw (.invalidPolicy reason)
  let progress ← pipeline.start (Vector.mk phases.toArray rfl)
  let after ← ExceptT.lift (progress.finish (Progress.round _) budget)
  ExceptT.mk (some (verdict after))

end Pipeline

/-- The result of a chain of fresh machines that run the program of a text. -/
def runNetwork (text : String) (topology : Topology) (phases : List Word)
    (budget : Nat) : ExceptT PipelineError Option Word := do
  match Program.parse text with
  | .error failure => throw (.program failure)
  | .ok program =>
    return (← Pipeline.run { program, topology } phases budget).output

end CellMachines
