import CellMachines.Proofs.Remote.History

/-!
# Transcripts of a session

A request of the client is a sequence of puts and takes that stops at the first
one that fails.  A transcript lists what they put and what they got, also where
the request fails and gives back nothing of it (`perform`).  The answer to a
request is read off its record.
-/

namespace CellMachines

namespace Session

variable {session last : Session} {budget : Nat}

/-- A put or a take of the client. -/
inductive Operation where
  | push (value : Word)
  | receive
  deriving DecidableEq, Repr

namespace Operation

/-- The words that an operation puts if it does not fail. -/
def given : Operation → List Word
  | .push value => [value]
  | .receive => []

def call (budget : Nat) : Operation → Call (List Word)
  | .push value => do
    Session.push budget value
    return []
  | .receive => do return [← Session.receive budget]

end Operation

/-- What the operations of a request put and got, and how the last one failed if
it did. -/
structure Record where
  pushed : List Word
  received : List Word
  error? : Option RemoteError
  deriving DecidableEq, Repr

namespace Record

def empty : Record := ⟨[], [], none⟩

/-- The record with an operation before all others. -/
def after (record : Record) (operation : Operation) (values : List Word) :
    Record where
  pushed := operation.given ++ record.pushed
  received := values ++ record.received
  error? := record.error?

def answer (record : Record) : Except RemoteError (List Word) :=
  match record.error? with
  | none => .ok record.received
  | some error => .error error

end Record

/-- Performs one operation after another until one fails. -/
def perform (budget : Nat) : List Operation → Session →
    Option (Record × Session)
  | [], session => some (.empty, session)
  | operation :: later, session =>
    ((operation.call budget).run session).bind fun (answer, between) =>
      match answer with
      | .ok values =>
        (perform budget later between).map fun (record, last) =>
          (record.after operation values, last)
      | .error error => some (⟨[], [], some error⟩, between)

/-- The records of one call after another. -/
def chronicle (budget : Nat) : List (List Operation) → Session →
    Option (List Record × Session)
  | [], session => some ([], session)
  | operations :: later, session =>
    (perform budget operations session).bind fun (record, between) =>
      (chronicle budget later between).map fun (records, last) =>
        (record :: records, last)

def Request.operations : Request → List Operation
  | .push value => [.push value]
  | .receive => [.receive]
  | .send value => [.push value, .receive]
  | .sendAll values => values.flatMap fun value => [.push value, .receive]
  | .exchange values responses =>
    values.map .push ++ List.replicate responses .receive

theorem run_call_push (budget : Nat) (value : Word) (session : Session) :
    ((Operation.push value).call budget).run session =
      ((push budget value).run session).map fun (answer, last) =>
        (answer.map fun () => [], last) := by
  rw [Operation.call, run_bind]
  rcases (push budget value).run session with _ | ⟨_ | _, _⟩ <;> rfl

theorem run_call_receive (budget : Nat) (session : Session) :
    (Operation.receive.call budget).run session =
      ((receive budget).run session).map fun (answer, last) =>
        (answer.map fun value => [value], last) := by
  rw [Operation.call, run_bind]
  rcases (receive budget).run session with _ | ⟨_ | _, _⟩ <;> rfl

theorem call_push_ok {value : Word} {values : List Word}
    (called : ((Operation.push value).call budget).run session =
      some (.ok values, last)) :
    values = [] ∧ (push budget value).run session = some (.ok (), last) := by
  rw [run_call_push] at called
  obtain ⟨⟨answer, _⟩, ran, same⟩ := Option.map_eq_some_iff.mp called
  cases answer <;> cases same
  exact ⟨rfl, ran⟩

theorem call_receive_ok {values : List Word}
    (called : (Operation.receive.call budget).run session =
      some (.ok values, last)) :
    ∃ value, values = [value] ∧
      (receive budget).run session = some (.ok value, last) := by
  rw [run_call_receive] at called
  obtain ⟨⟨answer, _⟩, ran, same⟩ := Option.map_eq_some_iff.mp called
  cases answer <;> cases same
  exact ⟨_, rfl, ran⟩

theorem call_push_error {value : Word} {error : RemoteError} :
    ((Operation.push value).call budget).run session =
        some (.error error, last) ↔
      (push budget value).run session = some (.error error, last) := by
  rw [run_call_push]
  rcases (push budget value).run session with _ | ⟨_ | _, _⟩ <;>
    simp [Except.map]

theorem call_receive_error {error : RemoteError} :
    (Operation.receive.call budget).run session = some (.error error, last) ↔
      (receive budget).run session = some (.error error, last) := by
  rw [run_call_receive]
  rcases (receive budget).run session with _ | ⟨_ | _, _⟩ <;>
    simp [Except.map]

/-! ## Requests -/

/-- A call that is nothing but some operations. -/
def Performs (budget : Nat) (call : Call (List Word))
    (operations : List Operation) : Prop :=
  ∀ session, call.run session =
    (perform budget operations session).map fun (record, last) =>
      (record.answer, last)

theorem performs_nil (budget : Nat) : Performs budget (pure []) [] :=
  fun _ => rfl

/-- An operation before the others. -/
theorem Performs.cons {call : Call (List Word)} {operation : Operation}
    {operations : List Operation} (rest : Performs budget call operations) :
    Performs budget
      (do
        let values ← operation.call budget
        let others ← call
        return values ++ others)
      (operation :: operations) := by
  intro session
  rw [run_bind, perform]
  rcases (operation.call budget).run session with _ | ⟨_ | values, between⟩
  · rfl
  · rfl
  · simp only [Option.bind_some, run_bind, rest between]
    rcases perform budget operations between with _ | ⟨⟨_, _, _ | _⟩, _⟩ <;>
      simp [Record.after, Record.answer]

theorem Performs.congr {call other : Call (List Word)}
    {operations : List Operation} (performs : Performs budget call operations)
    (same : ∀ session, other.run session = call.run session) :
    Performs budget other operations := by
  intro session
  rw [same, performs]

theorem Performs.push {call : Call (List Word)} {operations : List Operation}
    (rest : Performs budget call operations) (value : Word) :
    Performs budget
      (do
        Session.push budget value
        call)
      (.push value :: operations) := by
  apply rest.cons.congr
  intro session
  simp only [run_bind, run_call_push]
  rcases (Session.push budget value).run session with _ | ⟨_ | _, between⟩
  · rfl
  · rfl
  · simp only [Option.map_some, Option.bind_some, Except.map]
    rcases call.run between with _ | ⟨_ | _, _⟩ <;> rfl

theorem Performs.receive {call : Call (List Word)}
    {operations : List Operation} (rest : Performs budget call operations) :
    Performs budget
      (do
        let value ← Session.receive budget
        let others ← call
        return value :: others)
      (.receive :: operations) := by
  apply rest.cons.congr
  intro session
  simp only [run_bind, run_call_receive]
  rcases (Session.receive budget).run session with _ | ⟨_ | _, _⟩ <;> rfl

theorem performs_receives (budget responses : Nat) :
    Performs budget
      ((List.replicate responses ()).mapM fun () => receive budget)
      (List.replicate responses .receive) := by
  induction responses with
  | zero => exact performs_nil budget
  | succ responses induction =>
      rw [List.replicate_succ, List.mapM_cons]
      exact induction.receive

theorem performs_exchange (budget : Nat) (values : List Word)
    (responses : Nat) :
    Performs budget (exchange budget values responses)
      (values.map .push ++ List.replicate responses .receive) := by
  induction values with
  | nil => exact performs_receives budget responses
  | cons value later induction =>
      apply (induction.push value).congr
      intro session
      have first : (value :: later).forM (push budget) = (do
          push budget value
          later.forM (push budget)) := rfl
      simp only [exchange, first, run_bind]
      rcases (push budget value).run session with _ | ⟨_ | _, _⟩ <;> rfl

theorem performs_sendAll (budget : Nat) (values : List Word) :
    Performs budget (sendAll budget values)
      (values.flatMap fun value => [.push value, .receive]) := by
  induction values with
  | nil => exact performs_nil budget
  | cons value later induction =>
      apply (induction.receive.push value).congr
      intro session
      simp only [sendAll, send, List.mapM_cons, run_bind]
      rcases (push budget value).run session with _ | ⟨_ | _, _⟩ <;> rfl

theorem performs_call (budget : Nat) (request : Request) :
    Performs budget (request.call budget) request.operations := by
  cases request with
  | push value => exact (performs_nil budget).push value
  | receive => exact (performs_nil budget).receive
  | send value =>
      apply ((performs_nil budget).receive.push value).congr
      intro session
      simp only [Request.call, send, run_bind]
      rcases (push budget value).run session with _ | ⟨_ | _, _⟩ <;> rfl
  | sendAll values => exact performs_sendAll budget values
  | exchange values responses =>
      exact performs_exchange budget values responses

/-- The answers to some requests are those that the records give. -/
theorem history_eq (budget : Nat) (requests : List Request)
    (session : Session) :
    history budget requests session =
      (chronicle budget (requests.map Request.operations) session).map
        fun (records, last) => (records.map Record.answer, last) := by
  induction requests generalizing session with
  | nil => rfl
  | cons request later induction =>
      rw [history, performs_call budget request session, List.map_cons,
        chronicle]
      rcases perform budget request.operations session with _ | ⟨_, between⟩
      · rfl
      · simp only [Option.map_some, Option.bind_some, bind, induction between]
        rcases chronicle budget (later.map Request.operations) between with
          _ | ⟨_, _⟩ <;> rfl

/-! ## Records -/

theorem length_of_call {operation : Operation} {values : List Word}
    (called : (operation.call budget).run session = some (.ok values, last)) :
    values.length = [operation].count .receive := by
  cases operation with
  | push value =>
      obtain ⟨rfl, _⟩ := call_push_ok called
      rfl
  | receive =>
      obtain ⟨value, rfl, _⟩ := call_receive_ok called
      rfl

theorem perform_cons {operation : Operation}
    {operations : List Operation} {record : Record}
    (performed : perform budget (operation :: operations) session =
      some (record, last)) :
    (∃ values between rest,
      (operation.call budget).run session = some (.ok values, between) ∧
      perform budget operations between = some (rest, last) ∧
      record = rest.after operation values) ∨
    ∃ error,
      (operation.call budget).run session = some (.error error, last) ∧
      record = ⟨[], [], some error⟩ := by
  rw [perform] at performed
  obtain ⟨⟨answer, between⟩, called, performed⟩ :=
    Option.bind_eq_some_iff.mp performed
  cases answer with
  | ok values =>
      obtain ⟨⟨rest, final⟩, performed, same⟩ :=
        Option.map_eq_some_iff.mp performed
      cases same
      exact .inl ⟨values, between, rest, called, performed, rfl⟩
  | error error =>
      cases performed
      exact .inr ⟨error, called, rfl⟩

/-- Either all operations come about, or one fails after those before it. -/
theorem perform_cases {operations : List Operation} {record : Record}
    (performed : perform budget operations session = some (record, last)) :
    (record.error? = none ∧
      record.pushed = operations.flatMap Operation.given ∧
      record.received.length = operations.count .receive) ∨
    ∃ before operation later between error,
      operations = before ++ operation :: later ∧
      perform budget before session =
        some ({ record with error? := none }, between) ∧
      (operation.call budget).run between = some (.error error, last) ∧
      record.error? = some error := by
  induction operations generalizing session record with
  | nil =>
      cases performed
      exact .inl ⟨rfl, rfl, rfl⟩
  | cons operation later induction =>
      rcases perform_cons performed with
        ⟨values, between, rest, called, further, rfl⟩ | ⟨error, called, rfl⟩
      · rcases induction further with ⟨sound, pushed, received⟩ |
          ⟨before, failing, behind, middle, error, rfl, earlier, fails, failed⟩
        · left
          refine ⟨sound, ?_, ?_⟩
          · simp [Record.after, pushed]
          · rw [← List.singleton_append, List.count_append, ← received,
              ← length_of_call called, Record.after, List.length_append]
        · right
          refine ⟨operation :: before, failing, behind, middle, error, rfl, ?_,
            fails, failed⟩
          rw [perform, called]
          simp only [Option.bind_some, earlier, Option.map_some]
          rfl
      · right
        exact ⟨[], operation, later, session, error, rfl, rfl, called, rfl⟩

theorem perform_sound {operations : List Operation} {record : Record}
    (performed : perform budget operations session = some (record, last))
    (sound : record.error? = none) :
    record.pushed = operations.flatMap Operation.given ∧
      record.received.length = operations.count .receive := by
  rcases perform_cases performed with ⟨_, counted⟩ |
    ⟨_, _, _, _, error, _, _, _, failed⟩
  · exact counted
  · rw [sound] at failed
    cases failed

theorem perform_append {before later : List Operation} {record rest : Record}
    {between : Session}
    (earlier : perform budget before session = some (record, between))
    (sound : record.error? = none)
    (further : perform budget later between = some (rest, last)) :
    perform budget (before ++ later) session =
      some ({
        pushed := record.pushed ++ rest.pushed
        received := record.received ++ rest.received
        error? := rest.error? }, last) := by
  induction before generalizing session record with
  | nil =>
      cases earlier
      exact further
  | cons operation before induction =>
      rcases perform_cons earlier with
        ⟨values, middle, record, called, first, rfl⟩ | ⟨_, _, rfl⟩
      · rw [List.cons_append, perform, called, Option.bind_some]
        simp only [induction first sound, Option.map_some]
        simp [Record.after]
      · cases sound

end Session

end CellMachines
