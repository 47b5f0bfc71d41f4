import CellMachines.Proofs.Machine.Refinement

/-!
# Walks on a tape

A walk is retraced by the run of its machine on every tape that holds the words
it takes and has room for the words it puts out.  Whatever ends a walk therefore
ends that run, and a conclusion is what the run on a list of inputs comes to
within some budget.
-/

namespace CellMachines

namespace Tape

/-- Whether the record has room for so many more words. -/
def Admits (tape : Tape) (count : Nat) : Prop :=
  ∀ room, tape.room = some room → tape.emitted.size + count ≤ room

/-- The tape after the words before `rest` are taken and others are put out. -/
def past (tape : Tape) (rest emitted : List Word) : Tape :=
  { tape with
    waiting := rest
    emitted := tape.emitted ++ emitted.toArray }

variable {tape : Tape} {rest later emitted further : List Word}

@[simp] theorem waiting_past : (tape.past rest emitted).waiting = rest := rfl

@[simp] theorem room_past : (tape.past rest emitted).room = tape.room := rfl

@[simp] theorem dry_past : (tape.past rest emitted).dry = tape.dry := rfl

@[simp] theorem emitted_past :
    (tape.past rest emitted).emitted = tape.emitted ++ emitted.toArray := rfl

@[simp] theorem past_past :
    (tape.past rest emitted).past later further =
      tape.past later (emitted ++ further) := by
  simp [past]

@[simp] theorem past_waiting : tape.past tape.waiting [] = tape := by
  simp [past]

theorem admits_of_room (unlimited : tape.room = none) (count : Nat) :
    tape.Admits count := by
  intro room limited
  rw [unlimited] at limited
  cases limited

theorem Admits.of_le {count larger : Nat} (admits : tape.Admits larger)
    (within : count ≤ larger) : tape.Admits count := by
  intro room limited
  have bound := admits room limited
  omega

theorem Admits.past {count : Nat}
    (admits : tape.Admits (emitted.length + count)) (rest : List Word) :
    (tape.past rest emitted).Admits count := by
  intro room limited
  have bound := admits room limited
  simp only [emitted_past, Array.size_append, List.size_toArray]
  omega

theorem refusal?_of_admits (admits : tape.Admits 1) :
    tape.refusal? = none := by
  unfold refusal?
  cases limited : tape.room with
  | none => rfl
  | some room =>
      have bound := admits room limited
      simp only [ite_eq_right_iff]
      omega

theorem refusal?_of_full (full : tape.room = some tape.emitted.size) :
    tape.refusal? = some (.channelOverflow tape.emitted.size) := by
  rw [refusal?, full]
  simp

end Tape

namespace Machine

variable {first machine next last : Machine} {tape : Tape}
  {ins outs rest taken emitted inputs : List Word}
  {result : Except Failure Unit}

/-! ## One instruction -/

theorem step_of_completes (completes : Completes machine ins outs next)
    (waiting : tape.waiting = ins ++ rest) (admits : tape.Admits outs.length) :
    machine.step Tape.surroundings tape =
      (.ok .proceeds, next, tape.past rest outs) := by
  cases completes with
  | store asks accepted =>
      obtain rfl : rest = tape.waiting := waiting.symm
      simp [step, asks, settle, accepted]
  | input asks accepted =>
      simp [step, asks, Tape.surroundings, Tape.take, waiting, settle,
        storeFailure?_resumed, accepted, Tape.past]
  | output asks =>
      have accepted := Tape.refusal?_of_admits admits
      rw [List.nil_append] at waiting
      simp [step, asks, Tape.surroundings, Tape.put, accepted, Tape.past,
        waiting]
  | jump asks | rebase asks =>
      obtain rfl : rest = tape.waiting := waiting.symm
      simp [step, asks]

theorem step_of_stops (stops : Stops machine ins result last)
    (waiting : tape.waiting = ins ++ rest) :
    machine.step Tape.surroundings tape =
      (result.map fun () => .halts, last, tape.past rest []) := by
  cases stops with
  | halt asks | refuse asks =>
      obtain rfl : rest = tape.waiting := waiting.symm
      simp [step, asks, Except.map]
  | unstored asks refused =>
      obtain rfl : rest = tape.waiting := waiting.symm
      simp [step, asks, settle, refused, Except.map]
  | lost asks refused =>
      simp [step, asks, Tape.surroundings, Tape.take, waiting, settle,
        storeFailure?_resumed, refused, Except.map, Tape.past]

@[simp] theorem steps_failed (machine : Machine) (failure : Failure) :
    (machine.failed failure).steps = machine.steps := by
  unfold failed
  split
  · rfl
  · split <;> rfl

theorem Stops.steps_le (stops : Stops machine ins result last) :
    machine.steps ≤ last.steps ∧ last.steps ≤ machine.steps + 1 := by
  cases stops <;> simp [halted, resumed]

/-! ## Walks -/

theorem after_add {steps : Nat} {between : Tape}
    (proceeds : after steps first tape = (none, machine, between))
    (further : Nat) :
    after (steps + further) first tape = after further machine between := by
  induction steps generalizing first tape with
  | zero =>
      cases proceeds
      rw [Nat.zero_add]
  | succ steps induction =>
      rw [Nat.add_right_comm]
      rw [after] at proceeds ⊢
      rcases stepped : first.step Tape.surroundings tape with
        ⟨failure | outcome, next, rest⟩
      · rw [stepped] at proceeds
        cases proceeds
      · rw [stepped] at proceeds
        cases outcome with
        | proceeds => exact induction proceeds
        | halts => cases proceeds

/-- The run on a tape that holds what a walk takes goes the way of the walk. -/
theorem Walk.after_eq (walk : Walk first taken emitted last)
    (waiting : tape.waiting = taken ++ rest)
    (admits : tape.Admits emitted.length) :
    ∃ steps, last.steps = first.steps + steps ∧
      after steps first tape = (none, last, tape.past rest emitted) := by
  induction walk generalizing rest with
  | refl =>
      refine ⟨0, rfl, ?_⟩
      obtain rfl : rest = tape.waiting := waiting.symm
      rw [after, Tape.past_waiting]
  | @step taken emitted ins outs machine next walk completes induction =>
      rw [List.append_assoc] at waiting
      rw [List.length_append] at admits
      obtain ⟨steps, counted, before⟩ :=
        induction waiting (admits.of_le (Nat.le_add_right _ _))
      refine ⟨steps + 1, ?_, ?_⟩
      · rw [completes.steps_eq.1, counted, Nat.add_assoc]
      · have stepped : machine.step Tape.surroundings
            (tape.past (ins ++ rest) emitted) = _ :=
          step_of_completes completes rfl (admits.past _)
        rw [after_add before, after, stepped, Tape.past_past]
        rfl

theorem Walk.run_eq (walk : Walk first taken emitted last)
    (waiting : tape.waiting = taken ++ rest)
    (admits : tape.Admits emitted.length) :
    ∃ steps, last.steps = first.steps + steps ∧ ∀ further,
      run Tape.surroundings (steps + further) first tape =
        run Tape.surroundings further last (tape.past rest emitted) := by
  obtain ⟨steps, counted, goes⟩ := walk.after_eq waiting admits
  refine ⟨steps, counted, ?_⟩
  intro further
  rw [run_eq_after, run_eq_after, after_add goes]

/-- A run that is over completes more instructions than any walk on its tape. -/
theorem Walk.steps_lt {budget : Nat}
    {ending : Except Failure Unit × Machine × Tape}
    (walk : Walk first taken emitted last)
    (waiting : tape.waiting = taken ++ rest)
    (admits : tape.Admits emitted.length)
    (ran : run Tape.surroundings budget first tape = some ending) :
    last.steps < first.steps + budget := by
  obtain ⟨steps, counted, goes⟩ := walk.run_eq waiting admits
  apply Nat.lt_of_not_le
  intro beyond
  have unfinished := goes 0
  have within : budget ≤ steps + 0 := by omega
  rw [run_of_le ran within] at unfinished
  cases unfinished

/-! ## Ends -/

theorem run_unique {σ : Type} {surroundings : Surroundings σ} {world : σ}
    {budget other : Nat}
    {ending otherEnding : Except Failure Unit × Machine × σ}
    (left : run surroundings budget machine world = some ending)
    (right : run surroundings other machine world = some otherEnding) :
    ending = otherEnding := by
  have left := run_of_le left (Nat.le_max_left budget other)
  have right := run_of_le right (Nat.le_max_right budget other)
  exact Option.some.inj (left.symm.trans right)

theorem Walk.exists_run_of_stops (walk : Walk first taken emitted machine)
    (stops : Stops machine ins result last)
    (waiting : tape.waiting = taken ++ ins ++ rest)
    (admits : tape.Admits emitted.length) :
    ∃ budget, run Tape.surroundings budget first tape =
      some (result, last, tape.past rest emitted) := by
  rw [List.append_assoc] at waiting
  obtain ⟨steps, _, goes⟩ := walk.run_eq waiting admits
  refine ⟨steps + 1, ?_⟩
  have stepped : machine.step Tape.surroundings
      (tape.past (ins ++ rest) emitted) = _ := step_of_stops stops rfl
  rw [goes, run, stepped, Tape.past_past, List.append_nil]
  cases result <;> rfl

theorem Walk.exists_run_of_starves {target : Nat}
    (walk : Walk first taken emitted machine)
    (asks : machine.request = .ok (.input target))
    (waiting : tape.waiting = taken) (admits : tape.Admits emitted.length) :
    ∃ budget, run Tape.surroundings budget first tape =
      some (.error tape.dry, machine.failed tape.dry,
        tape.past [] emitted) := by
  rw [← List.append_nil taken] at waiting
  obtain ⟨steps, _, goes⟩ := walk.run_eq waiting admits
  refine ⟨steps + 1, ?_⟩
  rw [goes, run]
  simp [Machine.step, asks, Tape.surroundings, Tape.take]

theorem Walk.exists_run_of_overflows {word : Word}
    (walk : Walk first taken emitted machine)
    (asks : machine.request = .ok (.output word))
    (waiting : tape.waiting = taken ++ rest)
    (full : tape.room = some (tape.emitted.size + emitted.length)) :
    ∃ budget, run Tape.surroundings budget first tape =
      some (.error (.channelOverflow (tape.emitted.size + emitted.length)),
        machine.failed
          (.channelOverflow (tape.emitted.size + emitted.length)),
        tape.past rest emitted) := by
  have admits : tape.Admits emitted.length := by
    intro room limited
    rw [full] at limited
    cases limited
    exact Nat.le_refl _
  obtain ⟨steps, _, goes⟩ := walk.run_eq waiting admits
  refine ⟨steps + 1, ?_⟩
  have size : (tape.past rest emitted).emitted.size =
      tape.emitted.size + emitted.length := by
    simp
  have refused : (tape.past rest emitted).refusal? = _ :=
    Tape.refusal?_of_full (by rw [size]; exact full)
  rw [goes, run]
  simp only [Machine.step, asks, Tape.surroundings, Tape.put, refused, size]

/-- A conclusion is what a run comes to. -/
theorem Concludes.exists_run {outputs : List Word}
    (concludes : Concludes first inputs result last outputs) :
    ∃ budget final,
      run Tape.surroundings budget first { waiting := inputs } =
        some (result, last, final) ∧
      final.emitted.toList = outputs := by
  let tape : Tape := { waiting := inputs }
  have admits : tape.Admits outputs.length := Tape.admits_of_room rfl _
  cases concludes with
  | stops walk stops within =>
      obtain ⟨rest, split⟩ := within
      have waiting : tape.waiting = _ := split.symm
      obtain ⟨budget, ran⟩ := walk.exists_run_of_stops stops waiting admits
      exact ⟨budget, _, ran, by simp [tape]⟩
  | starves walk asks =>
      have waiting : tape.waiting = inputs := rfl
      obtain ⟨budget, ran⟩ := walk.exists_run_of_starves asks waiting admits
      exact ⟨budget, _, ran, by simp [tape]⟩

end Machine

end CellMachines
