import CellMachines.Proofs.Machine.Conclusion

/-!
# Inputs in pieces

A machine that runs out of inputs waits on its input instruction, and nothing
but its status tells that it has tried.  Given more inputs it goes on as if they
had been there from the start.  A run on inputs that come in pieces is therefore
the run on all of them at once: one ends if the other does, in the same way and
with the same inputs left over.
-/

namespace CellMachines

namespace Tape

@[simp] theorem feed_nil (tape : Tape) : tape.feed [] = tape := by
  simp [feed]

@[simp] theorem feed_feed (tape : Tape) (first later : List Word) :
    (tape.feed first).feed later = tape.feed (first ++ later) := by
  simp [feed]

end Tape

namespace Machine

variable {machine next last : Machine} {tape after final : Tape}
  {budget : Nat} {result : Except Failure Unit} {more : List Word}

theorem IsPlain.feed (plain : IsPlain tape) (more : List Word) :
    IsPlain (tape.feed more) :=
  ⟨plain.dry, plain.room⟩

/-! ## One instruction -/

/-- Inputs further back in the queue make no difference to an instruction that
does not run out of them. -/
theorem step_feed {outcome : Except Failure Outcome} (plain : IsPlain tape)
    (stepped : machine.step Tape.surroundings tape = (outcome, next, after))
    (fed : outcome ≠ .error .inputExhausted) (more : List Word) :
    machine.step Tape.surroundings (tape.feed more) =
      (outcome, next, after.feed more) := by
  unfold step at stepped ⊢
  cases asks : machine.request with
  | error failure =>
      simp only [asks, Prod.mk.injEq] at stepped ⊢
      obtain ⟨rfl, rfl, rfl⟩ := stepped
      exact ⟨rfl, rfl, rfl⟩
  | ok effect =>
      cases effect with
      | input target =>
          cases waiting : tape.waiting with
          | nil =>
              simp only [asks, Tape.surroundings, Tape.take, waiting, plain.dry,
                Prod.mk.injEq] at stepped
              exact absurd stepped.1.symm fed
          | cons word rest =>
              simp only [asks, Tape.surroundings, Tape.take, Tape.feed, waiting,
                List.cons_append, Prod.mk.injEq] at stepped ⊢
              obtain ⟨rfl, rfl, rfl⟩ := stepped
              exact ⟨rfl, rfl, rfl⟩
      | output word =>
          simp only [asks, Tape.surroundings, Tape.put, Tape.refusal?,
            Tape.feed, plain.room, Prod.mk.injEq] at stepped ⊢
          obtain ⟨rfl, rfl, rfl⟩ := stepped
          exact ⟨rfl, rfl, rfl⟩
      | store | jump | rebase | halt =>
          simp only [asks, Prod.mk.injEq] at stepped ⊢
          obtain ⟨rfl, rfl, rfl⟩ := stepped
          exact ⟨rfl, rfl, rfl⟩

/-- Only an input instruction that finds the queue empty runs out of inputs, and
it leaves no trace but the status. -/
theorem starves_of_step (plain : IsPlain tape)
    (running : machine.status.isTerminal = false)
    (stepped : machine.step Tape.surroundings tape =
      (.error .inputExhausted, next, after)) :
    (∃ target, machine.request = .ok (.input target)) ∧
      next = machine.failed .inputExhausted ∧ after = tape := by
  cases tapeStep machine plain with
  | completes _ _ whole =>
      rw [whole] at stepped
      cases stepped
  | @stops _ _ result _ stops _ whole =>
      rw [whole, Prod.mk.injEq] at stepped
      cases result with
      | ok => cases stepped.1
      | error failure =>
          cases stepped.1
          cases stops.isFault running
  | @starves target asks _ whole =>
      rw [whole] at stepped
      cases stepped
      exact ⟨⟨target, asks⟩, rfl, rfl⟩

/-- A machine that has tried to take an input does what it would have done
otherwise. -/
theorem step_failed {target : Nat} (plain : IsPlain tape)
    (running : machine.status.isTerminal = false)
    (asks : machine.request = .ok (.input target)) :
    (machine.failed .inputExhausted).step Tape.surroundings tape =
      machine.step Tape.surroundings tape := by
  have paused := failed_inputExhausted running
  have still : request { machine with status := .awaitingInput } =
      machine.request := by
    simp only [request, running]
    rfl
  have again :
      failed { machine with status := .awaitingInput } .inputExhausted =
        machine.failed .inputExhausted := by
    rw [paused]
    rfl
  rw [paused]
  unfold step
  rw [still, asks]
  cases waiting : tape.waiting with
  | nil => simp only [Tape.surroundings, Tape.take, waiting, plain.dry, again]
  | cons word rest =>
      simp only [Tape.surroundings, Tape.take, waiting]
      rfl

theorem run_failed {target : Nat} (plain : IsPlain tape)
    (running : machine.status.isTerminal = false)
    (asks : machine.request = .ok (.input target)) (budget : Nat) :
    run Tape.surroundings budget (machine.failed .inputExhausted) tape =
      run Tape.surroundings budget machine tape := by
  cases budget with
  | zero => rfl
  | succ budget => simp only [run, step_failed plain running asks]

/-! ## Runs -/

theorem isPlain_of_step {outcome : Except Failure Outcome}
    (plain : IsPlain tape)
    (stepped : machine.step Tape.surroundings tape = (outcome, next, after)) :
    IsPlain after := by
  cases tapeStep machine plain with
  | completes _ _ whole | stops _ _ whole | starves _ _ whole =>
      rw [whole] at stepped
      cases stepped
      exact ⟨plain.dry, plain.room⟩

theorem isTerminal_of_step (plain : IsPlain tape)
    (running : machine.status.isTerminal = false)
    (stepped : machine.step Tape.surroundings tape =
      (.ok .proceeds, next, after)) :
    next.status.isTerminal = false := by
  cases tapeStep machine plain with
  | completes completes _ whole =>
      rw [whole] at stepped
      cases stepped
      exact completes.isTerminal running
  | @stops _ _ result _ _ _ whole =>
      rw [whole] at stepped
      cases result <;> cases stepped
  | starves _ _ whole =>
      rw [whole] at stepped
      cases stepped

/-- A run that ends for another reason than a lack of inputs leaves all further
inputs alone. -/
theorem run_feed_of_ended (plain : IsPlain tape)
    (ran : run Tape.surroundings budget machine tape =
      some (result, last, final))
    (fed : result ≠ .error .inputExhausted) (more : List Word) :
    run Tape.surroundings budget machine (tape.feed more) =
      some (result, last, final.feed more) := by
  induction budget generalizing machine tape with
  | zero => cases ran
  | succ budget induction =>
      rcases stepped : machine.step Tape.surroundings tape with
        ⟨outcome, next, after⟩
      rw [run, stepped] at ran
      rw [run]
      cases outcome with
      | error failure =>
          cases ran
          rw [step_feed plain stepped (by simpa using fed)]
      | ok outcome =>
          rw [step_feed plain stepped (by simp)]
          cases outcome with
          | proceeds => exact induction (isPlain_of_step plain stepped) ran
          | halts =>
              cases ran
              rfl

/-- A run that ends for lack of inputs is the beginning of every run on more of
them. -/
theorem run_feed_of_starved (plain : IsPlain tape)
    (running : machine.status.isTerminal = false)
    (ran : run Tape.surroundings budget machine tape =
      some (.error .inputExhausted, last, final)) (more : List Word) :
    ∃ done, ∀ further,
      run Tape.surroundings (done + further) machine (tape.feed more) =
        run Tape.surroundings further last (final.feed more) := by
  induction budget generalizing machine tape with
  | zero => cases ran
  | succ budget induction =>
      rcases stepped : machine.step Tape.surroundings tape with
        ⟨outcome, next, after⟩
      rw [run, stepped] at ran
      cases outcome with
      | error failure =>
          cases ran
          obtain ⟨⟨target, asks⟩, rfl, rfl⟩ :=
            starves_of_step plain running stepped
          refine ⟨0, ?_⟩
          intro further
          rw [run_failed (plain.feed more) running asks, Nat.zero_add]
      | ok outcome =>
          cases outcome with
          | halts => cases ran
          | proceeds =>
              obtain ⟨done, continues⟩ :=
                induction (isPlain_of_step plain stepped)
                  (isTerminal_of_step plain running stepped) ran
              refine ⟨done + 1, ?_⟩
              intro further
              rw [Nat.add_right_comm, run,
                step_feed plain stepped (by simp) more]
              exact continues further

/-- Fewer inputs make no run longer. -/
theorem exists_run_of_feed {ending : Except Failure Unit × Machine × Tape}
    (plain : IsPlain tape)
    (ran : run Tape.surroundings budget machine (tape.feed more) =
      some ending) :
    ∃ result last final,
      run Tape.surroundings budget machine tape =
        some (result, last, final) := by
  induction budget generalizing machine tape with
  | zero => cases ran
  | succ budget induction =>
      rcases stepped : machine.step Tape.surroundings tape with
        ⟨outcome, next, after⟩
      rw [run, stepped]
      cases outcome with
      | error failure => exact ⟨_, _, _, rfl⟩
      | ok outcome =>
          cases outcome with
          | halts => exact ⟨_, _, _, rfl⟩
          | proceeds =>
              rw [run, step_feed plain stepped (by simp)] at ran
              exact induction (isPlain_of_step plain stepped) ran

/-! ## Pieces -/

/-- A run that gets the next piece each time it runs out of inputs, each time
with the whole budget, together with the pieces that it did not get. -/
def runInPieces (budget : Nat) (machine : Machine) (tape : Tape) :
    List (List Word) →
      Option (Except Failure Unit × Machine × Tape × List (List Word))
  | [] =>
    (run Tape.surroundings budget machine tape).map
      fun (result, last, final) => (result, last, final, [])
  | piece :: later =>
    match run Tape.surroundings budget machine tape with
    | some (.error .inputExhausted, last, final) =>
      runInPieces budget last (final.feed piece) later
    | some (result, last, final) => some (result, last, final, piece :: later)
    | none => none

section Pieces

variable {pieces later : List (List Word)} {piece : List Word}

theorem runInPieces_of_starved
    (ran : run Tape.surroundings budget machine tape =
      some (.error .inputExhausted, last, final)) :
    runInPieces budget machine tape (piece :: later) =
      runInPieces budget last (final.feed piece) later := by
  rw [runInPieces, ran]

theorem runInPieces_of_ended
    (ran : run Tape.surroundings budget machine tape =
      some (result, last, final))
    (fed : result ≠ .error .inputExhausted) (pieces : List (List Word)) :
    runInPieces budget machine tape pieces =
      some (result, last, final, pieces) := by
  cases pieces with
  | nil => rw [runInPieces, ran, Option.map_some]
  | cons piece later =>
      rw [runInPieces, ran]
      split
      · rename_i starved
        cases starved
        exact absurd rfl fed
      · rename_i same
        cases same
        rfl
      · rename_i impossible
        cases impossible

theorem runInPieces_of_le {larger : Nat}
    {ending : Except Failure Unit × Machine × Tape × List (List Word)}
    (ran : runInPieces budget machine tape pieces = some ending)
    (within : budget ≤ larger) :
    runInPieces larger machine tape pieces = some ending := by
  induction pieces generalizing machine tape with
  | nil =>
      obtain ⟨ended, inner, rfl⟩ := Option.map_eq_some_iff.mp ran
      rw [runInPieces, run_of_le inner within, Option.map_some]
  | cons piece later induction =>
      cases inner : run Tape.surroundings budget machine tape with
      | none =>
          rw [runInPieces, inner] at ran
          cases ran
      | some ended =>
          obtain ⟨result, last, final⟩ := ended
          have whole := run_of_le inner within
          by_cases fed : result = .error .inputExhausted
          · subst fed
            rw [runInPieces_of_starved inner] at ran
            rw [runInPieces_of_starved whole]
            exact induction ran
          · rw [runInPieces_of_ended inner fed] at ran
            rw [runInPieces_of_ended whole fed]
            exact ran

theorem isPlain_of_run (plain : IsPlain tape)
    (ran : run Tape.surroundings budget machine tape =
      some (result, last, final)) :
    IsPlain final := by
  induction budget generalizing machine tape with
  | zero => cases ran
  | succ budget induction =>
      rcases stepped : machine.step Tape.surroundings tape with
        ⟨outcome, next, after⟩
      have still := isPlain_of_step plain stepped
      rw [run, stepped] at ran
      cases outcome with
      | error failure =>
          cases ran
          exact still
      | ok outcome =>
          cases outcome with
          | proceeds => exact induction still ran
          | halts =>
              cases ran
              exact still

theorem isTerminal_of_starved (plain : IsPlain tape)
    (running : machine.status.isTerminal = false)
    (ran : run Tape.surroundings budget machine tape =
      some (.error .inputExhausted, last, final)) :
    last.status.isTerminal = false := by
  induction budget generalizing machine tape with
  | zero => cases ran
  | succ budget induction =>
      rcases stepped : machine.step Tape.surroundings tape with
        ⟨outcome, next, after⟩
      rw [run, stepped] at ran
      cases outcome with
      | error failure =>
          cases ran
          obtain ⟨_, rfl, _⟩ := starves_of_step plain running stepped
          rw [failed_inputExhausted running]
          rfl
      | ok outcome =>
          cases outcome with
          | proceeds =>
              exact induction (isPlain_of_step plain stepped)
                (isTerminal_of_step plain running stepped) ran
          | halts => cases ran

theorem exists_run_of_runInPieces {unread : List (List Word)}
    (plain : IsPlain tape) (running : machine.status.isTerminal = false)
    (ran : runInPieces budget machine tape pieces =
      some (result, last, final, unread)) :
    ∃ enough,
      run Tape.surroundings enough machine (tape.feed pieces.flatten) =
        some (result, last, final.feed unread.flatten) := by
  induction pieces generalizing machine tape with
  | nil =>
      obtain ⟨⟨result, last, final⟩, inner, same⟩ :=
        Option.map_eq_some_iff.mp ran
      cases same
      exact ⟨budget, by simpa using inner⟩
  | cons piece later induction =>
      cases inner : run Tape.surroundings budget machine tape with
      | none =>
          rw [runInPieces, inner] at ran
          cases ran
      | some ended =>
          obtain ⟨first, stops, rest⟩ := ended
          by_cases fed : first = .error .inputExhausted
          · subst fed
            rw [runInPieces_of_starved inner] at ran
            obtain ⟨enough, whole⟩ :=
              induction ((isPlain_of_run plain inner).feed piece)
                (isTerminal_of_starved plain running inner) ran
            obtain ⟨done, continues⟩ :=
              run_feed_of_starved plain running inner
                (piece :: later).flatten
            refine ⟨done + enough, ?_⟩
            rw [continues, List.flatten_cons, ← Tape.feed_feed, whole]
          · rw [runInPieces_of_ended inner fed] at ran
            cases ran
            exact ⟨budget, run_feed_of_ended plain inner fed _⟩

theorem exists_runInPieces_of_run (plain : IsPlain tape)
    (running : machine.status.isTerminal = false)
    (ran : run Tape.surroundings budget machine (tape.feed pieces.flatten) =
      some (result, last, final)) :
    ∃ enough rest unread,
      runInPieces enough machine tape pieces =
        some (result, last, rest, unread) ∧
      rest.feed unread.flatten = final := by
  induction pieces generalizing machine tape with
  | nil =>
      rw [List.flatten_nil, Tape.feed_nil] at ran
      refine ⟨budget, final, [], ?_, by simp⟩
      rw [runInPieces, ran, Option.map_some]
  | cons piece later induction =>
      obtain ⟨first, stops, rest, inner⟩ := exists_run_of_feed plain ran
      by_cases fed : first = .error .inputExhausted
      · subst fed
        obtain ⟨done, continues⟩ :=
          run_feed_of_starved plain running inner (piece :: later).flatten
        -- a larger budget than needed, so that it covers what is done already
        have whole := run_of_le ran (Nat.le_add_left budget done)
        rw [continues, List.flatten_cons, ← Tape.feed_feed] at whole
        obtain ⟨enough, rest, unread, pieced, same⟩ :=
          induction ((isPlain_of_run plain inner).feed piece)
            (isTerminal_of_starved plain running inner) whole
        refine ⟨max budget enough, rest, unread, ?_, same⟩
        rw [runInPieces_of_starved (run_of_le inner (Nat.le_max_left _ _))]
        exact runInPieces_of_le pieced (Nat.le_max_right _ _)
      · have whole := run_feed_of_ended plain inner fed (piece :: later).flatten
        rw [ran] at whole
        cases whole
        exact ⟨budget, rest, piece :: later,
          runInPieces_of_ended inner fed _, rfl⟩

end Pieces

/-- With inputs in pieces a fresh machine does what it does with all of them at
once: the run that is fed piece by piece and the run on the whole list end
alike, in the same machine, with the same outputs and the same inputs unread.
In particular, more inputs change nothing about a run that does not run out of
them, and only continue one that does. -/
theorem runInPieces_eq_run (program : Program) (limits : Limits) :
    (∀ piece pieces result last final,
      (∃ budget rest unread,
        runInPieces budget (start program limits) { waiting := piece } pieces =
          some (result, last, rest, unread) ∧
        rest.feed unread.flatten = final) ↔
      ∃ budget,
        run Tape.surroundings budget (start program limits)
            { waiting := (piece :: pieces).flatten } =
          some (result, last, final)) ∧
    ∀ inputs more budget result last final,
      run Tape.surroundings budget (start program limits)
          { waiting := inputs } = some (result, last, final) →
      (result ≠ .error .inputExhausted →
        run Tape.surroundings budget (start program limits)
            { waiting := inputs ++ more } =
          some (result, last, final.feed more)) ∧
      (result = .error .inputExhausted →
        ∃ done, ∀ further,
          run Tape.surroundings (done + further) (start program limits)
              { waiting := inputs ++ more } =
            run Tape.surroundings further last (final.feed more)) ∧
      ∀ larger ending other whole,
        run Tape.surroundings larger (start program limits)
            { waiting := inputs ++ more } = some (ending, other, whole) →
        final.emitted.toList <+: whole.emitted.toList := by
  have plain (inputs : List Word) : IsPlain { waiting := inputs } := ⟨rfl, rfl⟩
  have running : (start program limits).status.isTerminal = false := rfl
  constructor
  · intro piece pieces result last final
    constructor
    · rintro ⟨budget, rest, unread, pieced, rfl⟩
      exact exists_run_of_runInPieces (plain piece) running pieced
    · rintro ⟨budget, ran⟩
      exact exists_runInPieces_of_run (plain piece) running ran
  · intro inputs more budget result last final ran
    refine ⟨?_, ?_, ?_⟩
    · intro fed
      exact run_feed_of_ended (plain inputs) ran fed more
    · rintro rfl
      exact run_feed_of_starved (plain inputs) running ran more
    · intro larger ending other whole ranWhole
      have all := concludes_of_run ranWhole
      cases concludes_of_run ran with
      | stops walk _ within =>
          have within := (List.prefix_append _ _).trans within
          exact all.emitted_prefix_outputs walk
            (within.trans (List.prefix_append _ _))
      | starves walk =>
          exact all.emitted_prefix_outputs walk (List.prefix_append _ _)

/-- A program that puts out the sum of two inputs. -/
def summing : Program where
  cells := [3, 0, 3, 1, 1, 0, 1, 2, 4, 2, 99]

/-- The first piece is too short, the second one is empty, the third one is
longer than needed, and the last one is not fed any more. -/
theorem runInPieces_eq_run_summing : ∃ (last : Machine) (rest : Tape),
    rest.emitted = #[42] ∧ rest.waiting = [5] ∧
      runInPieces 5 (start summing {}) { waiting := [20] } [[], [22, 5], [7]] =
        some (.ok (), last, rest, [[7]]) ∧
      ∃ budget,
        run Tape.surroundings budget (start summing {})
            { waiting := [20, 22, 5, 7] } =
          some (.ok (), last, rest.feed [7]) := by
  have ends : (runInPieces 5 (start summing {}) { waiting := [20] }
      [[], [22, 5], [7]]).any (fun (result, _, rest, unread) =>
        result.isOk && rest.emitted = #[42] && rest.waiting = [5] &&
          unread = [[7]]) = true := by
    decide +kernel
  obtain ⟨⟨result, last, rest, unread⟩, pieced, checks⟩ :=
    (Option.any_eq_true _ _).mp ends
  simp only [Bool.and_eq_true, decide_eq_true_eq] at checks
  obtain ⟨⟨⟨ok, emitted⟩, waiting⟩, rfl⟩ := checks
  cases result with
  | error => cases ok
  | ok =>
      have whole := ((runInPieces_eq_run summing {}).1 [20]
        [[], [22, 5], [7]] (.ok ()) last (rest.feed [7])).mp
          ⟨5, rest, [[7]], pieced, rfl⟩
      exact ⟨last, rest, emitted, waiting, pieced, whole⟩

end Machine

end CellMachines
