import CellMachines.Proofs.Executor.Turn

/-!
# How executors come to their results

An executor is given its result by one instruction, or by the look at the token
before one.  An instruction gives it a result when it ends the machine by itself
or when its link lets it down (`Machine.Ceases`); the look gives it nothing but
that it was interrupted.  Counted from the start, this tells what stands behind
every result (`Accounted`).  Counted from the moment when the token is tripped,
it tells that no executor gets beyond the instruction that was under way then
(`Course`).
-/

namespace CellMachines

/-- How an instruction makes an executor end: it ends the machine, or what it
takes or puts does not come about.  The policy is that of the link it puts
on. -/
inductive Machine.Ceases (machine : Machine) (policy : Policy) :
    List Word → Except Failure Unit → Machine → Prop where
  | stopped {ins : List Word} {result : Except Failure Unit} {last : Machine} :
      machine.Stops ins result last → Ceases machine policy ins result last
  | overflowed {word : Word} {capacity : Nat} :
      machine.request = .ok (.output word) → policy = .failFast capacity →
      Ceases machine policy [] (.error (.channelOverflow capacity))
        (machine.failed (.channelOverflow capacity))
  | untaken {target : Nat} :
      machine.request = .ok (.input target) →
      Ceases machine policy [] (.error .interrupted)
        (machine.failed .interrupted)
  | unsent {word : Word} :
      machine.request = .ok (.output word) →
      Ceases machine policy [] (.error .interrupted)
        (machine.failed .interrupted)

theorem Machine.Ceases.steps_le {machine last : Machine} {policy : Policy}
    {ins : List Word} {result : Except Failure Unit}
    (ceases : machine.Ceases policy ins result last) :
    last.steps ≤ machine.steps + 1 ∧ ins.length ≤ 1 := by
  have failed (machine : Machine) (failure : Failure) :
      (machine.failed failure).steps = machine.steps := by
    unfold Machine.failed
    split
    · rfl
    · split <;> rfl
  cases ceases with
  | stopped stops =>
      cases stops with
      | halt => exact ⟨Nat.le_refl _, Nat.zero_le _⟩
      | refuse | unstored => simp [failed]
      | lost => simp [failed, Machine.resumed]
  | overflowed | untaken | unsent => simp [failed]

/-- Only a link whose puts fail at once is found full. -/
def Dealing.Permitted (policy : Policy) (dealing : Dealing) : Prop :=
  ∀ capacity, dealing = .fails (.full capacity) → policy = .failFast capacity

namespace Executor

variable {first : Machine} {policy : Policy} {before executor next : Executor}
  {tripped : Bool} {dealing : Dealing} {result : Except Failure Unit}
  {taken emitted : List Word}

/-! ## One turn -/

/-- A turn after which the executor is still at work. -/
inductive Goes (executor : Executor) (tripped : Bool) (dealing : Dealing)
    (next : Executor) : Prop where
  | looks :
      tripped = false → executor.activity = .checking →
      next.activity = .executing → next.machine = executor.machine →
      dealing.received = [] → dealing.emitted = [] →
      Goes executor tripped dealing next
  | completes :
      executor.activity = .executing → next.activity = .checking →
      executor.machine.Completes dealing.received dealing.emitted
        next.machine →
      Goes executor tripped dealing next

/-- A turn that gives an executor at work its result. -/
inductive Closes (executor : Executor) (policy : Policy) (tripped : Bool)
    (result : Except Failure Unit) (dealing : Dealing) (next : Executor) :
    Prop where
  | dismissed :
      tripped = true → executor.activity = .checking →
      result = .error .interrupted → next.machine = executor.machine →
      dealing.received = [] → Closes executor policy tripped result dealing next
  | ceased :
      executor.activity = .executing →
      executor.machine.Ceases policy dealing.received result next.machine →
      Closes executor policy tripped result dealing next

theorem Turn.goes (turn : executor.Turn tripped dealing next)
    (atWork : next.outcome? = none) : executor.Goes tripped dealing next := by
  cases turn with
  | look idle =>
      cases tripped with
      | false => exact .looks rfl idle rfl rfl rfl rfl
      | true => simp [outcome?, looked] at atWork
  | complete busy completes | receive busy completes | send busy completes
  | discard busy completes => exact .completes busy rfl completes
  | stop | spoil | fail => simp at atWork
  | starve => simp [outcome?] at atWork
  | trip | closeOutput | closeInput => simp [outcome?] at atWork

theorem Turn.closes (turn : executor.Turn tripped dealing next)
    (permitted : dealing.Permitted policy) (atWork : executor.outcome? = none)
    (outcome : next.outcome? = some result) :
    executor.Closes policy tripped result dealing next ∧
      dealing.emitted = [] := by
  cases turn with
  | look idle =>
      cases tripped with
      | false => simp [outcome?, looked] at outcome
      | true =>
          simp only [outcome?, looked, if_true, Option.some.injEq] at outcome
          exact ⟨.dismissed rfl idle outcome.symm rfl rfl, rfl⟩
  | stop busy stops | spoil busy stops =>
      rw [outcome?_leaving, Option.some.injEq] at outcome
      subst outcome
      exact ⟨.ceased busy (.stopped stops), rfl⟩
  | starve busy asks =>
      simp only [outcome?, Option.some.injEq] at outcome
      subst outcome
      exact ⟨.ceased busy (.untaken asks), rfl⟩
  | @fail word error busy asks =>
      rw [outcome?_leaving, Option.some.injEq] at outcome
      subst outcome
      refine ⟨.ceased busy ?_, rfl⟩
      cases error with
      | full capacity => exact .overflowed asks (permitted capacity rfl)
      | closed | cancelled => exact .unsent asks
  | trip leaving | closeOutput leaving | closeInput leaving =>
      simp [outcome?, leaving] at atWork
  | complete | receive | send | discard => simp [outcome?] at outcome

/-! ## From the start -/

/-- What stands behind the result of an executor whose machine is left as
`last`: an instruction after those of a walk from the start, or a look at the
token. -/
inductive Settled (first : Machine) (policy : Policy)
    (taken emitted : List Word) (result : Except Failure Unit)
    (last : Machine) : Prop where
  | dismissed :
      first.Walk taken emitted last → result = .error .interrupted →
      Settled first policy taken emitted result last
  | ceased {earlier ins : List Word} {machine : Machine} :
      first.Walk earlier emitted machine →
      machine.Ceases policy ins result last → earlier ++ ins = taken →
      Settled first policy taken emitted result last

structure Accounted (first : Machine) (policy : Policy) (taken : List Word)
    (executor : Executor) : Prop where
  underway : executor.outcome? = none →
    first.Walk taken executor.emitted.toList executor.machine
  settled : ∀ result, executor.outcome? = some result →
    Settled first policy taken executor.emitted.toList result executor.machine

theorem accounted_start (program : Program) (limits : Limits)
    (policy : Policy) :
    Accounted (Machine.start program limits) policy []
      (start program limits) where
  underway _ := .refl
  settled _ outcome := by cases outcome

theorem Accounted.after (accounted : Accounted first policy taken executor)
    (turn : executor.Turn tripped dealing next)
    (permitted : dealing.Permitted policy) :
    Accounted first policy (taken ++ dealing.received) next := by
  have put_out := turn.emitted_eq
  constructor
  · intro atWork
    have walk := accounted.underway (turn.outcome?_eq_none atWork)
    rw [put_out]
    cases turn.goes atWork with
    | looks _ _ _ same nothing_in nothing_out =>
        rw [same, nothing_in, nothing_out]
        simpa using walk
    | completes _ _ completes => exact walk.step completes
  · intro result outcome
    cases earlier : executor.outcome? with
    | some settled =>
        obtain ⟨stays, same, nothing_in, nothing_out⟩ :=
          turn.outcome?_eq_some earlier
        obtain rfl : settled = result :=
          Option.some.inj (stays.symm.trans outcome)
        rw [put_out, same, nothing_in, nothing_out]
        simpa using accounted.settled settled earlier
    | none =>
        have walk := accounted.underway earlier
        obtain ⟨closes, nothing_out⟩ := turn.closes permitted earlier outcome
        rw [put_out, nothing_out, List.append_nil]
        cases closes with
        | dismissed _ _ interrupted same nothing_in =>
            rw [same, nothing_in, List.append_nil]
            exact .dismissed walk interrupted
        | ceased _ ceases => exact .ceased walk ceases rfl

/-! ## From the moment when the token is tripped -/

/-- How an executor with a tripped token comes to its result. -/
inductive Verdict (before : Executor) (policy : Policy) :
    List Word → List Word → Except Failure Unit → Machine → Prop where
  /-- The result was there already. -/
  | settled {result : Except Failure Unit} :
      before.outcome? = some result →
      Verdict before policy [] [] result before.machine
  /-- No instruction was under way, and none is begun. -/
  | dismissed :
      before.activity = .checking →
      Verdict before policy [] [] (.error .interrupted) before.machine
  /-- The instruction under way is completed, and no other is begun. -/
  | completed {ins outs : List Word} {next : Machine} :
      before.activity = .executing → before.machine.Completes ins outs next →
      Verdict before policy ins outs (.error .interrupted) next
  /-- The instruction under way gives the result. -/
  | ceased {ins : List Word} {result : Except Failure Unit} {last : Machine} :
      before.activity = .executing →
      before.machine.Ceases policy ins result last →
      Verdict before policy ins [] result last

/-- Where an executor may be once its token has been tripped, with the words
that it has taken and put out since. -/
inductive Course (before : Executor) (policy : Policy) :
    List Word → List Word → Executor → Prop where
  | pending : Course before policy [] [] before
  | completed {ins outs : List Word} {executor : Executor} :
      before.activity = .executing → executor.activity = .checking →
      before.machine.Completes ins outs executor.machine →
      Course before policy ins outs executor
  | closed {ins outs : List Word} {executor : Executor}
      {result : Except Failure Unit} :
      executor.outcome? = some result →
      Verdict before policy ins outs result executor.machine →
      Course before policy ins outs executor

private theorem completes_le {machine next : Machine} {ins outs : List Word}
    (completes : machine.Completes ins outs next) :
    next.steps ≤ machine.steps + 1 ∧ ins.length ≤ 1 ∧ outs.length ≤ 1 := by
  refine ⟨Nat.le_of_eq completes.steps_eq.1, ?_⟩
  cases completes <;> simp

theorem Verdict.steps_le {last : Machine}
    (verdict : before.Verdict policy taken emitted result last) :
    last.steps ≤ before.machine.steps + 1 ∧ taken.length ≤ 1 ∧
      emitted.length ≤ 1 := by
  cases verdict with
  | settled | dismissed => simp
  | completed _ completes => exact completes_le completes
  | ceased _ ceases =>
      exact ⟨ceases.steps_le.1, ceases.steps_le.2, Nat.zero_le 1⟩

namespace Course

theorem verdict (course : before.Course policy taken emitted executor)
    (outcome : executor.outcome? = some result) :
    before.Verdict policy taken emitted result executor.machine := by
  cases course with
  | pending => exact .settled outcome
  | completed _ idle => simp [outcome?, idle] at outcome
  | closed settled verdict =>
      obtain rfl := Option.some.inj (settled.symm.trans outcome)
      exact verdict

theorem steps_le (course : before.Course policy taken emitted executor) :
    executor.machine.steps ≤ before.machine.steps + 1 ∧ taken.length ≤ 1 ∧
      emitted.length ≤ 1 := by
  cases course with
  | pending => simp
  | completed _ _ completes => exact completes_le completes
  | closed _ verdict => exact verdict.steps_le

theorem after (course : before.Course policy taken emitted executor)
    (turn : executor.Turn true dealing next)
    (permitted : dealing.Permitted policy) :
    before.Course policy (taken ++ dealing.received)
      (emitted ++ dealing.emitted) next := by
  cases earlier : executor.outcome? with
  | some settled =>
      obtain ⟨stays, same, nothing_in, nothing_out⟩ :=
        turn.outcome?_eq_some earlier
      have verdict := course.verdict earlier
      rw [nothing_in, nothing_out, List.append_nil, List.append_nil]
      apply Course.closed stays
      rw [same]
      exact verdict
  | none =>
      cases outcome : next.outcome? with
      | none =>
          cases turn.goes outcome with
          | looks untripped => cases untripped
          | completes busy idle completes =>
              cases course with
              | pending => exact .completed busy idle completes
              | completed _ checking => rw [checking] at busy; cases busy
              | closed settled => rw [earlier] at settled; cases settled
      | some result =>
          obtain ⟨closes, nothing_out⟩ := turn.closes permitted earlier outcome
          rw [nothing_out, List.append_nil]
          apply Course.closed outcome
          cases course with
          | pending =>
              cases closes with
              | dismissed _ idle interrupted same nothing_in =>
                  rw [interrupted, same, nothing_in]
                  exact .dismissed idle
              | ceased busy ceases => exact .ceased busy ceases
          | completed busy idle completes =>
              cases closes with
              | dismissed _ _ interrupted same nothing_in =>
                  rw [interrupted, same, nothing_in, List.append_nil]
                  exact .completed busy completes
              | ceased executing => rw [idle] at executing; cases executing
          | closed settled => rw [earlier] at settled; cases settled

end Course

end Executor

end CellMachines
