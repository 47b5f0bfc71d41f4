import CellMachines.Settings
import CellMachines.Proofs.Pipeline.Accounts
import CellMachines.Proofs.Pipeline.Verdict

/-!
# What is accepted, and what that is enough for

Settings state their least capacities by the kind of channel, and a pipeline
those of its policy; the two rules are the same.  An accepted capacity is enough
for the phase settings, which are on the links before anybody acts.  For the
seed it is enough in a chain, where nobody else writes link `0`.  In a ring the
last machine does, and with a policy that fails the seed may find the link full
of its words (`acceptance_suffices_crowded`).
-/

namespace CellMachines

/-! ## Settings and policies -/

namespace Settings

theorem problem?_eq_none_iff {settings : Settings} :
    settings.problem? = none ↔
      settings.pipeline.channel.leastCapacity ≤ settings.pipeline.capacity ∧
        settings.machine.memory ≠ some 0 := by
  unfold problem?
  extract_lets channel
  split
  · rename_i small
    simp only [reduceCtorEq, false_iff, not_and]
    intro large
    exact absurd small (Nat.not_lt.mpr large)
  · rename_i large
    have enough := Nat.not_lt.mp large
    split
    · rename_i empty
      simp [empty]
    · rename_i inhabited
      exact ⟨fun _ => ⟨enough, inhabited⟩, fun _ => rfl⟩

end Settings

theorem PipelineSettings.policy_accepted_iff
    {settings : PipelineSettings} :
    Pipeline.policyProblem? settings.policy = none ↔
      settings.channel.leastCapacity ≤ settings.capacity := by
  rw [Pipeline.policyProblem?_eq_none_iff]
  unfold PipelineSettings.policy Policy.backpressure Policy.failFast
  cases settings.channel <;> simp [ChannelKind.leastCapacity]

namespace Pipeline

theorem two_le_of_accepted {capacity : Nat}
    (accepted : policyProblem? (.failFast capacity) = none) : 2 ≤ capacity := by
  rcases policyProblem?_eq_none_iff.mp accepted with
    same | ⟨_, _, same⟩ | ⟨_, large, same⟩
  · cases same
  · cases same
  · cases same
    exact large

/-! ## A seed that finds no room -/

/-- The reason for which the conductor gives up the run, from the moment the
seed found no room. -/
def Conductor.refusal? : Conductor → Option ChannelError
  | .releasing (.error (.full capacity)) => some (.full capacity)
  | .tripping source => some source
  | .joining refusal => refusal
  | _ => none

namespace Progress

variable {n : Nat} {first before progress after last : Progress n}
  {move : Move n} {events : List (Event n)} {heed : Bool} {capacity : Nat}
  {source : ChannelError}

/-- A run that finds link `0` full with its seed, after the events `earlier`,
and goes on with the events `later`. -/
inductive TurnsAway (first : Progress n) (earlier later : List (Event n))
    (capacity : Nat) (last : Progress n) : Prop where
  | intro {before after : Progress n} {heed : Bool} :
      first.Recorded earlier before → before.conductor = .seeding →
      before.conduct heed = some after →
      after.conductor = .releasing (.error (.full capacity)) →
      after.Recorded later last → TurnsAway first earlier later capacity last

/-- The conductor gives up in a single action, the one in which it finds no
room, and keeps to it. -/
private theorem refusal?_of_step (stepped : progress.step move = some after)
    (refuses : after.conductor.refusal? = some source) :
    progress.conductor.refusal? = some source ∨
      progress.conductor = .seeding ∧ progress.event? move = none ∧
        ∃ heed capacity, move = .conduct heed ∧ source = .full capacity ∧
          after.conductor = .releasing (.error (.full capacity)) := by
  cases move with
  | execute index heed =>
      obtain ⟨network, _, rfl⟩ := Option.map_eq_some_iff.mp stepped
      exact .inl refuses
  | conduct heed =>
      have change := change_of_step stepped
      generalize progress.event? (.conduct heed) = event at change ⊢
      cases change with
      | turn => exact .inl refuses
      | seed => cases refuses
      | @refuse error standing =>
          right
          refine ⟨standing, rfl, heed, ?_⟩
          cases error with
          | full capacity =>
              cases refuses
              exact ⟨capacity, rfl, rfl, rfl⟩
          | closed | cancelled => cases refuses
      | release => cases refuses
      | giveUp standing | trip standing =>
          left
          rw [standing]
          exact refuses

/-- A conductor that gives up has found no room earlier in the run. -/
theorem Recorded.turnsAway (recorded : first.Recorded events last)
    (ready : first.conductor = .seeding)
    (refuses : last.conductor.refusal? = some source) :
    ∃ earlier later capacity, events = earlier ++ later ∧
      source = .full capacity ∧
      first.TurnsAway earlier later capacity last := by
  induction recorded with
  | start =>
      rw [ready] at refuses
      cases refuses
  | @step events _ _ _ recorded stepped induction =>
      rcases refusal?_of_step stepped refuses with
        before | ⟨standing, silent, heed, capacity, rfl, rfl, full⟩
      · obtain ⟨earlier, later, capacity, rfl, same, turnsAway⟩ :=
          induction before
        cases turnsAway with
        | intro reaches standing refused full onward =>
            rw [List.append_assoc]
            exact ⟨earlier, _, capacity, rfl, same,
              .intro reaches standing refused full (onward.step stepped)⟩
      · refine ⟨events, [], capacity, ?_, rfl, ?_⟩
        · rw [silent]
          rfl
        · exact .intro recorded standing stepped full .start

/-- The seed finds no room only where the link is still read, and full. -/
private theorem full_of_conduct (stepped : before.conduct heed = some after)
    (standing : before.conductor = .seeding)
    (refused : after.conductor = .releasing (.error (.full capacity))) :
    (before.network.link (Network.entry n)).receivers ≠ 0 ∧
      (before.network.link (Network.entry n)).policy = .failFast capacity ∧
      capacity ≤ (before.network.link (Network.entry n)).length := by
  unfold conduct at stepped
  simp only [standing] at stepped
  cases offered :
      (before.network.link (Network.entry n)).offerOrCancel before.seed
        before.network.tripped heed with
  | waits => simp [offered] at stepped
  | done delivery link =>
      simp only [offered, Option.some.injEq] at stepped
      subst stepped
      cases refused
      obtain ⟨attended, full⟩ := Channel.offerOrCancel_full offered
      obtain ⟨_, gone | ⟨_, same, policy⟩ | ⟨cut, _⟩⟩ :=
        Channel.offerOrCancel_error offered
      · exact absurd gone.2 attended
      · cases same
        refine ⟨attended, policy, ?_⟩
        simpa [policy, Policy.hasRoom, Policy.failFast] using full
      · cases cut

section Opening

variable {pipeline : Pipeline} {phases : Vector Word n}

/-- A link with more than one word on it has more there than its phase
setting. -/
theorem Recorded.arrivals_ne_nil {index : Fin n}
    (recorded : (pipeline.opening phases).Recorded events progress)
    (reading : (progress.network.executor index).hasEnded = false)
    (more :
      1 < (progress.network.link (Network.inputLink index)).length) :
    Event.arrivals pipeline.topology index events ≠ [] := by
  intro nothing
  have contents := congrArg List.length (recorded.contents_eq reading)
  simp only [nothing, List.length_append, Channel.contents,
    Queue.length_toList, List.length_singleton] at contents
  rw [Channel.length] at more
  omega

/-- In a run that turns the seed away, words of the last machine are on link
`0` or have been taken from it. -/
theorem TurnsAway.crowded {earlier later : List (Event n)}
    (turnsAway :
      (pipeline.opening phases).TurnsAway earlier later capacity last)
    (accepted : policyProblem? pipeline.policy = none) (index : Fin n)
    (first : index.val = 0) :
    pipeline.policy = .failFast capacity ∧ pipeline.topology = .ring ∧
      ∀ writer : Fin n, writer.val + 1 = n →
        Event.sendings writer earlier ≠ [] := by
  obtain ⟨recorded, standing, refused, full, -⟩ := turnsAway
  obtain ⟨attended, policy, crowded⟩ := full_of_conduct refused standing full
  have entry : Network.entry n = Network.inputLink index :=
    (Fin.ext first).symm
  rw [entry] at attended policy crowded
  have wired := recorded.wired
  rw [wired.policy_eq] at policy
  have reading := wired.reading_of_attended attended
  have seedless : Event.seedings earlier = [] := by
    have delivered := recorded.delivered
    rw [standing] at delivered
    cases delivered with
    | ahead none => exact none
  -- the phase setting alone does not fill the link
  have arrived : Event.arrivals pipeline.topology index earlier ≠ [] := by
    rw [policy] at accepted
    have large := two_le_of_accepted accepted
    exact recorded.arrivals_ne_nil reading (Nat.le_trans large crowded)
  cases topology : pipeline.topology with
  | chain =>
      have unwired : Network.upstream? .chain index = none := by
        simp [Network.upstream?, first]
      rw [topology, Event.arrivals_eq_seedings unwired] at arrived
      exact absurd seedless arrived
  | ring =>
      refine ⟨policy, rfl, ?_⟩
      intro writer isLast
      have upstream : Network.upstream? .ring index = some writer :=
        Network.upstream?_eq_some_iff_val.mpr (.inr ⟨rfl, first, isLast⟩)
      rw [topology, Event.arrivals_eq_sendings upstream fun _ => seedless]
        at arrived
      exact arrived

end Opening

end Progress

/-! ## What acceptance is enough for -/

/-- Settings, but for a memory of no cells, are accepted exactly if a pipeline
accepts their policy.  A pipeline that accepts its phase settings and its policy
puts every phase setting on its link, without an error and without a wait.  From
there, whatever the order of actions, it fails for its seed only if it is a ring
with a policy that fails, because the seed found no room on link `0`; then a
word of the last machine had come onto that link before, and the seed never
does. -/
theorem acceptance_suffices :
    (∀ settings : Settings, settings.machine.memory ≠ some 0 →
      (settings.problem? = none ↔
        policyProblem? settings.pipeline.policy = none)) ∧
    ∀ (pipeline : Pipeline) (phases : List Word),
      phaseProblem? phases = none → policyProblem? pipeline.policy = none →
      ∃ first : Progress phases.length,
        (pipeline.start (settings phases)).run = some (.ok first) ∧
        (∀ index,
          (first.network.link (Network.inputLink index)).contents =
            [(settings phases).get index]) ∧
        ∀ events index source,
          pipeline.Returns phases events (.error (.seed index source)) →
          pipeline.topology = .ring ∧ index = 0 ∧
            ∃ capacity earlier later last,
              pipeline.policy = .failFast capacity ∧
              source = .full capacity ∧
              events = earlier ++ later ∧ Event.seedings events = [] ∧
              first.TurnsAway earlier later capacity last ∧
              verdict last = .error (.seed index source) ∧
              ∀ writer : Fin phases.length, writer.val + 1 = phases.length →
                Event.sendings writer earlier ≠ [] := by
  refine ⟨?_, ?_⟩
  · intro settings inhabited
    rw [Settings.problem?_eq_none_iff,
      PipelineSettings.policy_accepted_iff]
    exact and_iff_left inhabited
  · intro pipeline phases phasesAccepted policyAccepted
    refine ⟨_, start_eq policyAccepted _, ?_, ?_⟩
    · intro index
      rw [inputLink_opening, openingLink, Channel.contents_push]
      rfl
    · intro events index source returns
      obtain ⟨nonempty, distinct⟩ := phaseProblem?_eq_none_iff.mp phasesAccepted
      obtain ⟨last, visits, _, blamed⟩ :=
        returns.complete_of_accepted nonempty distinct policyAccepted
      obtain ⟨rfl, gaveUp⟩ := joining_of_verdict_seed blamed.symm
      have recorded := visits.of_opening
      have refuses : last.conductor.refusal? = some source := by
        rw [gaveUp]
        rfl
      obtain ⟨earlier, later, capacity, split, same, turnsAway⟩ :=
        recorded.turnsAway rfl refuses
      obtain ⟨policy, ring, overtaken⟩ :=
        turnsAway.crowded policyAccepted
          ⟨0, List.length_pos_iff.mpr nonempty⟩ rfl
      have seedless : Event.seedings events = [] := by
        have delivered := recorded.delivered
        rw [gaveUp] at delivered
        cases delivered with
        | abandoned none => exact none
      exact ⟨ring, rfl, capacity, earlier, later, last, policy, same, split,
        seedless, turnsAway, blamed.symm, overtaken⟩

/-- A ring whose only machine puts out a word before it takes any, on a link
with room for one word besides the phase setting. -/
def crowded : Pipeline where
  program := ⟨[104, 5, 99]⟩
  topology := .ring
  policy := .failFast 2
  seed := 7

/-- The least settings with a policy that fails. -/
def leastFailFast : Settings where
  pipeline := { channel := .failFast, capacity := 2 }

/-- The word of the machine takes the room that is there for the seed. -/
theorem acceptance_suffices_crowded :
    leastFailFast.pipeline.policy = crowded.policy ∧
      leastFailFast.problem? = none ∧
      ∃ events, crowded.Returns [3] events (.error (.seed 0 (.full 2))) ∧
        ∃ earlier later, events = earlier ++ later ∧
          Event.sendings Network.sole earlier ≠ [] := by
  let moves : List (Move 1) :=
    List.replicate 2 (.execute Network.sole false) ++
      List.replicate 3 (.conduct false) ++
      List.replicate 3 (.execute Network.sole false)
  have ends : ((crowded.opening (settings [3])).follow moves).any (fun run =>
      run.2.isComplete &&
        verdict run.2 = .error (.seed 0 (.full 2))) = true := by
    decide +kernel
  obtain ⟨⟨events, progress⟩, follows, checks⟩ :=
    (Option.any_eq_true _ _).mp ends
  simp only [Bool.and_eq_true, decide_eq_true_eq] at checks
  obtain ⟨complete, blamed⟩ := checks
  have visits := visits_of_follow (by decide) (by decide) follows
  have returns := Returns.complete visits complete
  rw [blamed] at returns
  obtain ⟨agrees, enough⟩ := acceptance_suffices
  have accepted : leastFailFast.problem? = none :=
    (agrees leastFailFast (by decide)).mpr (by decide)
  obtain ⟨_, _, _, fails⟩ := enough crowded [3] (by decide) (by decide)
  obtain ⟨_, _, _, earlier, later, _, _, _, split, _, _, _, overtaken⟩ :=
    fails events 0 (.full 2) returns
  exact ⟨rfl, accepted, events, returns, earlier, later, split,
    overtaken Network.sole rfl⟩

end Pipeline

end CellMachines
