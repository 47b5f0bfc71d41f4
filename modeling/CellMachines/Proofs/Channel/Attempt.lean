import CellMachines.Channel

/-!
# What attempts at a channel tell

Each outcome of a put or a take by someone who listens to a cancel token, read
back to what it tells of the channel and of the token.  An attempt that fails
leaves the channel as it was, and an attempt has to wait only where nothing but
room or a word is missing.
-/

namespace CellMachines

namespace Channel

variable {channel after : Channel} {tripped heed : Bool} {word : Word}
  {error : ChannelError}

@[simp] theorem contents_push (channel : Channel) (word : Word) :
    (channel.push word).contents = channel.contents ++ [word] :=
  Queue.toList_push _ _

@[simp] theorem length_contents (channel : Channel) :
    channel.contents.length = channel.length :=
  Queue.length_toList _

theorem policy_dropReceiver (channel : Channel) :
    channel.dropReceiver.policy = channel.policy := by
  unfold dropReceiver
  split <;> rfl

theorem senders_dropReceiver (channel : Channel) :
    channel.dropReceiver.senders = channel.senders := by
  unfold dropReceiver
  split <;> rfl

theorem receivers_dropReceiver (channel : Channel) :
    channel.dropReceiver.receivers = channel.receivers - 1 := by
  unfold dropReceiver
  split
  · rename_i last
    simp only [Bool.and_eq_true, decide_eq_true_eq] at last
    exact (Nat.sub_eq_zero_of_le last.1).symm
  · rfl

theorem contents_dropReceiver_of_nil (empty : channel.contents = []) :
    channel.dropReceiver.contents = [] := by
  unfold dropReceiver
  split
  · rfl
  · exact empty

/-- Only the last receiver takes words with it. -/
theorem contents_dropReceiver (attended : channel.dropReceiver.receivers ≠ 0) :
    channel.dropReceiver.contents = channel.contents := by
  unfold dropReceiver at attended ⊢
  split
  · rename_i last
    rw [if_pos last] at attended
    exact absurd rfl attended
  · rfl

/-- A bounded channel keeps what it buffers in any case. -/
theorem length_dropReceiver (bounded : channel.policy ≠ .unbounded) :
    channel.dropReceiver.length = channel.length := by
  unfold dropReceiver
  split
  · rename_i last
    simp only [Bool.and_eq_true, decide_eq_true_eq] at last
    exact absurd last.2 bounded
  · rfl

/-! ## The token -/

section Token

variable {α : Type} {attempt : Attempt α}

theorem orCancelled_ok {value : α}
    (decided :
      channel.orCancelled tripped heed attempt = .done (.ok value) after) :
    attempt = .done (.ok value) after := by
  cases attempt with
  | waits =>
      simp only [orCancelled] at decided
      split at decided <;> cases decided
  | done result other =>
      simp only [orCancelled] at decided
      split at decided
      · cases decided
      · exact decided

theorem orCancelled_error
    (decided :
      channel.orCancelled tripped heed attempt = .done (.error error) after) :
    attempt = .done (.error error) after ∨
      error = .cancelled ∧ tripped = true ∧ after = channel := by
  cases attempt with
  | waits =>
      simp only [orCancelled] at decided
      split at decided
      · cases decided
        exact .inr ⟨rfl, ‹_›, rfl⟩
      · cases decided
  | done result other =>
      simp only [orCancelled] at decided
      split at decided
      · rename_i cancelled
        cases decided
        exact .inr ⟨rfl, (Bool.and_eq_true_iff.mp cancelled).1, rfl⟩
      · exact .inl decided

theorem orCancelled_waits
    (undecided : channel.orCancelled tripped heed attempt = .waits) :
    attempt = .waits ∧ tripped = false := by
  cases attempt with
  | waits =>
      simp only [orCancelled] at undecided
      split at undecided
      · cases undecided
      · simp_all
  | done result other =>
      simp only [orCancelled] at undecided
      split at undecided <;> cases undecided

end Token

/-! ## Takes -/

theorem poll_ok (polled : channel.poll = .done (.ok word) after) :
    ∃ rest, channel.buffer.pop? = some (word, rest) ∧
      after = { channel with buffer := rest } := by
  unfold poll at polled
  split at polled
  · cases polled
    exact ⟨_, ‹_›, rfl⟩
  · split at polled <;> cases polled

theorem poll_error (polled : channel.poll = .done (.error error) after) :
    after = channel ∧ error = .closed ∧ channel.contents = [] ∧
      channel.senders = 0 := by
  unfold poll at polled
  split at polled
  · cases polled
  · split at polled
    · cases polled
      exact ⟨rfl, rfl, Queue.pop?_eq_none_iff.mp ‹_›, ‹_›⟩
    · cases polled

theorem poll_waits (polled : channel.poll = .waits) :
    channel.contents = [] ∧ channel.senders ≠ 0 := by
  unfold poll at polled
  split at polled
  · cases polled
  · split at polled
    · cases polled
    · exact ⟨Queue.pop?_eq_none_iff.mp ‹_›, ‹_›⟩

theorem pollOrCancel_ok
    (polled : channel.pollOrCancel tripped heed = .done (.ok word) after) :
    ∃ rest, channel.buffer.pop? = some (word, rest) ∧
      after = { channel with buffer := rest } :=
  poll_ok (orCancelled_ok polled)

theorem pollOrCancel_error
    (polled : channel.pollOrCancel tripped heed = .done (.error error) after) :
    after = channel ∧ error.failure = .interrupted ∧
      (tripped = true ∨ channel.contents = [] ∧ channel.senders = 0) := by
  rcases orCancelled_error polled with closed | ⟨rfl, cancelled, same⟩
  · obtain ⟨same, rfl, drained⟩ := poll_error closed
    exact ⟨same, rfl, .inr drained⟩
  · exact ⟨same, rfl, .inl cancelled⟩

theorem pollOrCancel_waits
    (polled : channel.pollOrCancel tripped heed = .waits) :
    tripped = false ∧ channel.contents = [] ∧ channel.senders ≠ 0 := by
  obtain ⟨waits, quiet⟩ := orCancelled_waits polled
  exact ⟨quiet, poll_waits waits⟩

/-! ## Puts -/

theorem offer_ok (offered : channel.offer word = .done (.ok ()) after) :
    channel.receivers ≠ 0 ∧ channel.policy.hasRoom channel.length = true ∧
      after = channel.push word := by
  unfold offer at offered
  split at offered
  · cases offered
  · split at offered
    · cases offered
      exact ⟨‹_›, ‹_›, rfl⟩
    · split at offered <;> cases offered

theorem offer_error
    (offered : channel.offer word = .done (.error error) after) :
    after = channel ∧ (error = .closed ∧ channel.receivers = 0 ∨
      ∃ capacity,
        error = .full capacity ∧ channel.policy = .failFast capacity) := by
  unfold offer at offered
  split at offered
  · cases offered
    exact ⟨rfl, .inl ⟨rfl, ‹_›⟩⟩
  · split at offered
    · cases offered
    · split at offered
      · cases offered
        exact ⟨rfl, .inr ⟨_, rfl, ‹_›⟩⟩
      · cases offered

/-- Only a put that could be cancelled waits. -/
theorem offer_waits (offered : channel.offer word = .waits) :
    channel.receivers ≠ 0 ∧ channel.policy.hasRoom channel.length = false ∧
      channel.policy.isCancellable = true := by
  unfold offer at offered
  split at offered
  · cases offered
  · split at offered
    · cases offered
    · rename_i full
      refine ⟨‹_›, by simpa using full, ?_⟩
      revert offered full
      cases channel.policy with
      | unbounded => simp [Policy.hasRoom]
      | bounded capacity onFull => cases onFull <;> simp [Policy.isCancellable]

theorem offerOrCancel_ok
    (offered : channel.offerOrCancel word tripped heed = .done (.ok ()) after) :
    channel.receivers ≠ 0 ∧ channel.policy.hasRoom channel.length = true ∧
      after = channel.push word := by
  unfold offerOrCancel at offered
  split at offered
  · exact offer_ok (orCancelled_ok offered)
  · exact offer_ok offered

theorem offerOrCancel_error
    (offered :
      channel.offerOrCancel word tripped heed = .done (.error error) after) :
    after = channel ∧ (error = .closed ∧ channel.receivers = 0 ∨
      (∃ capacity,
        error = .full capacity ∧ channel.policy = .failFast capacity) ∨
      error = .cancelled ∧ tripped = true) := by
  have decided : channel.offer word = .done (.error error) after ∨
      error = .cancelled ∧ tripped = true ∧ after = channel := by
    unfold offerOrCancel at offered
    split at offered
    · exact orCancelled_error offered
    · exact .inl offered
  rcases decided with decided | ⟨cancelled, quiet, same⟩
  · obtain ⟨same, closed | full⟩ := offer_error decided
    · exact ⟨same, .inl closed⟩
    · exact ⟨same, .inr (.inl full)⟩
  · exact ⟨same, .inr (.inr ⟨cancelled, quiet⟩)⟩

theorem offerOrCancel_waits
    (offered : channel.offerOrCancel word tripped heed = .waits) :
    tripped = false ∧ channel.receivers ≠ 0 ∧
      channel.policy.hasRoom channel.length = false ∧
      channel.policy.isCancellable = true := by
  unfold offerOrCancel at offered
  split at offered
  · obtain ⟨waits, quiet⟩ := orCancelled_waits offered
    obtain ⟨held, full, cancellable⟩ := offer_waits waits
    exact ⟨quiet, held, full, cancellable⟩
  · obtain ⟨_, _, cancellable⟩ := offer_waits offered
    contradiction

/-! ## Capacities -/

/-- A put is refused for lack of room only where there is none. -/
theorem offer_full {capacity : Nat}
    (offered : channel.offer word = .done (.error (.full capacity)) after) :
    channel.receivers ≠ 0 ∧
      channel.policy.hasRoom channel.length = false := by
  unfold offer at offered
  split at offered
  · cases offered
  · split at offered
    · cases offered
    · rename_i attended full
      exact ⟨attended, by simpa using full⟩

theorem offerOrCancel_full {capacity : Nat}
    (offered : channel.offerOrCancel word tripped heed =
      .done (.error (.full capacity)) after) :
    channel.receivers ≠ 0 ∧
      channel.policy.hasRoom channel.length = false := by
  unfold offerOrCancel at offered
  split at offered
  · obtain refused | ⟨impossible, _⟩ := orCancelled_error offered
    · exact offer_full refused
    · cases impossible
  · exact offer_full offered

/-- A channel does not buffer more words than its capacity. -/
def Fits (channel : Channel) : Prop :=
  ∀ capacity onFull, channel.policy = .bounded capacity onFull →
    channel.length ≤ capacity

theorem fits_push (room : channel.policy.hasRoom channel.length = true)
    (word : Word) : (channel.push word).Fits := by
  intro capacity onFull policy
  have bounded : channel.policy = .bounded capacity onFull := policy
  rw [bounded, Policy.hasRoom, decide_eq_true_eq] at room
  exact room

theorem Fits.pop {rest : Queue Word} (fits : channel.Fits)
    (popped : channel.buffer.pop? = some (word, rest)) :
    Fits { channel with buffer := rest } := by
  intro capacity onFull policy
  have before := fits capacity onFull policy
  have front := congrArg List.length (Queue.toList_of_pop? popped)
  rw [List.length_cons, Queue.length_toList, Queue.length_toList] at front
  have bounded : channel.buffer.length ≤ capacity := before
  change rest.length ≤ capacity
  omega

theorem Fits.dropReceiver (fits : channel.Fits) :
    channel.dropReceiver.Fits := by
  intro capacity onFull policy
  rw [policy_dropReceiver] at policy
  have before := fits capacity onFull policy
  unfold Channel.dropReceiver
  split
  · exact Nat.zero_le capacity
  · exact before

end Channel

end CellMachines
