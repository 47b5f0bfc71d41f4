import CellMachines.Proofs.Channel.History
import CellMachines.Proofs.Channel.Waiting

/-!
# What an action brings

`Carries` says what the completions of a part of an action do to the words of a
channel: those that were buffered and then those that are accepted are those
handed out and then those that are left, which stay buffered as long as there is
a receiver.  It also says what the completions tell of the channel, so that
parts can be put one after the other.  `Brings` adds the replies to those who
wait.
`Acts` lists what an action may come to, and each of these brings what the
history records of it.
-/

namespace CellMachines

/-- What errors and the coming and going of handles do to a channel. -/
structure Channel.Fades (before after : Channel) : Prop where
  policy : after.policy = before.policy
  attended : after.receivers ≠ 0 → before.receivers ≠ 0
  contents : after.receivers ≠ 0 → after.contents = before.contents
  spent : before.senders = 0 → before.contents = [] →
    after.senders = 0 ∧ after.contents = []

namespace Channel

variable {before after : Channel}

theorem Fades.refl (channel : Channel) : channel.Fades channel :=
  ⟨rfl, id, fun _ => rfl, And.intro⟩

theorem fades_of_senders {channel : Channel} {count : Nat}
    (spent : channel.senders = 0 → count = 0) :
    channel.Fades { channel with senders := count } :=
  ⟨rfl, id, fun _ => rfl, fun gone empty => ⟨spent gone, empty⟩⟩

theorem Loses.fades {count : Nat} (loses : before.Loses count after) :
    before.Fades after := by
  constructor
  · exact loses.policy
  · intro attended gone
    rw [loses.receivers, gone, Nat.zero_sub] at attended
    exact attended rfl
  · exact loses.contents
  · intro gone empty
    exact ⟨loses.senders.trans gone, loses.empty empty⟩

theorem fades_dropReceiver (channel : Channel) :
    channel.Fades channel.dropReceiver :=
  (channel.loses_foldl [()]).fades

theorem fades_addReceiver {channel : Channel}
    (attended : channel.receivers ≠ 0) :
    channel.Fades channel.addReceiver :=
  ⟨rfl, fun _ => attended, fun _ => rfl, And.intro⟩

end Channel

namespace Exchange

variable {before after exchange : Exchange} {value : Word}
  {completions later own : List Completion}
  {replies further : List (Nat × Reply)}
  {offers : Nat → Word}

/-- What completions do to the words of a channel, and what they tell of it. -/
structure Carries (before : Channel) (completions : List Completion)
    (after : Channel) : Prop where
  policy : after.policy = before.policy
  attended : after.receivers ≠ 0 → before.receivers ≠ 0
  silent : before.receivers = 0 →
    completions.flatMap Completion.accepted = [] ∧
      completions.flatMap Completion.handedOut = []
  words : ∃ left,
    before.contents ++ completions.flatMap Completion.accepted =
        completions.flatMap Completion.handedOut ++ left ∧
      (after.receivers ≠ 0 → left = after.contents)
  full : ∀ caller value capacity,
    .put caller value (.error (.full capacity)) ∈ completions →
    before.policy = .failFast capacity
  closed : ∀ caller, .take caller (.error .closed) ∈ completions →
    after.senders = 0 ∧ after.contents = []
  spent : before.senders = 0 → before.contents = [] →
    after.senders = 0 ∧ after.contents = []

theorem carries_of_refusals {before after : Channel}
    (fades : before.Fades after)
    (refused : ∀ completion ∈ completions,
      completion.accepted = [] ∧ completion.handedOut = [])
    (full : ∀ caller value capacity,
      .put caller value (.error (.full capacity)) ∈ completions →
      before.policy = .failFast capacity)
    (closed : ∀ caller, .take caller (.error .closed) ∈ completions →
      before.senders = 0 ∧ before.contents = []) :
    Carries before completions after := by
  have accepted : completions.flatMap Completion.accepted = [] :=
    List.flatMap_eq_nil_iff.mpr fun completion member =>
      (refused completion member).1
  have handedOut : completions.flatMap Completion.handedOut = [] :=
    List.flatMap_eq_nil_iff.mpr fun completion member =>
      (refused completion member).2
  constructor
  · exact fades.policy
  · exact fades.attended
  · exact fun _ => ⟨accepted, handedOut⟩
  · refine ⟨before.contents, ?_, fun attended => ?_⟩
    · rw [accepted, handedOut, List.append_nil, List.nil_append]
    · exact (fades.contents attended).symm
  · exact full
  · intro caller member
    obtain ⟨gone, empty⟩ := closed caller member
    exact fades.spent gone empty
  · exact fades.spent

theorem carries_nothing {before after : Channel} (fades : before.Fades after) :
    Carries before [] after :=
  carries_of_refusals fades nofun nofun nofun

theorem Carries.trans {before between after : Channel}
    (first : Carries before completions between)
    (second : Carries between later after) :
    Carries before (completions ++ later) after := by
  constructor
  · exact second.policy.trans first.policy
  · exact fun attended => first.attended (second.attended attended)
  · intro gone
    obtain ⟨accepted, handedOut⟩ := first.silent gone
    have still_gone : between.receivers = 0 := by
      by_contra attended
      exact first.attended attended gone
    obtain ⟨later_accepted, later_handedOut⟩ := second.silent still_gone
    rw [List.flatMap_append, List.flatMap_append, accepted, handedOut,
      later_accepted, later_handedOut]
    exact ⟨rfl, rfl⟩
  · obtain ⟨left, earlier, left_eq⟩ := first.words
    rw [List.flatMap_append, List.flatMap_append, ← List.append_assoc, earlier]
    -- Once the last receiver has gone, what was left does not matter any more,
    -- since nothing is accepted or handed out later.
    by_cases gone : between.receivers = 0
    · obtain ⟨accepted, handedOut⟩ := second.silent gone
      refine ⟨left, ?_, fun still => absurd gone (second.attended still)⟩
      rw [accepted, handedOut, List.append_nil, List.append_nil]
    · obtain ⟨finally_left, further, finally_eq⟩ := second.words
      refine ⟨finally_left, ?_, finally_eq⟩
      rw [left_eq gone, List.append_assoc, further, List.append_assoc]
  · intro caller value capacity member
    rcases List.mem_append.mp member with member | member
    · exact first.full caller value capacity member
    · rw [← first.policy]
      exact second.full caller value capacity member
  · intro caller member
    rcases List.mem_append.mp member with member | member
    · obtain ⟨gone, empty⟩ := first.closed caller member
      exact second.spent gone empty
    · exact second.closed caller member
  · intro gone empty
    obtain ⟨gone, empty⟩ := first.spent gone empty
    exact second.spent gone empty

/-- The words that waiting puts offer, by their tickets. -/
def Offered (offers : Nat → Word) (exchange : Exchange) : Prop :=
  ∀ waiting ∈ exchange.waitingPuts, offers waiting.ticket = waiting.value

/-- The replies to those who wait and the action's own completions. -/
structure Brings (offers : Nat → Word) (before : Exchange)
    (replies : List (Nat × Reply)) (own : List Completion) (after : Exchange) :
    Prop where
  offered : Offered offers after
  replies_eq : after.replies = before.replies ++ replies
  carries : Carries before.channel (replies.map (.ofReply offers) ++ own)
    after.channel

theorem brings_nothing (offered : Offered offers after)
    (replies_eq : after.replies = before.replies)
    (fades : before.channel.Fades after.channel) :
    Brings offers before [] [] after :=
  ⟨offered, replies_eq.trans (List.append_nil _).symm, carries_nothing fades⟩

theorem Brings.trans {between : Exchange}
    (first : Brings offers before replies [] between)
    (second : Brings offers between further own after) :
    Brings offers before (replies ++ further) own after := by
  refine ⟨second.offered, ?_, ?_⟩
  · rw [second.replies_eq, first.replies_eq, List.append_assoc]
  · have both := first.carries.trans second.carries
    rw [List.append_nil, ← List.append_assoc, ← List.map_append] at both
    exact both

/-! ## Puts and takes -/

theorem carries_refused_put {channel : Channel} {error : ChannelError}
    (full : ∀ capacity, error = .full capacity →
      channel.policy = .failFast capacity) (caller : Caller) :
    Carries channel [.put caller value (.error error)] channel := by
  apply carries_of_refusals (.refl channel)
  · intro completion member
    rw [List.mem_singleton.mp member]
    exact ⟨rfl, rfl⟩
  · intro other word capacity member
    cases List.mem_singleton.mp member
    exact full capacity rfl
  · intro other member
    cases List.mem_singleton.mp member

theorem carries_refused_take {channel : Channel} {error : ChannelError}
    (closed : error = .closed → channel.senders = 0 ∧ channel.contents = [])
    (caller : Caller) :
    Carries channel [.take caller (.error error)] channel := by
  apply carries_of_refusals (.refl channel)
  · intro completion member
    rw [List.mem_singleton.mp member]
    exact ⟨rfl, rfl⟩
  · intro other word capacity member
    cases List.mem_singleton.mp member
  · intro other member
    cases List.mem_singleton.mp member
    exact closed rfl

theorem Puts.brings {result : Except ChannelError Unit}
    (puts : exchange.Puts value (some result) replies after)
    (sound : exchange.Sound) (held : exchange.channel.senders ≠ 0)
    (offered : Offered offers exchange) (caller : Caller) :
    Brings offers exchange replies [.put caller value result] after := by
  cases puts with
  | @hands waiting rest takes =>
      have waits : exchange.waitingTakes ≠ [] := by simp [takes]
      have empty := (sound.hungry waits).1
      have left := Channel.contents_dropReceiver_of_nil empty
      have attended : exchange.channel.receivers ≠ 0 := by
        rw [sound.receivers_eq, takes, List.length_cons]
        omega
      refine ⟨offered, rfl, ?_⟩
      constructor
      · exact Channel.policy_dropReceiver _
      · exact fun _ => attended
      · exact fun gone => absurd gone attended
      · refine ⟨_, ?_, fun _ => rfl⟩
        simp [Completion.ofReply, Completion.accepted, Completion.handedOut,
          empty, left]
      · simp [Completion.ofReply]
      · simp [Completion.ofReply]
      · exact fun gone => absurd gone held
  | pushes _ attended =>
      refine ⟨offered, (List.append_nil _).symm, ?_⟩
      constructor
      · rfl
      · exact id
      · exact fun gone => absurd gone attended
      · refine ⟨_, ?_, fun _ => rfl⟩
        simp [Completion.accepted, Completion.handedOut]
      · simp
      · simp
      · exact fun gone => absurd gone held
  | closed =>
      refine ⟨offered, (List.append_nil _).symm,
        carries_refused_put ?_ caller⟩
      intro capacity impossible
      cases impossible
  | full _ _ policy =>
      refine ⟨offered, (List.append_nil _).symm,
        carries_refused_put ?_ caller⟩
      rintro other ⟨⟩
      exact policy
  | cancelled =>
      refine ⟨offered, (List.append_nil _).symm,
        carries_refused_put ?_ caller⟩
      intro capacity impossible
      cases impossible

theorem Takes.brings {result : Except ChannelError Word}
    (takes : exchange.Takes (some result) replies after)
    (sound : exchange.Sound) (held : exchange.channel.receivers ≠ 0)
    (offered : Offered offers exchange) (caller : Caller) :
    Brings offers exchange replies [.take caller result] after := by
  cases takes with
  | @refills word queue waiting rest popped puts =>
      have senders_eq := sound.senders_eq
      rw [puts, List.length_cons] at senders_eq
      have first : waiting ∈ exchange.waitingPuts := by simp [puts]
      have front := Queue.toList_of_pop? popped
      refine ⟨?_, rfl, ?_⟩
      · intro other member
        exact offered other (by simp [puts, show other ∈ rest from member])
      constructor
      · rfl
      · exact id
      · exact fun gone => absurd gone held
      · refine ⟨_, ?_, fun _ => rfl⟩
        simp [Completion.ofReply, Completion.accepted, Completion.handedOut,
          offered waiting first, Channel.contents, Channel.dropSender,
          Channel.push, front]
      · simp [Completion.ofReply]
      · simp [Completion.ofReply]
      · intro gone
        omega
  | pops popped =>
      have front := Queue.toList_of_pop? popped
      refine ⟨offered, (List.append_nil _).symm, ?_⟩
      constructor
      · rfl
      · exact id
      · exact fun gone => absurd gone held
      · refine ⟨_, ?_, fun _ => rfl⟩
        simp [Completion.accepted, Completion.handedOut, Channel.contents,
          front]
      · simp
      · simp
      · intro _ empty
        rw [Channel.contents, front] at empty
        cases empty
  | @meets waiting rest empty puts =>
      have senders_eq := sound.senders_eq
      rw [puts, List.length_cons] at senders_eq
      have first : waiting ∈ exchange.waitingPuts := by simp [puts]
      have left : exchange.channel.dropSender.contents = [] := empty
      refine ⟨?_, rfl, ?_⟩
      · intro other member
        exact offered other (by simp [puts, show other ∈ rest from member])
      constructor
      · rfl
      · exact id
      · exact fun gone => absurd gone held
      · refine ⟨_, ?_, fun _ => rfl⟩
        simp [Completion.ofReply, Completion.accepted, Completion.handedOut,
          offered waiting first, empty, left]
      · simp [Completion.ofReply]
      · simp [Completion.ofReply]
      · intro gone
        omega
  | closed empty gone =>
      exact ⟨offered, (List.append_nil _).symm,
        carries_refused_take (fun _ => ⟨gone, empty⟩) caller⟩
  | cancelled =>
      refine ⟨offered, (List.append_nil _).symm,
        carries_refused_take ?_ caller⟩
      intro impossible
      cases impossible

/-! ## Drains -/

/-- What a drain finds, which is a row of takes. -/
inductive Drains : Exchange → List Word → List (Nat × Reply) → Exchange →
    Prop where
  | stop (exchange : Exchange) : Drains exchange [] [] exchange
  | next {exchange between after : Exchange} {word : Word} {words : List Word}
      {replies further : List (Nat × Reply)} :
      exchange.Takes (some (.ok word)) replies between →
      Drains between words further after →
      Drains exchange (word :: words) (replies ++ further) after

theorem exists_drainInto (exchange : Exchange) (taken : List Word)
    (count : Nat) :
    ∃ words replies,
      (drainInto taken count exchange).1 = taken.reverse ++ words ∧
        exchange.Drains words replies (drainInto taken count exchange).2 := by
  induction count generalizing exchange taken with
  | zero => exact ⟨[], [], (List.append_nil _).symm, .stop exchange⟩
  | succ count induction =>
      obtain ⟨replies, takes⟩ := exchange.exists_takes
      rw [drainInto]
      rcases attempt : exchange.take with ⟨_ | error | word, between⟩ <;>
        rw [attempt] at takes <;> dsimp only at takes ⊢
      · cases takes
        exact ⟨[], [], (List.append_nil _).symm, .stop exchange⟩
      · have same : between = exchange := by cases takes <;> rfl
        rw [same]
        exact ⟨[], [], (List.append_nil _).symm, .stop exchange⟩
      · obtain ⟨words, further, found, drains⟩ :=
          induction between (word :: taken)
        refine ⟨word :: words, replies ++ further, ?_, .next takes drains⟩
        rw [found, List.reverse_cons, List.append_assoc]
        rfl

theorem exists_drains (exchange : Exchange) :
    ∃ replies,
      exchange.Drains exchange.drain.1 replies exchange.drain.2 := by
  obtain ⟨words, replies, found, drains⟩ := exchange.exists_drainInto []
    (exchange.channel.length + exchange.waitingPuts.length)
  rw [List.reverse_nil, List.nil_append] at found
  refine ⟨replies, ?_⟩
  rw [drain, found]
  exact drains

theorem Drains.sound {words : List Word}
    (drains : exchange.Drains words replies after) (sound : exchange.Sound) :
    after.Sound := by
  induction drains with
  | stop => exact sound
  | next takes _ induction => exact induction (takes.sound sound)

/-- A take replies to puts only. -/
theorem Takes.handedOut_replies {result : Option (Except ChannelError Word)}
    (takes : exchange.Takes result replies after) (offers : Nat → Word) :
    (replies.map (.ofReply offers)).flatMap Completion.handedOut = [] := by
  cases takes <;> rfl

theorem Drains.handedOut_replies {words : List Word}
    (drains : exchange.Drains words replies after) (offers : Nat → Word) :
    (replies.map (.ofReply offers)).flatMap Completion.handedOut = [] := by
  induction drains with
  | stop => rfl
  | next takes _ induction =>
      rw [List.map_append, List.flatMap_append, takes.handedOut_replies,
        induction, List.append_nil]

theorem Takes.receivers_eq {result : Option (Except ChannelError Word)}
    (takes : exchange.Takes result replies after) :
    after.channel.receivers = exchange.channel.receivers := by
  cases takes <;> rfl

/-- The same words, told as one drain. -/
theorem Carries.retell {before after : Channel} {told : List Completion}
    (carries : Carries before completions after)
    (accepted : completions.flatMap Completion.accepted =
      told.flatMap Completion.accepted)
    (handedOut : completions.flatMap Completion.handedOut =
      told.flatMap Completion.handedOut)
    (member : ∀ completion ∈ told, completion ∈ completions ∨
      ∃ caller words, completion = .drain caller words) :
    Carries before told after := by
  constructor
  · exact carries.policy
  · exact carries.attended
  · rw [← accepted, ← handedOut]
    exact carries.silent
  · rw [← accepted, ← handedOut]
    exact carries.words
  · intro caller value capacity refused
    obtain known | ⟨_, _, impossible⟩ := member _ refused
    · exact carries.full caller value capacity known
    · cases impossible
  · intro caller refused
    obtain known | ⟨_, _, impossible⟩ := member _ refused
    · exact carries.closed caller known
    · cases impossible
  · exact carries.spent

theorem Drains.brings {words : List Word}
    (drains : exchange.Drains words replies after) (sound : exchange.Sound)
    (held : exchange.channel.receivers ≠ 0) (offered : Offered offers exchange)
    (caller : Caller) :
    Brings offers exchange replies [.drain caller words] after := by
  induction drains with
  | stop exchange =>
      refine ⟨offered, (List.append_nil _).symm, ?_⟩
      apply carries_of_refusals (.refl _)
      · intro completion member
        cases List.mem_singleton.mp member
        exact ⟨rfl, rfl⟩
      · intro other word capacity member
        cases List.mem_singleton.mp member
      · intro other member
        cases List.mem_singleton.mp member
  | @next exchange between after word words replies further takes drains
      induction =>
      have first := takes.brings sound held offered caller
      have rest := induction (takes.sound sound)
        (takes.receivers_eq.trans_ne held) first.offered
      have quiet := drains.handedOut_replies offers
      refine ⟨rest.offered, ?_, ?_⟩
      · rw [rest.replies_eq, first.replies_eq, List.append_assoc]
      -- The replies of the later takes move before the word taken first, which
      -- is sound as they hand nothing out.
      · apply (first.carries.trans rest.carries).retell
        · simp [Completion.accepted]
        · simp [Completion.handedOut, quiet]
        · intro completion member
          simp only [List.map_append, List.mem_append,
            List.mem_singleton] at member ⊢
          rcases member with (told | told) | rfl
          · exact .inl (.inl (.inl told))
          · exact .inl (.inr (.inl told))
          · exact .inr ⟨_, _, rfl⟩

/-! ## Giving up -/

theorem brings_failTakes (consistent : exchange.Consistent)
    (offered : Offered offers exchange) (error : ChannelError)
    (gone : error = .closed → exchange.channel.senders = 0)
    (fails : WaitingTake → Bool) :
    ∃ replies,
      Brings offers exchange replies [] (exchange.failTakes error fails) := by
  refine ⟨_, offered, rfl, ?_⟩
  rw [List.append_nil, List.map_map]
  apply carries_of_refusals (Channel.loses_foldl _ _).fades
  · intro completion member
    obtain ⟨waiting, _, rfl⟩ := List.mem_map.mp member
    exact ⟨rfl, rfl⟩
  · intro caller word capacity member
    obtain ⟨waiting, _, impossible⟩ := List.mem_map.mp member
    cases impossible
  · intro caller member
    obtain ⟨waiting, failing, same⟩ := List.mem_map.mp member
    cases same
    have waits := List.ne_nil_of_mem (List.mem_filter.mp failing).1
    exact ⟨gone rfl, (consistent.hungry waits).1⟩

theorem brings_failPuts (offered : Offered offers exchange)
    (error : ChannelError) (room : ∀ capacity, error ≠ .full capacity)
    (fails : WaitingPut → Bool) :
    ∃ replies,
      Brings offers exchange replies [] (exchange.failPuts error fails) := by
  have fades : exchange.channel.Fades
      (exchange.failPuts error fails).channel := by
    dsimp only [failPuts]
    rw [Channel.foldl_dropSender]
    apply Channel.fades_of_senders
    intro gone
    rw [gone, Nat.zero_sub]
  refine ⟨_, ?_, rfl, ?_⟩
  · intro waiting member
    exact offered waiting (List.mem_filter.mp member).1
  rw [List.append_nil, List.map_map]
  apply carries_of_refusals fades
  · intro completion member
    obtain ⟨waiting, _, rfl⟩ := List.mem_map.mp member
    exact ⟨rfl, rfl⟩
  · intro caller word capacity member
    obtain ⟨waiting, _, same⟩ := List.mem_map.mp member
    cases same
    exact absurd rfl (room capacity)
  · intro caller member
    obtain ⟨waiting, _, impossible⟩ := List.mem_map.mp member
    cases impossible

theorem brings_settle (consistent : exchange.Consistent)
    (offered : Offered offers exchange) :
    ∃ replies, Brings offers exchange replies [] exchange.settle := by
  have takes : ∃ replies,
      Brings offers exchange replies []
        (if exchange.channel.senders = 0 then
          exchange.failTakes .closed fun _ => true
        else exchange) := by
    split
    · rename_i gone
      exact brings_failTakes consistent offered .closed (fun _ => gone) _
    · exact ⟨[], brings_nothing offered rfl (.refl _)⟩
  obtain ⟨replies, first⟩ := takes
  unfold settle
  dsimp only
  generalize (if exchange.channel.senders = 0 then
    exchange.failTakes .closed fun _ => true else exchange) = between at first ⊢
  split
  · obtain ⟨further, second⟩ :=
      brings_failPuts first.offered .closed nofun fun _ => true
    exact ⟨_, first.trans second⟩
  · exact ⟨_, first⟩

theorem brings_cancel (consistent : exchange.Consistent)
    (offered : Offered offers exchange) :
    ∃ replies, Brings offers exchange replies [] exchange.cancel := by
  obtain ⟨replies, first⟩ := brings_failTakes consistent offered .cancelled
    nofun fun waiting => !waiting.patient
  obtain ⟨further, second⟩ := brings_failPuts first.offered .cancelled
    nofun fun waiting => !waiting.patient
  have both := first.trans second
  exact ⟨_, both.offered, both.replies_eq, both.carries⟩

/-! ## Beginning to wait -/

theorem brings_beginPut (sound : exchange.Sound)
    (held : exchange.channel.senders ≠ 0) (offered : Offered offers exchange)
    (announced : offers exchange.begun = value) (patient heed : Bool) :
    ∃ replies,
      Brings offers exchange replies []
        (exchange.beginPut value patient heed) := by
  obtain ⟨replies, puts⟩ := exchange.exists_attemptPut value patient heed
  unfold beginPut
  rcases attempt : exchange.attemptPut value patient heed with
    ⟨_ | result, after⟩ <;> rw [attempt] at puts
  · cases puts
    refine ⟨[], brings_nothing ?_ rfl ?_⟩
    · intro waiting member
      rcases List.mem_append.mp member with earlier | last
      · exact offered waiting earlier
      · rw [List.mem_singleton.mp last]
        exact announced
    · exact Channel.fades_of_senders fun gone => absurd gone held
  · have brings := puts.brings sound held offered (.begun exchange.begun)
    refine ⟨replies ++ [(exchange.begun, .put result)], brings.offered, ?_, ?_⟩
    · show after.replies ++ _ = _
      rw [brings.replies_eq, List.append_assoc]
    · have told := brings.carries
      rw [← announced] at told
      rw [List.append_nil, List.map_append]
      exact told

theorem brings_beginTake (sound : exchange.Sound)
    (held : exchange.channel.receivers ≠ 0) (offered : Offered offers exchange)
    (patient heed : Bool) :
    ∃ replies,
      Brings offers exchange replies [] (exchange.beginTake patient heed) := by
  obtain ⟨replies, takes⟩ := exchange.exists_attemptTake patient heed
  unfold beginTake
  rcases attempt : exchange.attemptTake patient heed with
    ⟨_ | result, after⟩ <;> rw [attempt] at takes
  · cases takes
    exact ⟨[], brings_nothing offered rfl (Channel.fades_addReceiver held)⟩
  · have brings := takes.brings sound held offered (.begun exchange.begun)
    refine ⟨replies ++ [(exchange.begun, .take result)], brings.offered, ?_, ?_⟩
    · show after.replies ++ _ = _
      rw [brings.replies_eq, List.append_assoc]
    · rw [List.append_nil, List.map_append]
      exact brings.carries

/-! ## Actions -/

theorem Consistent.senders_ne_zero (consistent : exchange.Consistent)
    (held : exchange.senders ≠ 0) : exchange.channel.senders ≠ 0 := by
  rw [consistent.senders_eq]
  omega

theorem Consistent.receivers_ne_zero (consistent : exchange.Consistent)
    (held : exchange.receivers ≠ 0) : exchange.channel.receivers ≠ 0 := by
  rw [consistent.receivers_eq]
  omega

/-- What an action may come to: nothing, or what it is there for. -/
inductive Acts (exchange : Exchange) (position : Nat) :
    Action → List Completion → Exchange → Prop where
  | idles {action : Action} : Acts exchange position action [] exchange
  | puts {value : Word} {manner : Manner} {result : Except ChannelError Unit}
      {replies : List (Nat × Reply)} {after : Exchange} :
      exchange.senders ≠ 0 →
      exchange.Puts value (some result) replies after →
      Acts exchange position (.put value manner)
        [.put (.now position) value result] after
  | beginsPut {value : Word} {manner : Manner} :
      exchange.senders ≠ 0 → manner.background = true →
      Acts exchange position (.put value manner) []
        (exchange.beginPut value manner.patient manner.heed)
  | takes {manner : Manner} {result : Except ChannelError Word}
      {replies : List (Nat × Reply)} {after : Exchange} :
      exchange.receivers ≠ 0 → exchange.Takes (some result) replies after →
      Acts exchange position (.take manner) [.take (.now position) result] after
  | beginsTake {manner : Manner} :
      exchange.receivers ≠ 0 →
      Acts exchange position (.take manner) []
        (exchange.beginTake manner.patient manner.heed)
  | drains {words : List Word} {replies : List (Nat × Reply)}
      {after : Exchange} :
      exchange.receivers ≠ 0 → exchange.Drains words replies after →
      Acts exchange position .drain [.drain (.now position) words] after
  | joins {joined : Nat} :
      Acts exchange position .join [] { exchange with joined }
  | cancels : Acts exchange position .cancel [] exchange.cancel
  | clonesSender :
      exchange.senders ≠ 0 →
      Acts exchange position .cloneSender [] exchange.cloneSender
  | dropsSender :
      exchange.senders ≠ 0 →
      Acts exchange position .dropSender [] exchange.dropSender
  | clonesReceiver :
      exchange.receivers ≠ 0 →
      Acts exchange position .cloneReceiver [] exchange.cloneReceiver
  | dropsReceiver :
      exchange.receivers ≠ 0 →
      Acts exchange position .dropReceiver [] exchange.dropReceiver
  | reorders {puts : List WaitingPut} {takes : List WaitingTake} :
      puts.Perm exchange.waitingPuts → takes.Perm exchange.waitingTakes →
      Acts exchange position (.reorder puts takes) []
        { exchange with waitingPuts := puts, waitingTakes := takes }

theorem acts_put (exchange : Exchange) (position : Nat) (value : Word)
    (manner : Manner) :
    exchange.Acts position (.put value manner)
      (exchange.act position (.put value manner)).1
      (exchange.act position (.put value manner)).2 := by
  obtain ⟨replies, puts⟩ :=
    exchange.exists_attemptPut value manner.patient manner.heed
  simp only [act]
  split
  · exact .idles
  · split
    · exact .beginsPut ‹_› ‹_›
    · split <;> rename_i attempt <;> rw [attempt] at puts
      · exact .puts ‹_› puts
      · cases puts
        exact .idles

theorem acts_take (exchange : Exchange) (position : Nat) (manner : Manner) :
    exchange.Acts position (.take manner)
      (exchange.act position (.take manner)).1
      (exchange.act position (.take manner)).2 := by
  obtain ⟨replies, takes⟩ :=
    exchange.exists_attemptTake manner.patient manner.heed
  simp only [act]
  split
  · exact .idles
  · split
    · exact .beginsTake ‹_›
    · split <;> rename_i attempt <;> rw [attempt] at takes
      · exact .takes ‹_› takes
      · cases takes
        exact .idles

theorem acts (exchange : Exchange) (position : Nat) (action : Action) :
    exchange.Acts position action (exchange.act position action).1
      (exchange.act position action).2 := by
  cases action with
  | put value manner => exact exchange.acts_put position value manner
  | take manner => exact exchange.acts_take position manner
  | drain =>
      obtain ⟨replies, drains⟩ := exchange.exists_drains
      simp only [act]
      split
      · exact .idles
      · exact .drains ‹_› drains
  | join =>
      simp only [act, join]
      split
      · exact .joins
      · exact .idles
  | cancel => exact .cancels
  | cloneSender =>
      simp only [act]
      split
      · exact .idles
      · exact .clonesSender ‹_›
  | dropSender =>
      simp only [act]
      split
      · exact .idles
      · exact .dropsSender ‹_›
  | cloneReceiver =>
      simp only [act]
      split
      · exact .idles
      · exact .clonesReceiver ‹_›
  | dropReceiver =>
      simp only [act]
      split
      · exact .idles
      · exact .dropsReceiver ‹_›
  | reorder puts takes =>
      simp only [act]
      split
      · rename_i perms
        exact .reorders perms.1 perms.2
      · exact .idles

theorem Sound.reorder {puts : List WaitingPut} {takes : List WaitingTake}
    (sound : exchange.Sound) (puts_perm : puts.Perm exchange.waitingPuts)
    (takes_perm : takes.Perm exchange.waitingTakes) :
    Sound { exchange with waitingPuts := puts, waitingTakes := takes } := by
  have puts_nil : exchange.waitingPuts = [] → puts = [] := by
    intro none
    rw [none] at puts_perm
    exact puts_perm.eq_nil
  have takes_nil : exchange.waitingTakes = [] → takes = [] := by
    intro none
    rw [none] at takes_perm
    exact takes_perm.eq_nil
  constructor
  · constructor
    · exact sound.senders_eq.trans (by rw [puts_perm.length_eq])
    · exact sound.receivers_eq.trans (by rw [takes_perm.length_eq])
    · intro waits
      obtain ⟨empty, unstuffed⟩ := sound.hungry (mt takes_nil waits)
      exact ⟨empty, puts_nil unstuffed⟩
    · exact fun waits => sound.stuffed (mt puts_nil waits)
    · exact sound.fits
    · apply List.Perm.trans ?_ sound.tickets
      exact (puts_perm.map _).append ((takes_perm.map _).append_right _)
  · exact fun waits => sound.supplied (mt takes_nil waits)
  · exact fun waits => sound.attended (mt puts_nil waits)

section Acts

variable {position : Nat} {action : Action}

theorem Acts.sound (acts : exchange.Acts position action own after)
    (sound : exchange.Sound) : after.Sound := by
  cases acts with
  | idles => exact sound
  | puts _ puts => exact puts.sound sound
  | beginsPut => exact sound.beginPut _ _ _
  | takes _ takes => exact takes.sound sound
  | beginsTake => exact sound.beginTake _ _
  | drains _ drains => exact drains.sound sound
  | joins =>
      exact ⟨⟨sound.senders_eq, sound.receivers_eq, sound.hungry,
        sound.stuffed, sound.fits, sound.tickets⟩, sound.supplied,
        sound.attended⟩
  | cancels => exact sound.cancel
  | clonesSender => exact sound.cloneSender
  | dropsSender held => exact sound.dropSender held
  | clonesReceiver => exact sound.cloneReceiver
  | dropsReceiver held => exact sound.dropReceiver held
  | reorders puts takes => exact sound.reorder puts takes

/-- An action completes at most once, as the one at its position. -/
theorem Acts.callers (acts : exchange.Acts position action own after) :
    (own.map Completion.caller).Sublist [.now position] := by
  cases acts with
  | puts | takes | drains => exact .refl _
  | _ => exact List.nil_sublist _

theorem Acts.exists_brings (acts : exchange.Acts position action own after)
    (sound : exchange.Sound) (offered : Offered offers exchange)
    (announced : ∀ value manner, action = .put value manner →
      manner.background = true → offers exchange.begun = value) :
    ∃ replies, Brings offers exchange replies own after := by
  cases acts with
  | idles => exact ⟨_, brings_nothing offered rfl (.refl _)⟩
  | puts held puts =>
      have held := sound.senders_ne_zero held
      exact ⟨_, puts.brings sound held offered _⟩
  | @beginsPut value manner held background =>
      have held := sound.senders_ne_zero held
      exact brings_beginPut sound held offered
        (announced value manner rfl background) _ _
  | takes held takes =>
      have held := sound.receivers_ne_zero held
      exact ⟨_, takes.brings sound held offered _⟩
  | beginsTake held =>
      have held := sound.receivers_ne_zero held
      exact brings_beginTake sound held offered _ _
  | drains held drains =>
      have held := sound.receivers_ne_zero held
      exact ⟨_, drains.brings sound held offered _⟩
  | joins => exact ⟨_, brings_nothing offered rfl (.refl _)⟩
  | cancels => exact brings_cancel sound.toConsistent offered
  | clonesSender held =>
      have held := sound.senders_ne_zero held
      refine ⟨[], brings_nothing offered rfl ?_⟩
      exact Channel.fades_of_senders fun gone => absurd gone held
  | dropsSender held =>
      obtain ⟨replies, settled⟩ :=
        brings_settle (sound.toConsistent.withoutSender held) offered
      have lost : exchange.channel.Fades exchange.channel.dropSender := by
        apply Channel.fades_of_senders
        intro gone
        rw [gone]
      have first : Brings offers exchange [] []
          { exchange with
            channel := exchange.channel.dropSender
            senders := exchange.senders - 1 } :=
        brings_nothing offered rfl lost
      exact ⟨_, first.trans settled⟩
  | clonesReceiver held =>
      have held := sound.receivers_ne_zero held
      exact ⟨[], brings_nothing offered rfl (Channel.fades_addReceiver held)⟩
  | dropsReceiver held =>
      obtain ⟨replies, settled⟩ :=
        brings_settle (sound.toConsistent.withoutReceiver held) offered
      have first : Brings offers exchange [] []
          { exchange with
            channel := exchange.channel.dropReceiver
            receivers := exchange.receivers - 1 } :=
        brings_nothing offered rfl (Channel.fades_dropReceiver _)
      exact ⟨_, first.trans settled⟩
  | reorders puts takes =>
      refine ⟨[], brings_nothing ?_ rfl (.refl _)⟩
      intro waiting member
      exact offered waiting (puts.mem_iff.mp member)

end Acts

end Exchange

end CellMachines
