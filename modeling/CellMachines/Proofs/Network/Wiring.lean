import CellMachines.Proofs.Network.Turn

/-!
# Wiring of a network

Which machine writes the link that another one reads, and what the dealings of a
machine do to the ends of the links.  Of all dealings only the two that let go
of an end change how many senders or receivers a link has, and only a word that
comes or goes changes what is on it.
-/

namespace CellMachines

namespace Network

variable {n : Nat}

theorem last_lt (index : Fin n) : n - 1 < n :=
  Nat.sub_lt index.pos Nat.one_pos

theorem pred_lt (index : Fin n) : index.val - 1 < n :=
  Nat.lt_of_le_of_lt (Nat.sub_le _ _) index.isLt

/-- The machine that writes the link which a machine reads. -/
def upstream? (topology : Topology) (index : Fin n) : Option (Fin n) :=
  if index.val = 0 then
    match topology with
    | .chain => none
    | .ring => some ⟨n - 1, last_lt index⟩
  else some ⟨index.val - 1, pred_lt index⟩

theorem upstream?_eq_some_iff {topology : Topology} {index writer : Fin n} :
    upstream? topology index = some writer ↔
      outputLink topology writer = inputLink index := by
  have indexBound := index.isLt
  have writerBound := writer.isLt
  unfold upstream? outputLink inputLink entry
  cases topology with
  | chain =>
      by_cases first : index.val = 0
      · simp [first, Fin.ext_iff]
      · simp only [first, if_false, Option.some.injEq, Fin.ext_iff,
          Fin.val_succ, Fin.val_castSucc]
        omega
  | ring =>
      by_cases first : index.val = 0 <;> by_cases last : writer.val + 1 = n <;>
        simp only [first, last, if_true, if_false, Option.some.injEq,
          Fin.ext_iff, Fin.val_succ, Fin.val_castSucc, iff_true] <;> omega

theorem upstream?_eq_some_iff_val {topology : Topology} {index writer : Fin n} :
    upstream? topology index = some writer ↔
      index.val = writer.val + 1 ∨
        topology = .ring ∧ index.val = 0 ∧ writer.val + 1 = n := by
  have indexBound := index.isLt
  have writerBound := writer.isLt
  unfold upstream?
  by_cases first : index.val = 0
  · cases topology with
    | chain => simp [first]
    | ring =>
        simp only [first, if_true, Option.some.injEq, Fin.ext_iff, true_and]
        omega
  · simp only [first, if_false, Option.some.injEq, Fin.ext_iff, false_and,
      and_false, or_false]
    omega

theorem val_eq_zero_of_upstream?_eq_none {topology : Topology} {index : Fin n}
    (unwired : upstream? topology index = none) : index.val = 0 := by
  unfold upstream? at unwired
  split at unwired
  · assumption
  · cases unwired

theorem outputLink_eq_entry {topology : Topology} {index writer : Fin n}
    (wired : upstream? topology index = some writer) (first : index.val = 0) :
    outputLink topology writer = entry n := by
  rw [upstream?_eq_some_iff.mp wired]
  exact Fin.ext first

/-- In a chain the last machine alone writes a link that no machine reads. -/
theorem outputLink_cases (topology : Topology) (writer : Fin n) :
    (∃ index, upstream? topology index = some writer) ∨
      topology = .chain ∧ outputLink topology writer = Fin.last n := by
  have bound := writer.isLt
  by_cases last : writer.val + 1 = n
  · cases topology with
    | chain => exact .inr ⟨rfl, Fin.ext (by simpa [outputLink] using last)⟩
    | ring =>
        left
        refine ⟨⟨0, by omega⟩, ?_⟩
        simp only [upstream?, if_true, Option.some.injEq, Fin.ext_iff]
        omega
  · left
    refine ⟨⟨writer.val + 1, by omega⟩, ?_⟩
    simp [upstream?]

theorem inputLink_injective : Function.Injective (inputLink (n := n)) :=
  fun _ _ same => Fin.castSucc_inj.mp same

theorem inputLink_ne_last (index : Fin n) : inputLink index ≠ Fin.last n :=
  Fin.ne_of_lt (Fin.castSucc_lt_last index)

variable {network between : Network n} {index : Fin n} {dealing : Dealing}

theorem fits_updateLink {link : Fin (n + 1)} {change : Channel → Channel}
    (fits : ∀ other, (network.link other).Fits)
    (changed : (change (network.link link)).Fits) (other : Fin (n + 1)) :
    ((network.updateLink link change).link other).Fits := by
  rw [link_updateLink]
  split
  · rename_i same
    rw [same]
    exact changed
  · exact fits other

namespace Deals

theorem executor_eq (deals : network.Deals index dealing between)
    (other : Fin n) :
    between.executor other = network.executor other := by
  cases deals <;> rfl

theorem topology_eq (deals : network.Deals index dealing between) :
    between.topology = network.topology := by
  cases deals <;> rfl

theorem tripped_eq (deals : network.Deals index dealing between)
    (silent : dealing ≠ .trips) :
    between.tripped = network.tripped := by
  cases deals <;> first | rfl | exact absurd rfl silent

theorem policy_eq (deals : network.Deals index dealing between)
    (link : Fin (n + 1)) :
    (between.link link).policy = (network.link link).policy := by
  cases deals with
  | receives | sends | closesOutput =>
      exact updateLink_keeps Channel.policy rfl link
  | closesInput =>
      exact updateLink_keeps Channel.policy (Channel.policy_dropReceiver _) link
  | _ => rfl

theorem senders_eq (deals : network.Deals index dealing between)
    (keeps : dealing ≠ .closesOutput) (link : Fin (n + 1)) :
    (between.link link).senders = (network.link link).senders := by
  cases deals with
  | receives | sends => exact updateLink_keeps Channel.senders rfl link
  | closesOutput => exact absurd rfl keeps
  | closesInput =>
      exact updateLink_keeps Channel.senders (Channel.senders_dropReceiver _)
        link
  | _ => rfl

theorem receivers_eq (deals : network.Deals index dealing between)
    (keeps : dealing ≠ .closesInput) (link : Fin (n + 1)) :
    (between.link link).receivers = (network.link link).receivers := by
  cases deals with
  | receives | sends | closesOutput =>
      exact updateLink_keeps Channel.receivers rfl link
  | closesInput => exact absurd rfl keeps
  | _ => rfl

theorem receivers_eq_zero (deals : network.Deals index dealing between)
    {link : Fin (n + 1)} (gone : (network.link link).receivers = 0) :
    (between.link link).receivers = 0 := by
  by_cases closes : dealing = .closesInput
  · subst closes
    cases deals
    rw [link_updateLink]
    split
    · rw [Channel.receivers_dropReceiver, gone]
    · exact gone
  · rw [deals.receivers_eq closes, gone]

theorem receivers_last (deals : network.Deals index dealing between) :
    (between.link (Fin.last n)).receivers =
      (network.link (Fin.last n)).receivers := by
  by_cases closes : dealing = .closesInput
  · subst closes
    cases deals
    simp [(inputLink_ne_last index).symm]
  · exact deals.receivers_eq closes _

theorem fits (deals : network.Deals index dealing between)
    (fits : ∀ link, (network.link link).Fits) (link : Fin (n + 1)) :
    (between.link link).Fits := by
  cases deals with
  | receives popped => exact fits_updateLink fits ((fits _).pop popped) link
  | @sends word _ room =>
      exact fits_updateLink fits (Channel.fits_push room word) link
  | closesOutput =>
      have kept : (network.link
          (outputLink network.topology index)).dropSender.Fits := fits _
      exact fits_updateLink fits kept link
  | closesInput => exact fits_updateLink fits (fits _).dropReceiver link
  | _ => exact fits link

variable {next : Executor} {tripped : Bool}

/-- Where only its machine lets go of a link, nobody reads it once that has
ended. -/
theorem hasEnded_of_unread (deals : network.Deals index dealing between)
    (turn : (network.executor index).Turn tripped dealing next)
    (reading : (network.link (inputLink index)).receivers = 0 →
      (network.executor index).hasEnded = true)
    (gone : (between.link (inputLink index)).receivers = 0) :
    next.hasEnded = true := by
  by_cases closes : dealing = .closesInput
  · subst closes
    cases turn
    rfl
  · rw [deals.receivers_eq closes] at gone
    rw [turn.hasEnded_eq closes]
    exact reading gone

/-- An executor trips the token only on its way out. -/
theorem outcome?_ne_none (deals : network.Deals index dealing between)
    (turn : (network.executor index).Turn tripped dealing next)
    (alarm : network.tripped = true →
      (network.executor index).outcome? ≠ none)
    (after : between.tripped = true) : next.outcome? ≠ none := by
  by_cases trips : dealing = .trips
  · subst trips
    cases turn
    simp [Executor.outcome?]
  · rw [deals.tripped_eq trips] at after
    intro atWork
    exact alarm after (turn.outcome?_eq_none atWork)

end Deals

end Network

end CellMachines
