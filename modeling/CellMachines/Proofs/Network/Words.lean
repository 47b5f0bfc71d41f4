import CellMachines.Proofs.Network.Wiring
import Mathlib.Data.List.Basic

/-!
# The words of a journal

A journal tells in which order words came and went.  The words that arrive on
the link of a machine are those that its upstream machine sent, and for the
machine at the entry the seed as well.  Where the seed comes first of all words
on link `0`, the two do not mix (`arrivals_eq`).
-/

namespace CellMachines

namespace Event

variable {n : Nat}

def taken? (index : Fin n) : Event n → Option Word
  | .took other word => if other = index then some word else none
  | _ => none

def sent? (index : Fin n) : Event n → Option Word
  | .sent other word => if other = index then some word else none
  | _ => none

def seeded? : Event n → Option Word
  | .seeded word => some word
  | _ => none

/-- The word that comes onto the link of a machine in an event. -/
def arriving? (topology : Topology) (index : Fin n) : Event n → Option Word
  | .seeded word => if index.val = 0 then some word else none
  | .sent writer word =>
      if Network.upstream? topology index = some writer then some word else none
  | .took _ _ => none

def takings (index : Fin n) (events : List (Event n)) : List Word :=
  events.filterMap (taken? index)

/-- The words of a machine that came onto the link it writes. -/
def sendings (index : Fin n) (events : List (Event n)) : List Word :=
  events.filterMap (sent? index)

def seedings (events : List (Event n)) : List Word :=
  events.filterMap seeded?

/-- The words that came onto the link of a machine after its phase setting. -/
def arrivals (topology : Topology) (index : Fin n) (events : List (Event n)) :
    List Word :=
  events.filterMap (arriving? topology index)

/-- No machine puts a word on link `0` before the conductor does. -/
def SeedFirst (topology : Topology) : List (Event n) → Prop
  | [] | .seeded _ :: _ => True
  | .sent writer _ :: later =>
    Network.outputLink topology writer ≠ Network.entry n ∧
      SeedFirst topology later
  | .took _ _ :: later => SeedFirst topology later

instance decidableSeedFirst (topology : Topology) :
    (events : List (Event n)) → Decidable (SeedFirst topology events)
  | [] | .seeded _ :: _ => isTrue trivial
  | .sent _ _ :: later =>
    have := decidableSeedFirst topology later
    inferInstanceAs (Decidable (_ ∧ _))
  | .took _ _ :: later => decidableSeedFirst topology later

variable {topology : Topology} {index writer : Fin n}
  {events later : List (Event n)}

@[simp] theorem takings_append (index : Fin n) (events later : List (Event n)) :
    takings index (events ++ later) =
      takings index events ++ takings index later :=
  List.filterMap_append

@[simp] theorem sendings_append (index : Fin n)
    (events later : List (Event n)) :
    sendings index (events ++ later) =
      sendings index events ++ sendings index later :=
  List.filterMap_append

@[simp] theorem seedings_append (events later : List (Event n)) :
    seedings (events ++ later) = seedings events ++ seedings later :=
  List.filterMap_append

@[simp] theorem arrivals_append (topology : Topology) (index : Fin n)
    (events later : List (Event n)) :
    arrivals topology index (events ++ later) =
      arrivals topology index events ++ arrivals topology index later :=
  List.filterMap_append

/-! ## Where words come from -/

theorem arrivals_eq_sendings
    (wired : Network.upstream? topology index = some writer)
    (seedless : index.val = 0 → seedings events = []) :
    arrivals topology index events = sendings writer events := by
  apply List.filterMap_congr
  intro event member
  cases event with
  | seeded word =>
      by_cases first : index.val = 0
      · have unseeded := List.filterMap_eq_nil_iff.mp (seedless first) _ member
        simp [seeded?] at unseeded
      · simp [arriving?, sent?, first]
  | sent other word => simp [arriving?, sent?, wired, eq_comm]
  | took other word => rfl

theorem arrivals_eq_seedings
    (unwired : Network.upstream? topology index = none) :
    arrivals topology index events = seedings events := by
  have first := Network.val_eq_zero_of_upstream?_eq_none unwired
  apply List.filterMap_congr
  intro event _
  cases event <;> simp [arriving?, seeded?, first, unwired]

/-- Where the seed comes first, nothing is sent onto link `0` without it. -/
theorem SeedFirst.sendings_eq_nil (seedFirst : SeedFirst topology events)
    (entry : Network.outputLink topology writer = Network.entry n)
    (seedless : seedings events = []) : sendings writer events = [] := by
  induction events with
  | nil => rfl
  | cons event later induction =>
      cases event with
      | seeded word => cases seedless
      | sent other word =>
          have elsewhere : other ≠ writer := by
            rintro rfl
            exact seedFirst.1 entry
          have rest := induction seedFirst.2 seedless
          simpa [sendings, List.filterMap_cons, sent?, elsewhere] using rest
      | took other word => exact induction seedFirst seedless

theorem SeedFirst.of_append (seedFirst : SeedFirst topology (events ++ later)) :
    SeedFirst topology events := by
  induction events with
  | nil => trivial
  | cons event rest induction =>
      cases event with
      | seeded word => trivial
      | sent writer word => exact ⟨seedFirst.1, induction seedFirst.2⟩
      | took index word => exact induction seedFirst

theorem seedFirst_chain (events : List (Event n)) :
    SeedFirst .chain events := by
  induction events with
  | nil => trivial
  | cons event later induction =>
      cases event with
      | seeded word => trivial
      | sent writer word =>
          refine ⟨?_, induction⟩
          simp [Network.outputLink, Network.entry, Fin.ext_iff]
      | took index word => exact induction

/-- A single seed is somewhere among the words that a machine sends onto link
`0`. -/
theorem arrivals_eq_insert {seed : Word} (first : index.val = 0)
    (wired : Network.upstream? topology index = some writer)
    (once : seedings events = [seed]) :
    ∃ ahead behind, arrivals topology index events = ahead ++ seed :: behind ∧
      sendings writer events = ahead ++ behind ∧
      (SeedFirst topology events → ahead = []) := by
  obtain ⟨earlier, event, later, rfl, none_earlier, seeds, none_later⟩ :=
    List.filterMap_eq_cons_iff.mp once
  have seedless : seedings earlier = [] :=
    List.filterMap_eq_nil_iff.mpr none_earlier
  cases event with
  | seeded word =>
      cases seeds
      have before := arrivals_eq_sendings wired fun _ => seedless
      have after : arrivals topology index later = sendings writer later :=
        arrivals_eq_sendings wired fun _ => none_later
      refine ⟨sendings writer earlier, sendings writer later, ?_, ?_, ?_⟩
      · rw [arrivals_append, before, ← after]
        simp [arrivals, arriving?, first]
      · rw [sendings_append]
        simp [sendings, List.filterMap_cons, sent?]
      · intro seedFirst
        exact seedFirst.of_append.sendings_eq_nil
          (Network.outputLink_eq_entry wired first) seedless
  | _ => cases seeds

/-- With the seed first, what arrives at a machine is the seed, if the machine
is the first one, and then all that comes from upstream. -/
theorem arrivals_eq (seedFirst : SeedFirst topology events)
    (once : seedings events = [] ∨ ∃ seed, seedings events = [seed])
    (index : Fin n) :
    arrivals topology index events =
      (if index.val = 0 then seedings events else []) ++
        (Network.upstream? topology index).elim []
          (fun writer => sendings writer events) := by
  cases wired : Network.upstream? topology index with
  | none =>
      have first := Network.val_eq_zero_of_upstream?_eq_none wired
      simp [arrivals_eq_seedings wired, first]
  | some writer =>
      by_cases first : index.val = 0
      · rcases once with seedless | ⟨seed, once⟩
        · simp [arrivals_eq_sendings wired fun _ => seedless, seedless]
        · obtain ⟨ahead, behind, arrived, sent, nothing⟩ :=
            arrivals_eq_insert first wired once
          simp [arrived, sent, nothing seedFirst, first, once]
      · simp [arrivals_eq_sendings wired fun zero => absurd zero first, first]

end Event

namespace Dealing

variable {n : Nat}

/-- The words that reach a link in a dealing. -/
def sent : Dealing → List Word
  | .sends word => [word]
  | _ => []

theorem takings_event? (dealing : Dealing) (index other : Fin n) :
    Event.takings other (dealing.event? index).toList =
      if index = other then dealing.received else [] := by
  cases dealing with
  | receives word =>
      by_cases same : index = other <;>
        simp [event?, received, Event.takings, Event.taken?, same]
  | _ => simp [event?, received, Event.takings, Event.taken?]

theorem sendings_event? (dealing : Dealing) (index other : Fin n) :
    Event.sendings other (dealing.event? index).toList =
      if index = other then dealing.sent else [] := by
  cases dealing with
  | sends word =>
      by_cases same : index = other <;>
        simp [event?, sent, Event.sendings, Event.sent?, same]
  | _ => simp [event?, sent, Event.sendings, Event.sent?]

theorem arrivals_event? (topology : Topology) (dealing : Dealing)
    (index other : Fin n) :
    Event.arrivals topology other (dealing.event? index).toList =
      if Network.upstream? topology other = some index then dealing.sent
      else [] := by
  cases dealing with
  | sends word =>
      by_cases wired : Network.upstream? topology other = some index <;>
        simp [event?, sent, Event.arrivals, Event.arriving?, wired]
  | _ => simp [event?, sent, Event.arrivals, Event.arriving?]

end Dealing

namespace Network

variable {n : Nat} {network between : Network n} {index : Fin n}
  {dealing : Dealing}

/-- A dealing moves words, and loses none of them unless a receiver goes. -/
theorem Deals.contents_eq (deals : network.Deals index dealing between)
    (keeps : dealing ≠ .closesInput) (reader : Fin n) :
    Event.takings reader (dealing.event? index).toList ++
        (between.link (inputLink reader)).contents =
      (network.link (inputLink reader)).contents ++
        Event.arrivals network.topology reader
          (dealing.event? index).toList := by
  rw [Dealing.takings_event?, Dealing.arrivals_event?]
  cases deals with
  | receives popped =>
      have front := Queue.toList_of_pop? popped
      by_cases own : index = reader
      · subst own
        simp [Dealing.received, Dealing.sent, Channel.contents, front]
      · have elsewhere : inputLink reader ≠ inputLink index :=
          fun same => own (inputLink_injective same).symm
        simp [own, elsewhere, Dealing.sent]
  | sends =>
      by_cases wired : upstream? network.topology reader = some index
      · simp [Dealing.received, Dealing.sent, wired,
          upstream?_eq_some_iff.mp wired]
      · have elsewhere : inputLink reader ≠ outputLink network.topology index :=
          fun same => wired (upstream?_eq_some_iff.mpr same.symm)
        simp [Dealing.received, wired, elsewhere]
  | closesOutput =>
      by_cases own : inputLink reader = outputLink network.topology index <;>
        simp [own, Dealing.received, Dealing.sent, Channel.dropSender,
          Channel.contents]
  | closesInput => exact absurd rfl keeps
  | _ => simp [Dealing.received, Dealing.sent]

end Network

end CellMachines
