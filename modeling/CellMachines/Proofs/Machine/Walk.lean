import CellMachines.Machine.Run

/-!
# Walks of a machine

A machine shares nothing with others but the words it takes in and puts out, so
a run of it is explained by those words alone.  `Completes` is one instruction
that leaves it running, `Stops` one that ends it, and a `Walk` is any number of
completed instructions.  Two walks of one machine that take their words from the
same list never part: one of them is the beginning of the other.  A run on a
fixed list of inputs therefore bounds every walk that takes a part of that list,
and whatever ends such a walk ends the run in the same way.
-/

namespace CellMachines

namespace Machine

/-- An instruction that leaves the machine running, with the words it takes in
and puts out. -/
inductive Completes (machine : Machine) :
    List Word → List Word → Machine → Prop where
  | store {target : Nat} {value : Word} :
      machine.request = .ok (.store target value) →
      machine.storeFailure? target = none →
      Completes machine [] [] (machine.stored target value 4)
  | input {target : Nat} {value : Word} :
      machine.request = .ok (.input target) →
      machine.storeFailure? target = none →
      Completes machine [value] [] (machine.resumed.stored target value 2)
  | output {value : Word} :
      machine.request = .ok (.output value) →
      Completes machine [] [value] machine.sent
  | jump {target : Nat} :
      machine.request = .ok (.jump target) →
      Completes machine [] [] (machine.jumped target)
  | rebase {base : Word} :
      machine.request = .ok (.rebase base) →
      Completes machine [] [] (machine.rebased base)

/-- An instruction that ends the machine by itself, with the word it takes
before that. -/
inductive Stops (machine : Machine) :
    List Word → Except Failure Unit → Machine → Prop where
  | halt :
      machine.request = .ok .halt → Stops machine [] (.ok ()) machine.halted
  | refuse {failure : Failure} :
      machine.request = .error failure →
      Stops machine [] (.error failure) (machine.failed failure)
  | unstored {target : Nat} {value : Word} {failure : Failure} :
      machine.request = .ok (.store target value) →
      machine.storeFailure? target = some failure →
      Stops machine [] (.error failure) (machine.failed failure)
  | lost {target : Nat} {value : Word} {failure : Failure} :
      machine.request = .ok (.input target) →
      machine.storeFailure? target = some failure →
      Stops machine [value] (.error failure) (machine.resumed.failed failure)

/-- Any number of completed instructions. -/
inductive Walk (first : Machine) : List Word → List Word → Machine → Prop where
  | refl : Walk first [] [] first
  | step {taken emitted ins outs : List Word} {machine next : Machine} :
      Walk first taken emitted machine → Completes machine ins outs next →
      Walk first (taken ++ ins) (emitted ++ outs) next

private theorem eq_nil_of_prefix_self {α : Type} {front back : List α}
    (within : front ++ back <+: front) : back = [] := by
  have bounded := within.length_le
  rw [List.length_append] at bounded
  exact List.eq_nil_of_length_eq_zero (by omega)

variable {first machine last : Machine} {inputs taken emitted : List Word}

theorem storeFailure?_resumed (machine : Machine) (target : Nat) :
    machine.resumed.storeFailure? target = machine.storeFailure? target := rfl

namespace Completes

theorem unique {ins outs otherIns otherOuts : List Word} {next other : Machine}
    (left : Completes machine ins outs next)
    (right : Completes machine otherIns otherOuts other)
    (leftWithin : ins <+: inputs) (rightWithin : otherIns <+: inputs) :
    ins = otherIns ∧ outs = otherOuts ∧ next = other := by
  obtain ⟨rest, rfl⟩ := leftWithin
  cases left with
  | input asks =>
      -- only here do the two lists matter: both instructions take their first
      -- word
      cases right with
      | input otherAsks =>
          rw [asks] at otherAsks
          cases otherAsks
          simp only [List.singleton_append, List.cons_prefix_cons,
            List.nil_prefix, and_true] at rightWithin
          subst rightWithin
          exact ⟨rfl, rfl, rfl⟩
      | _ => simp_all
  | _ => cases right <;> simp_all

theorem ins_ne_nil {ins outs : List Word} {next : Machine} {target : Nat}
    (completes : Completes machine ins outs next)
    (asks : machine.request = .ok (.input target)) :
    ins ≠ [] := by
  cases completes <;> simp_all

end Completes

namespace Stops

theorem not_completes {ins outs given : List Word} {next : Machine}
    {result : Except Failure Unit} (stops : Stops machine given result last) :
    ¬Completes machine ins outs next := by
  intro completes
  cases stops <;> cases completes <;> simp_all

theorem unique {ins otherIns : List Word} {other : Machine}
    {result otherResult : Except Failure Unit}
    (left : Stops machine ins result last)
    (right : Stops machine otherIns otherResult other) :
    result = otherResult ∧ last = other := by
  cases left <;> cases right <;> simp_all

theorem ins_ne_nil {ins : List Word} {result : Except Failure Unit}
    {target : Nat} (stops : Stops machine ins result last)
    (asks : machine.request = .ok (.input target)) :
    ins ≠ [] := by
  cases stops <;> simp_all

end Stops

namespace Walk

theorem single {ins outs : List Word}
    (completes : Completes first ins outs last) :
    Walk first ins outs last := by
  simpa using Walk.refl.step completes

theorem head_cases (walk : Walk first taken emitted last) :
    (taken = [] ∧ emitted = [] ∧ last = first) ∨
      ∃ ins outs next later laterEmitted, Completes first ins outs next ∧
        Walk next later laterEmitted last ∧ taken = ins ++ later ∧
        emitted = outs ++ laterEmitted := by
  induction walk with
  | refl => exact .inl ⟨rfl, rfl, rfl⟩
  | @step taken emitted ins outs machine next walk completes induction =>
      rcases induction with ⟨rfl, rfl, rfl⟩ |
        ⟨headIns, headOuts, middle, later, laterEmitted, headCompletes,
          rest, rfl, rfl⟩
      · exact .inr ⟨ins, outs, next, [], [], completes, .refl, by simp, by simp⟩
      · exact .inr
          ⟨headIns, headOuts, middle, later ++ ins, laterEmitted ++ outs,
            headCompletes, rest.step completes, by simp, by simp⟩

theorem eq_of_stops {ins : List Word} {result : Except Failure Unit}
    {final : Machine} (walk : Walk first taken emitted last)
    (stops : Stops first ins result final) :
    taken = [] ∧ emitted = [] ∧ last = first := by
  rcases walk.head_cases with same | ⟨_, _, _, _, _, completes, _⟩
  · exact same
  · exact absurd completes stops.not_completes

theorem eq_of_asks {target : Nat} (walk : Walk first [] emitted last)
    (asks : first.request = .ok (.input target)) :
    emitted = [] ∧ last = first := by
  rcases walk.head_cases with
    ⟨_, same⟩ | ⟨_, _, _, _, _, completes, _, empty, _⟩
  · exact same
  · exact absurd (List.append_eq_nil_iff.mp empty.symm).1
      (completes.ins_ne_nil asks)

/-- Of two walks that take their words from one list, one continues the other.
-/
theorem compare {otherTaken otherEmitted : List Word} {other : Machine}
    (left : Walk first taken emitted last)
    (right : Walk first otherTaken otherEmitted other)
    (leftWithin : taken <+: inputs) (rightWithin : otherTaken <+: inputs) :
    (∃ later laterEmitted, Walk last later laterEmitted other ∧
        otherTaken = taken ++ later ∧ otherEmitted = emitted ++ laterEmitted) ∨
      ∃ later laterEmitted, Walk other later laterEmitted last ∧
        taken = otherTaken ++ later ∧
        emitted = otherEmitted ++ laterEmitted := by
  induction left with
  | refl => exact .inl ⟨otherTaken, otherEmitted, right, rfl, rfl⟩
  | @step taken emitted ins outs machine next walk completes induction =>
      have within : taken <+: inputs :=
        (List.prefix_append taken ins).trans leftWithin
      rcases induction within with ⟨later, laterEmitted, rest, rfl, rfl⟩ |
        ⟨later, laterEmitted, rest, rfl, rfl⟩
      · rcases rest.head_cases with ⟨rfl, rfl, rfl⟩ |
          ⟨headIns, headOuts, middle, further, furtherEmitted, headCompletes,
            rest, rfl, rfl⟩
        · exact .inr ⟨ins, outs, .single completes, by simp, by simp⟩
        · obtain ⟨remaining, rfl⟩ := within
          have insWithin : ins <+: remaining :=
            (List.prefix_append_right_inj taken).mp leftWithin
          have headWithin : headIns <+: remaining :=
            (List.prefix_append headIns further).trans
              ((List.prefix_append_right_inj taken).mp rightWithin)
          obtain ⟨rfl, rfl, rfl⟩ :=
            completes.unique headCompletes insWithin headWithin
          exact .inl ⟨further, furtherEmitted, rest, by simp, by simp⟩
      · exact .inr
          ⟨later ++ ins, laterEmitted ++ outs, rest.step completes,
            by simp, by simp⟩

end Walk

/-- What a run on a fixed list of inputs ends with, and what it has put out by
then. -/
inductive Concludes (first : Machine) (inputs : List Word) :
    Except Failure Unit → Machine → List Word → Prop where
  | stops {taken emitted ins : List Word} {machine last : Machine}
      {result : Except Failure Unit} :
      Walk first taken emitted machine → Stops machine ins result last →
      taken ++ ins <+: inputs → Concludes first inputs result last emitted
  | starves {emitted : List Word} {machine : Machine} {target : Nat} :
      Walk first inputs emitted machine →
      machine.request = .ok (.input target) →
      Concludes first inputs (.error .inputExhausted)
        (machine.failed .inputExhausted) emitted

namespace Concludes

variable {result : Except Failure Unit} {outputs : List Word}

theorem emitted_prefix_outputs
    (concludes : Concludes first inputs result last outputs)
    (walk : Walk first taken emitted machine) (within : taken <+: inputs) :
    emitted <+: outputs := by
  cases concludes with
  | stops whole stops wholeWithin =>
      have taken_within := (List.prefix_append _ _).trans wholeWithin
      rcases whole.compare walk taken_within within with
        ⟨_, _, rest, _, rfl⟩ | ⟨_, _, _, _, rfl⟩
      · obtain ⟨_, rfl, _⟩ := rest.eq_of_stops stops
        simp
      · exact List.prefix_append _ _
  | starves whole asks =>
      rcases whole.compare walk (List.prefix_refl _) within with
        ⟨later, _, rest, rfl, rfl⟩ | ⟨_, _, _, _, rfl⟩
      · obtain rfl := eq_nil_of_prefix_self within
        obtain ⟨rfl, _⟩ := rest.eq_of_asks asks
        simp
      · exact List.prefix_append _ _

/-- A machine that ends by itself does so too when there are more words. -/
theorem extend {larger : List Word}
    (concludes : Concludes first inputs result last outputs)
    (own : result ≠ .error .inputExhausted) (within : inputs <+: larger) :
    Concludes first larger result last outputs := by
  cases concludes with
  | stops walk stops inside => exact .stops walk stops (inside.trans within)
  | starves => exact absurd rfl own

private theorem not_stops_of_starves {target : Nat}
    {ins otherEmitted : List Word} {starving : Machine} {final : Machine}
    (walk : Walk first taken emitted machine)
    (stops : Stops machine ins result final) (within : taken ++ ins <+: inputs)
    (starves : Walk first inputs otherEmitted starving)
    (asks : starving.request = .ok (.input target)) : False := by
  have taken_within := (List.prefix_append _ _).trans within
  rcases walk.compare starves taken_within (List.prefix_refl _) with
    ⟨_, _, rest, rfl, _⟩ | ⟨later, _, rest, rfl, _⟩
  · obtain ⟨rfl, _, rfl⟩ := rest.eq_of_stops stops
    rw [List.append_nil] at within
    exact stops.ins_ne_nil asks (eq_nil_of_prefix_self within)
  · rw [List.append_assoc] at within
    obtain ⟨rfl, rfl⟩ :=
      List.append_eq_nil_iff.mp (eq_nil_of_prefix_self within)
    obtain ⟨_, rfl⟩ := rest.eq_of_asks asks
    exact stops.ins_ne_nil asks rfl

theorem unique {otherResult : Except Failure Unit} {other : Machine}
    {otherOutputs : List Word}
    (left : Concludes first inputs result last outputs)
    (right : Concludes first inputs otherResult other otherOutputs) :
    result = otherResult ∧ last = other ∧ outputs = otherOutputs := by
  cases left with
  | stops walk stops within =>
      cases right with
      | stops otherWalk otherStops otherWithin =>
          rcases walk.compare otherWalk ((List.prefix_append _ _).trans within)
              ((List.prefix_append _ _).trans otherWithin) with
            ⟨_, _, rest, _, rfl⟩ | ⟨_, _, rest, _, rfl⟩
          · obtain ⟨_, rfl, rfl⟩ := rest.eq_of_stops stops
            obtain ⟨rfl, rfl⟩ := stops.unique otherStops
            simp
          · obtain ⟨_, rfl, rfl⟩ := rest.eq_of_stops otherStops
            obtain ⟨rfl, rfl⟩ := stops.unique otherStops
            simp
      | starves otherWalk asks =>
          exact (not_stops_of_starves walk stops within otherWalk asks).elim
  | starves walk asks =>
      cases right with
      | stops otherWalk stops within =>
          exact (not_stops_of_starves otherWalk stops within walk asks).elim
      | starves otherWalk otherAsks =>
          rcases walk.compare otherWalk (List.prefix_refl _)
            (List.prefix_refl _) with
            ⟨later, _, rest, same, rfl⟩ | ⟨later, _, rest, same, rfl⟩
          · obtain rfl : later = [] := by simpa using same
            obtain ⟨rfl, rfl⟩ := rest.eq_of_asks asks
            simp
          · obtain rfl : later = [] := by simpa using same
            obtain ⟨rfl, rfl⟩ := rest.eq_of_asks otherAsks
            simp

end Concludes

end Machine

end CellMachines
