import CellMachines.Proofs.Pipeline.Accounts

/-!
# The place of the seed

Link `0` has its phase setting on it before anybody acts.  In a chain nothing
but the seed ever follows.  In a ring the last machine writes link `0` as well,
and the seed is put while the machines are running already, so it comes anywhere
among the words of the last machine.  It is the second word on the link unless
the last machine was faster than the conductor, as a machine that puts out a
word before it takes any may be (`seed_overtaken`).
-/

namespace CellMachines

namespace Pipeline

variable {pipeline : Pipeline} {phases : List Word}
  {events : List (Event phases.length)} {progress : Progress phases.length}

/-- The words on link `0`, in order: the phase setting, and then the words of
the last machine, if it writes that link, with the seed somewhere among
them. -/
theorem Visits.entry_words (visits : pipeline.Visits phases events progress)
    (first last : Fin phases.length) (isFirst : first.val = 0)
    (isLast : last.val + 1 = phases.length) :
    (∃ phase, phases.head? = some phase ∧
      Event.takings first events <+:
        phase :: Event.arrivals pipeline.topology first events ∧
      ((progress.network.executor first).hasEnded = false →
        Event.takings first events ++
            (progress.network.link (Network.entry phases.length)).contents =
          phase :: Event.arrivals pipeline.topology first events)) ∧
    (pipeline.topology = .chain →
      Event.arrivals .chain first events = [] ∨
        Event.arrivals .chain first events = [pipeline.seed]) ∧
    (pipeline.topology = .ring →
      (Event.arrivals .ring first events = Event.sendings last events ∨
        ∃ ahead behind,
          Event.arrivals .ring first events = ahead ++ pipeline.seed :: behind ∧
            Event.sendings last events = ahead ++ behind) ∧
      (Event.SeedFirst .ring events →
        Event.arrivals .ring first events = [] ∨
          ∃ behind,
            Event.arrivals .ring first events = pipeline.seed :: behind)) := by
  have recorded := visits.of_opening
  have entry : Network.entry phases.length = Network.inputLink first :=
    (Fin.ext isFirst).symm
  have upstream : Network.upstream? .ring first = some last :=
    Network.upstream?_eq_some_iff_val.mpr (.inr ⟨rfl, isFirst, isLast⟩)
  refine ⟨?_, ?_, ?_⟩
  · have front : phases.head? = some ((settings phases).get first) := by
      rw [List.head?_eq_getElem?, ← isFirst]
      exact List.getElem?_eq_getElem first.isLt
    refine ⟨_, front, recorded.takings_prefix_arrivals first, ?_⟩
    intro reading
    rw [entry]
    exact recorded.contents_eq reading
  · intro _chain
    have unwired : Network.upstream? .chain first = none := by
      simp [Network.upstream?, isFirst]
    rw [Event.arrivals_eq_seedings unwired]
    exact recorded.seedings_cases
  · intro _ring
    rcases recorded.seedings_cases with seedless | once
    · have same := Event.arrivals_eq_sendings upstream fun _ => seedless
      refine ⟨.inl same, ?_⟩
      intro seedFirst
      left
      rw [same]
      exact seedFirst.sendings_eq_nil
        (Network.outputLink_eq_entry upstream isFirst) seedless
    · obtain ⟨ahead, behind, arrived, sent, nothing⟩ :=
        Event.arrivals_eq_insert isFirst upstream once
      refine ⟨.inr ⟨ahead, behind, arrived, sent⟩, ?_⟩
      intro seedFirst
      right
      refine ⟨behind, ?_⟩
      rw [arrived, nothing seedFirst, List.nil_append]

/-- A ring whose only machine puts out a word before it takes any. -/
def hasty : Pipeline where
  program := ⟨[104, 5, 99]⟩
  topology := .ring
  seed := 7

private theorem visits_hasty : ∃ events progress,
    hasty.Visits [3] events progress ∧
      events = [.sent Network.sole 5, .seeded 7] := by
  let moves : List (Move 1) :=
    [.execute Network.sole false, .execute Network.sole false, .conduct false]
  have follows : ((hasty.opening (settings [3])).follow moves).map Prod.fst =
      some [.sent Network.sole 5, .seeded 7] := by
    decide +kernel
  obtain ⟨⟨events, progress⟩, follows, same⟩ :=
    Option.map_eq_some_iff.mp follows
  have visits := visits_of_follow (by decide) (by decide) follows
  exact ⟨events, progress, visits, same⟩

/-- The word of the machine is on link `0` before the seed. -/
theorem seed_overtaken : ∃ events progress,
    hasty.Visits [3] events progress ∧
      Event.arrivals .ring Network.sole events = [5, hasty.seed] ∧
      hasty.seed ≠ 5 ∧ ¬Event.SeedFirst .ring events := by
  obtain ⟨events, progress, visits, rfl⟩ := visits_hasty
  exact ⟨_, progress, visits, by decide, by decide, by decide⟩

theorem entry_words_hasty : ∃ events progress,
    hasty.Visits [3] events progress ∧
      ∃ ahead behind,
        Event.arrivals .ring Network.sole events = ahead ++ 7 :: behind ∧
          Event.sendings Network.sole events = ahead ++ behind := by
  obtain ⟨events, progress, visits, rfl⟩ := visits_hasty
  refine ⟨_, progress, visits, ?_⟩
  have words := visits.entry_words Network.sole Network.sole rfl rfl
  rcases (words.2.2 rfl).1 with unseeded | among
  · exact absurd unseeded (by decide)
  · exact among

end Pipeline

end CellMachines
