import Mathlib.Data.Nat.Find

/-!
# Leftmost disjoint spans

A span may begin at each place and reaches to its end.  Read from the left, the first span is
chosen, and then the first one that begins where it has ended or later, and so on.
-/

namespace DataOlympus.Select

variable {ends : Nat → Option Nat} {start first : Nat}

/-- The span at a place is chosen among those that begin at `start` or later: no chosen one
before it reaches over the place. -/
def Chosen (ends : Nat → Option Nat) (start place : Nat) : Prop :=
  start ≤ place ∧ (ends place).isSome = true ∧
    ∀ earlier, earlier < place → Chosen ends start earlier →
      ∀ stop, ends earlier = some stop → stop ≤ place
termination_by place

theorem chosen_iff {place : Nat} : Chosen ends start place ↔
    start ≤ place ∧ (ends place).isSome = true ∧
      ∀ earlier, earlier < place → Chosen ends start earlier →
        ∀ stop, ends earlier = some stop → stop ≤ place := by
  rw [Chosen]

/-- Where no span begins, nothing is chosen. -/
theorem chosen_of_none (absent : ends start = none) {place : Nat} :
    Chosen ends start place ↔ Chosen ends (start + 1) place := by
  induction place using Nat.strong_induction_on with
  | _ place ih =>
      rw [chosen_iff, chosen_iff]
      constructor
      · rintro ⟨behind, span, disjoint⟩
        refine ⟨?_, span, ?_⟩
        · rcases Nat.lt_or_eq_of_le behind with later | rfl
          · exact later
          · rw [absent] at span
            cases span
        · intro earlier before chosen
          exact disjoint earlier before ((ih earlier before).mpr chosen)
      · rintro ⟨behind, span, disjoint⟩
        refine ⟨by omega, span, ?_⟩
        intro earlier before chosen
        exact disjoint earlier before ((ih earlier before).mp chosen)

/-- A span that begins first is chosen, and then those behind it. -/
theorem chosen_of_some {stop : Nat} (present : ends start = some stop) (forward : start < stop)
    {place : Nat} : Chosen ends start place ↔ place = start ∨ Chosen ends stop place := by
  have here : Chosen ends start start := by
    rw [chosen_iff]
    refine ⟨Nat.le_refl start, by rw [present]; rfl, ?_⟩
    intro earlier before chosen
    have behind := (chosen_iff.mp chosen).1
    omega
  induction place using Nat.strong_induction_on with
  | _ place ih =>
      constructor
      · intro chosen
        by_cases same : place = start
        · exact .inl same
        · right
          obtain ⟨behind, span, disjoint⟩ := chosen_iff.mp chosen
          have passed := disjoint start (by omega) here stop present
          rw [chosen_iff]
          refine ⟨passed, span, ?_⟩
          intro earlier before inner
          exact disjoint earlier before ((ih earlier before).mpr (.inr inner))
      · rintro (rfl | chosen)
        · exact here
        · obtain ⟨behind, span, disjoint⟩ := chosen_iff.mp chosen
          rw [chosen_iff]
          refine ⟨by omega, span, ?_⟩
          intro earlier before outer end' reaches
          rcases (ih earlier before).mp outer with rfl | inner
          · cases Option.some.inj (present.symm.trans reaches)
            exact behind
          · exact disjoint earlier before inner end' reaches

/-- The first span is chosen, so that one is chosen if there is one. -/
theorem exists_chosen_iff :
    (∃ place, Chosen ends 0 place) ↔ ∃ place, (ends place).isSome = true := by
  constructor
  · rintro ⟨place, chosen⟩
    exact ⟨place, (chosen_iff.mp chosen).2.1⟩
  · intro present
    classical
    refine ⟨Nat.find present, chosen_iff.mpr ⟨Nat.zero_le _, Nat.find_spec present, ?_⟩⟩
    intro earlier before chosen
    exact absurd (chosen_iff.mp chosen).2.1 (Nat.find_min present before)

section Exempt

variable (ends) (exempt : Nat → Bool)

/-- The spans that are exempt. -/
def exemptEnds (place : Nat) : Option Nat :=
  if exempt place then ends place else none

variable {ends} {exempt}

/-- Up to the first chosen span that is not exempt, the exempt ones are chosen as if they
were alone. -/
theorem chosen_exemptEnds_iff {bound : Nat}
    (quiet : ∀ place < bound, Chosen ends 0 place → exempt place = true) {place : Nat}
    (inside : place < bound) :
    Chosen (exemptEnds ends exempt) 0 place ↔ Chosen ends 0 place := by
  induction place using Nat.strong_induction_on with
  | _ place ih =>
      have earlierEnds : ∀ {earlier}, earlier < place → Chosen ends 0 earlier →
          exemptEnds ends exempt earlier = ends earlier :=
        fun before chosen => if_pos (quiet _ (by omega) chosen)
      constructor
      · intro chosen
        obtain ⟨-, span, disjoint⟩ := chosen_iff.mp chosen
        have present : (ends place).isSome = true := by
          unfold exemptEnds at span
          split at span
          · exact span
          · cases span
        refine chosen_iff.mpr ⟨Nat.zero_le _, present, ?_⟩
        intro earlier before inner stop reaches
        apply disjoint earlier before ((ih earlier before (by omega)).mpr inner)
        rw [earlierEnds before inner, reaches]
      · intro chosen
        obtain ⟨-, span, disjoint⟩ := chosen_iff.mp chosen
        have same : exemptEnds ends exempt place = ends place := if_pos (quiet _ inside chosen)
        refine chosen_iff.mpr ⟨Nat.zero_le _, by rw [same]; exact span, ?_⟩
        intro earlier before inner stop reaches
        have outer := (ih earlier before (by omega)).mp inner
        rw [earlierEnds before outer] at reaches
        exact disjoint earlier before outer stop reaches

/-- A span that is not exempt is chosen exactly if one of them begins in no exempt span that
is chosen among the exempt ones. -/
theorem exists_chosen_not_exempt_iff :
    (∃ place, Chosen ends 0 place ∧ exempt place = false) ↔
      ∃ place, (ends place).isSome = true ∧ exempt place = false ∧
        ∀ earlier, earlier < place → Chosen (exemptEnds ends exempt) 0 earlier →
          ∀ stop, exemptEnds ends exempt earlier = some stop → stop ≤ place := by
  constructor
  · intro found
    classical
    have least := Nat.find_spec found
    have quiet : ∀ place < Nat.find found, Chosen ends 0 place → exempt place = true := by
      intro place before chosen
      by_contra counted
      exact Nat.find_min found before ⟨chosen, Bool.eq_false_iff.mpr counted⟩
    obtain ⟨-, span, disjoint⟩ := chosen_iff.mp least.1
    refine ⟨Nat.find found, span, least.2, ?_⟩
    intro earlier before inner stop reaches
    have outer := (chosen_exemptEnds_iff quiet before).mp inner
    apply disjoint earlier before outer stop
    rw [← reaches]
    exact (if_pos (quiet earlier before outer)).symm
  · rintro ⟨place, span, counted, disjoint⟩
    by_contra none_counted
    have quiet : ∀ other < place, Chosen ends 0 other → exempt other = true := by
      intro other _ chosen
      by_contra kept
      exact none_counted ⟨other, chosen, Bool.eq_false_iff.mpr kept⟩
    apply none_counted
    refine ⟨place, chosen_iff.mpr ⟨Nat.zero_le _, span, ?_⟩, counted⟩
    intro earlier before outer stop reaches
    apply disjoint earlier before ((chosen_exemptEnds_iff quiet before).mpr outer)
    rw [← reaches]
    exact if_pos (quiet earlier before outer)

end Exempt

end DataOlympus.Select
