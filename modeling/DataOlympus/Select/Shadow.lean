import Mathlib.Tactic.ByContra

/-!
# Shadowed members

The members of a set shadow one another.  Two sets have the same members that no member shadows
if and only if what they differ in is shadowed and shadows nothing that is not shadowed anyway.
-/

namespace DataOlympus.Select

universe u

variable {α : Type u}

/-- A member that no member shadows. -/
def Unshadowed (member : α → Prop) (shadows : α → α → Prop) (item : α) : Prop :=
  member item ∧ ¬∃ other, member other ∧ shadows other item

/-- A member of one set only is shadowed there, and a member of both is shadowed in both or in
none. -/
structure Undisturbed (first second : α → Prop) (shadows : α → α → Prop) : Prop where
  lost : ∀ item, first item → ¬second item → ∃ other, first other ∧ shadows other item
  gained : ∀ item, second item → ¬first item → ∃ other, second other ∧ shadows other item
  shared : ∀ item, first item → second item →
    ((∃ other, first other ∧ shadows other item) ↔ ∃ other, second other ∧ shadows other item)

variable {first second : α → Prop} {shadows : α → α → Prop}

theorem unshadowed_congr_iff :
    (∀ item, Unshadowed first shadows item ↔ Unshadowed second shadows item) ↔
      Undisturbed first second shadows := by
  unfold Unshadowed
  constructor
  · intro same
    refine ⟨fun item inFirst notSecond => ?_, fun item inSecond notFirst => ?_,
      fun item inFirst inSecond => ?_⟩
    · by_contra unshadowed
      exact notSecond ((same item).mp ⟨inFirst, unshadowed⟩).1
    · by_contra unshadowed
      exact notFirst ((same item).mpr ⟨inSecond, unshadowed⟩).1
    · have both := same item
      rw [and_iff_right inFirst, and_iff_right inSecond, not_iff_not] at both
      exact both
  · rintro ⟨lost, gained, shared⟩ item
    by_cases inFirst : first item
    · by_cases inSecond : second item
      · rw [and_iff_right inFirst, and_iff_right inSecond, not_iff_not]
        exact shared item inFirst inSecond
      · exact iff_of_false (fun both => both.2 (lost item inFirst inSecond))
          fun both => inSecond both.1
    · by_cases inSecond : second item
      · exact iff_of_false (fun both => inFirst both.1)
          fun both => both.2 (gained item inSecond inFirst)
      · exact iff_of_false (fun both => inFirst both.1) fun both => inSecond both.1

/-- Equal sets disturb nothing. -/
theorem Undisturbed.of_iff (same : ∀ item, first item ↔ second item) :
    Undisturbed first second shadows := by
  apply unshadowed_congr_iff.mp
  intro item
  unfold Unshadowed
  simp only [same]

end DataOlympus.Select
