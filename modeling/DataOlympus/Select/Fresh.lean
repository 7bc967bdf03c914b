import Mathlib.Data.List.Nodup
import Mathlib.Data.List.Perm.Subperm

/-!
# Fresh candidates

The first of a sequence of different candidates that is not in use.  A list can use up no more
candidates than its length, so the search is bounded.
-/

namespace DataOlympus.Select

universe u

variable {α : Type u} [DecidableEq α]

/-- The place of the first candidate from `start` on that is not used. -/
def freshFrom (candidate : Nat → α) (used : List α) (start : Nat) : Nat :=
  start + ((List.range (used.length + 1)).find? fun ahead =>
    decide (candidate (start + ahead) ∉ used)).getD 0

theorem candidate_freshFrom_not_mem {candidate : Nat → α} (different : candidate.Injective)
    (used : List α) (start : Nat) : candidate (freshFrom candidate used start) ∉ used := by
  unfold freshFrom
  cases found : (List.range (used.length + 1)).find? fun ahead =>
      decide (candidate (start + ahead) ∉ used) with
  | some ahead =>
      rw [Option.getD_some]
      have free := List.find?_eq_some_iff_append.mp found
      exact of_decide_eq_true free.1
  | none =>
      exfalso
      have taken : (List.range (used.length + 1)).map (fun ahead => candidate (start + ahead)) ⊆
          used := by
        intro value member
        obtain ⟨ahead, inside, rfl⟩ := List.mem_map.mp member
        simpa using List.find?_eq_none.mp found ahead inside
      have once : ((List.range (used.length + 1)).map
          fun ahead => candidate (start + ahead)).Nodup := by
        apply List.nodup_range.map
        intro first second same
        exact Nat.add_left_cancel (different same)
      have fits := (once.subperm taken).length_le
      rw [List.length_map, List.length_range] at fits
      omega

theorem freshFrom_le {candidate : Nat → α} {used : List α} {start ahead : Nat}
    (free : candidate (start + ahead) ∉ used) :
    freshFrom candidate used start ≤ start + ahead := by
  unfold freshFrom
  apply Nat.add_le_add_left
  cases found : (List.range (used.length + 1)).find? fun ahead =>
      decide (candidate (start + ahead) ∉ used) with
  | none => exact Nat.zero_le _
  | some first =>
      rw [Option.getD_some]
      obtain ⟨-, taken⟩ := List.find?_range_eq_some.mp found
      by_contra later
      have inUse := taken.2 ahead (Nat.lt_of_not_le later)
      simp [free] at inUse

/-- The first free candidate depends on which values are in use only. -/
theorem freshFrom_congr {candidate : Nat → α} (different : candidate.Injective)
    {used other : List α} (same : ∀ value, value ∈ used ↔ value ∈ other) (start : Nat) :
    freshFrom candidate used start = freshFrom candidate other start := by
  have below : ∀ {first second : List α}, (∀ value, value ∈ first ↔ value ∈ second) →
      freshFrom candidate first start ≤ freshFrom candidate second start := by
    intro first second same
    have free := candidate_freshFrom_not_mem different second start
    rw [← same] at free
    exact freshFrom_le free
  exact Nat.le_antisymm (below same) (below fun value => (same value).symm)

end DataOlympus.Select
