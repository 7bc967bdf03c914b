import Mathlib.Algebra.BigOperators.Group.Finset.Basic
import Mathlib.Algebra.Ring.Nat
import Mathlib.Data.List.Perm.Basic
import Mathlib.Data.List.Perm.Subperm
import Mathlib.Data.Nat.Cast.Basic
import Mathlib.Logic.Function.Basic

/-!
# Surplus copies

A walk over a list that leaves out the first copies of each item, as many as another list has.
What is left is the difference of the two lists as multisets.
-/

namespace DataOlympus.Select

universe u

variable {α : Type u} [DecidableEq α]

/-- How often the item occurs. -/
def copies (items : List α) (item : α) : Nat :=
  items.count item

/-- The items that occur more often than allowed, where `seen` counts those already passed. -/
def surplus (allowed : α → Nat) : (α → Nat) → List α → List α
  | _, [] => []
  | seen, item :: rest =>
      if seen item + 1 ≤ allowed item then
        surplus allowed (Function.update seen item (seen item + 1)) rest
      else item :: surplus allowed (Function.update seen item (seen item + 1)) rest

theorem count_surplus (allowed seen : α → Nat) (items : List α) (item : α) :
    (surplus allowed seen items).count item =
      seen item + items.count item - max (allowed item) (seen item) := by
  induction items generalizing seen with
  | nil =>
      rw [surplus, List.count_nil]
      omega
  | cons first rest ih =>
      have later := ih (Function.update seen first (seen first + 1))
      rw [surplus]
      by_cases same : first = item
      · subst same
        rw [Function.update_self] at later
        rw [List.count_cons_self]
        split
        · rw [later]
          omega
        · rw [List.count_cons_self, later]
          omega
      · rw [Function.update_of_ne (Ne.symm same)] at later
        rw [List.count_cons_of_ne same]
        split
        · exact later
        · rw [List.count_cons_of_ne same]
          exact later

section Difference

variable {before before' after after' : List α}

/-- Where nothing has been passed, the surplus is the difference of the multisets. -/
theorem count_surplus_zero (item : α) :
    (surplus (copies before) (fun _ => 0) after).count item =
      copies after item - copies before item := by
  rw [count_surplus, copies, copies]
  omega

/-- The difference does not depend on the order of either list. -/
theorem surplus_perm (first : before'.Perm before) (second : after'.Perm after) :
    (surplus (copies before') (fun _ => 0) after').Perm
      (surplus (copies before) (fun _ => 0) after) := by
  rw [List.perm_iff_count]
  intro item
  rw [count_surplus_zero, count_surplus_zero, copies, copies, first.count_eq, second.count_eq]
  rfl

/-- A part of a list has no surplus over it. -/
theorem surplus_eq_nil (part : after.Subperm before) :
    surplus (copies before) (fun _ => 0) after = [] := by
  rw [List.eq_nil_iff_forall_not_mem]
  intro item member
  have counted := List.count_pos_iff.mpr member
  have fewer := part.count_le item
  rw [count_surplus_zero, copies, copies] at counted
  omega

/-- What is made of the surplus, item by item. -/
theorem length_flatMap_surplus {β : Type u} (f : α → List β) :
    ((surplus (copies before) (fun _ => 0) after).flatMap f).length =
      ∑ item ∈ after.toFinset,
        (copies after item - copies before item) * (f item).length := by
  have counted : ∀ item, (copies after item - copies before item) * (f item).length =
      (surplus (copies before) (fun _ => 0) after).count item • (f item).length := by
    intro item
    rw [count_surplus_zero, nsmul_eq_mul, Nat.cast_id]
  rw [List.length_flatMap, Finset.sum_list_map_count]
  simp only [counted]
  apply Finset.sum_subset
  · intro item member
    have here := List.count_pos_iff.mpr (List.mem_toFinset.mp member)
    rw [count_surplus_zero] at here
    apply List.mem_toFinset.mpr
    exact List.count_pos_iff.mp (Nat.lt_of_lt_of_le here (Nat.sub_le _ _))
  · intro item _ absent
    rw [List.mem_toFinset, ← List.count_pos_iff, Nat.pos_iff_ne_zero, not_not] at absent
    rw [absent, zero_nsmul]

end Difference

end DataOlympus.Select
