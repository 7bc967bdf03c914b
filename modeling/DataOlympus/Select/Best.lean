import Mathlib.Data.List.Induction
import Mathlib.Data.List.Sort

/-!
# Bounded selection

The first items of a list in the order of a key, and a list that is cut back to its first
items whenever it grows past a bound.  Where the key tells items apart, cutting back early
selects the same items as one sort at the end.
-/

namespace DataOlympus.Select

universe u v

variable {α : Type u} {κ : Type v} [LinearOrder κ] (key : α → κ)

/-- The items in the order of their keys. -/
def ordered (items : List α) : List α :=
  items.insertionSort fun first second => key first ≤ key second

/-- The first `count` items in the order of their keys. -/
def best (count : Nat) (items : List α) : List α :=
  (ordered key items).take count

/-- A further item; a list longer than `bound` is cut back to its best. -/
def offer (count bound : Nat) (items : List α) (item : α) : List α :=
  if bound < (items ++ [item]).length then best key count (items ++ [item])
  else items ++ [item]

/-- Items offered one after another. -/
def offerAll (count bound : Nat) (items : List α) : List α :=
  items.foldl (offer key count bound) []

variable {key} {count bound : Nat}

theorem perm_ordered (items : List α) : (ordered key items).Perm items :=
  List.perm_insertionSort _ items

theorem pairwise_ordered (items : List α) :
    (ordered key items).Pairwise fun first second => key first ≤ key second := by
  have : Std.Total fun first second : α => key first ≤ key second :=
    ⟨fun first second => le_total (key first) (key second)⟩
  have : IsTrans α fun first second => key first ≤ key second :=
    ⟨fun _ _ _ first second => le_trans first second⟩
  exact List.pairwise_insertionSort _ items

theorem ordered_cons (item : α) (items : List α) :
    ordered key (item :: items) =
      (ordered key items).orderedInsert (fun first second => key first ≤ key second) item :=
  rfl

/-- Items that are in order already stay. -/
theorem ordered_of_pairwise {items : List α}
    (sorted : items.Pairwise fun first second => key first ≤ key second) :
    ordered key items = items :=
  List.Pairwise.insertionSort_eq sorted

/-- An ordered list of items does not depend on the order in which they came. -/
theorem ordered_perm (injective : key.Injective) {first second : List α}
    (same : first.Perm second) : ordered key first = ordered key second := by
  have permuted : (ordered key first).Perm (ordered key second) :=
    ((perm_ordered first).trans same).trans (perm_ordered second).symm
  apply permuted.eq_of_pairwise _ (pairwise_ordered first) (pairwise_ordered second)
  intro item other _ _ before after
  exact injective (le_antisymm before after)

theorem best_perm (injective : key.Injective) {first second : List α}
    (same : first.Perm second) : best key count first = best key count second := by
  unfold best
  rw [ordered_perm injective same]

/-- Only the first items of a list decide the first items after an insertion. -/
theorem take_orderedInsert (before : α → α → Prop) [DecidableRel before] (item : α)
    (items : List α) :
    (items.orderedInsert before item).take count =
      ((items.take count).orderedInsert before item).take count := by
  induction items generalizing count with
  | nil => simp
  | cons first rest ih =>
      cases count with
      | zero => simp
      | succ count =>
          rw [List.take_succ_cons, List.orderedInsert_cons, List.orderedInsert_cons]
          by_cases here : before item first
          · rw [if_pos here, if_pos here, List.take_succ_cons, List.take_succ_cons]
            cases count with
            | zero => rfl
            | succ count =>
                rw [List.take_succ_cons, List.take_succ_cons, List.take_take,
                  Nat.min_eq_left (Nat.le_succ count)]
          · rw [if_neg here, if_neg here, List.take_succ_cons, List.take_succ_cons, ih]

/-- The best of a list stay its best. -/
theorem best_best (items : List α) :
    best key count (best key count items) = best key count items := by
  have sorted : (best key count items).Pairwise fun first second => key first ≤ key second :=
    (pairwise_ordered items).sublist (List.take_sublist count _)
  rw [best, ordered_of_pairwise sorted, best, List.take_take, Nat.min_self]

/-- Only the best of the items seen decide the best after one more. -/
theorem best_cons (item : α) (items : List α) :
    best key count (item :: items) = best key count (item :: best key count items) := by
  have sorted : (best key count items).Pairwise fun first second => key first ≤ key second :=
    (pairwise_ordered items).sublist (List.take_sublist count _)
  rw [best, ordered_cons, take_orderedInsert, best, ordered_cons, ordered_of_pairwise sorted,
    best]

/-- An offer adds to what was seen, as far as the best are concerned. -/
theorem best_offer (injective : key.Injective) {items seen : List α}
    (same : best key count items = best key count seen) (item : α) :
    best key count (offer key count bound items item) = best key count (seen ++ [item]) := by
  have grown : best key count (items ++ [item]) = best key count (seen ++ [item]) := by
    rw [best_perm injective (List.perm_append_singleton item items), best_cons, same,
      ← best_cons, best_perm injective (List.perm_append_singleton item seen)]
  unfold offer
  by_cases long : bound < (items ++ [item]).length
  · rw [if_pos long, best_best]
    exact grown
  · rw [if_neg long]
    exact grown

/-- Whenever the list was cut back, its best are the best of all items offered. -/
theorem best_offerAll (injective : key.Injective) (items : List α) :
    best key count (offerAll key count bound items) = best key count items := by
  unfold offerAll
  induction items using List.reverseRecOn with
  | nil => rfl
  | append_singleton seen item ih =>
      rw [List.foldl_append]
      exact best_offer injective ih item

end DataOlympus.Select
