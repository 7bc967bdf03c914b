import Mathlib.Data.List.Dedup

/-!
# Conditions with nulls

SQL compares cells that may be `NULL` by three truth values, and `WHERE` keeps the rows for
which a condition is true.  Each condition that a query uses is described by when it is true.
-/

namespace DataOlympus.Sql

/-- A truth value; `none` is `NULL`. -/
abbrev Truth : Type := Option Bool

/-- `AND`. -/
def conj : Truth → Truth → Truth
  | some false, _ => some false
  | _, some false => some false
  | some true, some true => some true
  | _, _ => none

/-- `OR`. -/
def disj : Truth → Truth → Truth
  | some true, _ => some true
  | _, some true => some true
  | some false, some false => some false
  | _, _ => none

/-- `NOT`. -/
def negate (condition : Truth) : Truth :=
  condition.map not

/-- A row is kept. -/
def holds (condition : Truth) : Bool :=
  condition = some true

section Cells

variable {α β : Type}

/-- A comparison, which is `NULL` if one of its sides is. -/
def compare (test : α → β → Bool) : Option α → Option β → Truth
  | some first, some second => some (test first second)
  | _, _ => none

/-- `IS NULL`. -/
def isNull (cell : Option α) : Truth :=
  some cell.isNone

section Equality

variable [DecidableEq α]

/-- `cell IN (…)`. -/
def isIn (cell : Option α) : List (Option α) → Truth
  | [] => some false
  | other :: cells => disj (compare (fun first second => decide (first = second)) cell other)
      (isIn cell cells)

/-- `SELECT DISTINCT`. -/
def distinct (cells : List (Option α)) : List (Option α) :=
  cells.dedup

/-- `COUNT(DISTINCT …)`, which passes over `NULL`. -/
def countDistinct (cells : List (Option α)) : Nat :=
  (cells.filterMap id).dedup.length

end Equality

/-! ## When a condition is true -/

@[simp]
theorem holds_conj (first second : Truth) :
    holds (conj first second) = (holds first && holds second) := by
  rcases first with _ | _ | _ <;> rcases second with _ | _ | _ <;> rfl

@[simp]
theorem holds_disj (first second : Truth) :
    holds (disj first second) = (holds first || holds second) := by
  rcases first with _ | _ | _ <;> rcases second with _ | _ | _ <;> rfl

@[simp]
theorem holds_compare (test : α → β → Bool) (first : Option α) (second : β) :
    holds (compare test first (some second)) = first.any (test · second) := by
  cases first with
  | none => rfl
  | some first => cases here : test first second <;> simp [compare, holds, here]

@[simp]
theorem holds_isNull (cell : Option α) : holds (isNull cell) = cell.isNone := by
  cases cell <;> rfl

/-- A bound that may be absent. -/
theorem holds_isNull_or_compare (test : α → β → Bool) (cell : Option α) (value : β) :
    holds (disj (isNull cell) (compare test cell (some value))) = cell.all (test · value) := by
  rw [holds_disj, holds_isNull, holds_compare]
  cases cell with
  | none => rfl
  | some first => exact Bool.false_or _

variable [DecidableEq α]

/-- Without nulls `IN` is true or false. -/
theorem isIn_some (value : α) (values : List α) :
    isIn (some value) (values.map some) = some (decide (value ∈ values)) := by
  induction values with
  | nil => rfl
  | cons other values ih =>
      rw [List.map_cons, isIn, ih]
      by_cases same : value = other
      · simp [compare, disj, same]
      · by_cases later : value ∈ values
        · simp [compare, disj, same, later]
        · simp [compare, disj, same, later]

@[simp]
theorem holds_isIn_some (value : α) (values : List α) :
    holds (isIn (some value) (values.map some)) = decide (value ∈ values) := by
  rw [isIn_some]
  cases decide (value ∈ values) <;> rfl

@[simp]
theorem holds_not_isIn_some (value : α) (values : List α) :
    holds (negate (isIn (some value) (values.map some))) = !decide (value ∈ values) := by
  rw [isIn_some]
  cases decide (value ∈ values) <;> rfl

/-- Without nulls the distinct rows are counted. -/
theorem countDistinct_map_some (values : List α) :
    countDistinct (values.map some) = (distinct (values.map some)).length := by
  have kept : (values.map some).filterMap id = values := by
    rw [List.filterMap_map, Function.id_comp, List.filterMap_some]
  rw [countDistinct, kept, distinct, List.dedup_map_of_injective fun _ _ => Option.some.inj,
    List.length_map]

end Cells

end DataOlympus.Sql
