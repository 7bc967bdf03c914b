import DataOlympus.Text.Lines
import Mathlib.Data.List.Sort

/-!
# The order of file names

`sorted(os.listdir(directory))` puts the names of a directory in the order of their code
points.
-/

namespace DataOlympus.Lines

/-- The order of strings without surrogates. -/
def nameLe : Text → Text → Bool
  | [], _ => true
  | _ :: _, [] => false
  | c :: rest, d :: others => c.toNat < d.toNat || c = d && nameLe rest others

/-- `first < second`. -/
def nameLt : Text → Text → Bool
  | [], second => !second.isEmpty
  | _ :: _, [] => false
  | c :: rest, d :: others => c.toNat < d.toNat || c = d && nameLt rest others

/-- The order is total. -/
theorem nameLt_eq_not (first second : Text) : nameLt first second = !nameLe second first := by
  induction first generalizing second with
  | nil => cases second <;> rfl
  | cons c rest ih =>
      cases second with
      | nil => rfl
      | cons d others =>
          rw [nameLt, nameLe, ih]
          obtain less | same | more := Nat.lt_trichotomy c.toNat d.toNat
          · have different : d ≠ c := by
              rintro rfl
              exact Nat.lt_irrefl _ less
            simp [less, Nat.lt_asymm less, different]
          · have equal : c = d := Char.toNat_inj.mp same
            simp [equal]
          · have different : c ≠ d := by
              rintro rfl
              exact Nat.lt_irrefl _ more
            simp [more, Nat.lt_asymm more, different]

/-- `sorted(names)`. -/
def sortedNames (names : List Text) : List Text :=
  names.insertionSort fun first second => nameLe first second = true

theorem perm_sortedNames (names : List Text) : (sortedNames names).Perm names :=
  List.perm_insertionSort _ names

@[simp]
theorem mem_sortedNames {names : List Text} {name : Text} :
    name ∈ sortedNames names ↔ name ∈ names :=
  List.mem_insertionSort _

theorem nameLe_append_left (shared first second : Text) :
    nameLe (shared ++ first) (shared ++ second) = nameLe first second := by
  induction shared with
  | nil => rfl
  | cons c rest ih => simp [nameLe, ih]

/-- Texts of one length are compared before what follows them. -/
theorem nameLe_append_of_length_eq {first second : Text}
    (width : first.length = second.length) (behind : nameLe first second = false)
    (rest others : Text) : nameLe (first ++ rest) (second ++ others) = false := by
  induction first generalizing second with
  | nil => cases behind
  | cons c first ih =>
      cases second with
      | nil => cases width
      | cons d second =>
          simp only [nameLe, List.cons_append, Bool.or_eq_false_iff, Bool.and_eq_false_iff]
            at behind ⊢
          refine ⟨behind.1, behind.2.imp_right ?_⟩
          exact ih (Nat.succ.inj width)

/-- Texts of one length are compared before what follows them. -/
theorem nameLe_append_append {first second : Text} (width : first.length = second.length)
    (rest others : Text) : nameLe (first ++ rest) (second ++ others) =
      (nameLt first second || decide (first = second) && nameLe rest others) := by
  induction first generalizing second with
  | nil =>
      cases List.length_eq_zero_iff.mp width.symm
      rfl
  | cons c first ih =>
      cases second with
      | nil => cases width
      | cons d second =>
          rw [List.cons_append, List.cons_append, nameLe, nameLt, ih (Nat.succ.inj width)]
          by_cases same : c = d
          · simp [same]
          · simp [same]

/-- A name that comes behind all others is sorted last. -/
theorem sortedNames_cons_of_last {name : Text} {names : List Text}
    (last : ∀ other ∈ names, nameLe name other = false) :
    sortedNames (name :: names) = sortedNames names ++ [name] := by
  have insertLast : ∀ sorted : List Text, (∀ other ∈ sorted, nameLe name other = false) →
      sorted.orderedInsert (fun first second => nameLe first second = true) name =
        sorted ++ [name] := by
    intro sorted behind
    induction sorted with
    | nil => rfl
    | cons first rest ih =>
        rw [List.orderedInsert, if_neg, ih]
        · rfl
        · exact fun other member => behind other (List.mem_cons_of_mem _ member)
        · rw [behind first List.mem_cons_self]
          exact Bool.false_ne_true
  apply insertLast
  intro other member
  exact last other (mem_sortedNames.mp member)

end DataOlympus.Lines
