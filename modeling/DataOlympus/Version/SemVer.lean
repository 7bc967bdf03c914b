import DataOlympus.Text.Order
import DataOlympus.Text.Pieces
import Mathlib.Tactic.IntervalCases

/-!
# Semantic versions

The text of a semantic version and the precedence of versions: by the three numbers, then a
version with identifiers of a prerelease before the one without, then by the identifiers.
-/

namespace DataOlympus.Version

open Lines

/-- `0|[1-9][0-9]*`. -/
def isNumber (text : Text) : Bool :=
  text.all Char.isDigit && !text.isEmpty && (text.head? != some '0' || text == ['0'])

/-- The number of a text. -/
def readNumber (text : Text) : Option Nat :=
  if isNumber text then some (Nat.ofDigitChars 10 text 0) else none

/-- A number as it is written. -/
def number (n : Nat) : Text :=
  Nat.toDigits 10 n

/-- An identifier of a prerelease. -/
inductive Identifier where
  | numeric (n : Nat)
  | word (text : Text)
  deriving DecidableEq

/-- A character of an identifier. -/
def isIdentifierChar (c : Char) : Bool :=
  c.isAlphanum || c = '-'

def Identifier.read (text : Text) : Option Identifier :=
  match readNumber text with
  | some n => some (.numeric n)
  | none =>
      if text.all isIdentifierChar && text.any (fun c => !c.isDigit) then some (.word text)
      else none

/-- Numeric identifiers come first. -/
def Identifier.compare : Identifier → Identifier → Ordering
  | .numeric m, .numeric n => Ord.compare m n
  | .numeric _, .word _ => .lt
  | .word _, .numeric _ => .gt
  | .word first, .word second =>
      if nameLt first second then .lt else if first = second then .eq else .gt

structure SemVer where
  major : Nat
  minor : Nat
  patch : Nat
  prerelease : List Identifier
  deriving DecidableEq

namespace SemVer

/-- The three numbers of a version. -/
def readCore (text : Text) : Option (Nat × Nat × Nat) :=
  match text.splitOn '.' with
  | [a, b, c] => (readNumber a).bind fun major => (readNumber b).bind fun minor =>
      (readNumber c).map fun patch => (major, minor, patch)
  | _ => none

/-- Metadata of the build, which precedence ignores. -/
def isBuild (text : Text) : Bool :=
  (text.splitOn '.').all fun piece => !piece.isEmpty && piece.all isIdentifierChar

/-- The version of a text. -/
def read (text : Text) : Option SemVer :=
  let version := text.takeWhile (· ≠ '+')
  let build := text.dropWhile (· ≠ '+')
  let core := version.takeWhile (· ≠ '-')
  if build.isEmpty || isBuild (build.drop 1) then
    (readCore core).bind fun (major, minor, patch) =>
      match version.dropWhile (· ≠ '-') with
      | [] => some ⟨major, minor, patch, []⟩
      | _ :: identifiers => ((identifiers.splitOn '.').mapM Identifier.read).map fun prerelease =>
          ⟨major, minor, patch, prerelease⟩
  else none

/-- A longer list comes behind its beginning. -/
def compareIdentifiers : List Identifier → List Identifier → Ordering
  | [], [] => .eq
  | [], _ :: _ => .lt
  | _ :: _, [] => .gt
  | first :: rest, second :: others =>
      (first.compare second).then (compareIdentifiers rest others)

/-- The order of prereleases, of which the release itself is the last. -/
def comparePrerelease : List Identifier → List Identifier → Ordering
  | [], [] => .eq
  | [], _ :: _ => .gt
  | _ :: _, [] => .lt
  | first, second => compareIdentifiers first second

def compare (first second : SemVer) : Ordering :=
  (Ord.compare first.major second.major).then <| (Ord.compare first.minor second.minor).then <|
    (Ord.compare first.patch second.patch).then <|
      comparePrerelease first.prerelease second.prerelease

/-- Both texts are versions, and the first has lower precedence. -/
def Precedes (first second : Text) : Prop :=
  ∃ old new, read first = some old ∧ read second = some new ∧ compare old new = .lt

example : (read "1.0.0-alpha.beta".toList).bind (fun old => (read "1.0.0-rc.1+b".toList).map
    (compare old)) = some .lt := by decide

end SemVer

/-! ## Numbers -/

variable {text : Text} {n : Nat}

theorem isDigit_of_mem_number {c : Char} (member : c ∈ number n) : c.isDigit = true :=
  Nat.isDigit_of_mem_toDigits (by decide) (by decide) member

/-- A number is written without leading zeros. -/
theorem head?_number (positive : 0 < n) : (number n).head? ≠ some '0' := by
  induction n using Nat.strongRecOn with
  | ind n ih =>
      by_cases small : n < 10
      · rw [number, Nat.toDigits_of_lt_base small, List.head?_cons]
        interval_cases n <;> decide
      · have shorter : n / 10 < n := Nat.div_lt_self positive (by decide)
        have left : 0 < n / 10 := by omega
        have nonempty : Nat.toDigits 10 (n / 10) ≠ [] := Nat.toDigits_ne_nil
        rw [number, Nat.toDigits_of_base_le (by decide) (Nat.le_of_not_lt small),
          List.head?_append_of_ne_nil _ nonempty]
        exact ih _ shorter left

theorem isNumber_number (n : Nat) : isNumber (number n) = true := by
  have digits : (number n).all Char.isDigit = true :=
    List.all_eq_true.mpr fun _ member => isDigit_of_mem_number member
  have nonempty : (number n).isEmpty = false := List.isEmpty_eq_false_iff.mpr Nat.toDigits_ne_nil
  rw [isNumber, digits, nonempty]
  obtain rfl | positive := Nat.eq_zero_or_pos n
  · rfl
  · rw [bne_iff_ne.mpr (head?_number positive)]
    rfl

/-- A number is read back. -/
theorem readNumber_number (n : Nat) : readNumber (number n) = some n := by
  rw [readNumber, isNumber_number, if_pos rfl, number, Nat.ofDigitChars_ten_toDigits]

theorem isDigit_of_readNumber (read : readNumber text = some n) :
    ∀ c ∈ text, c.isDigit = true := by
  obtain ⟨digits, _⟩ := Option.ite_none_right_eq_some.mp read
  rw [isNumber, Bool.and_eq_true, Bool.and_eq_true] at digits
  exact List.all_eq_true.mp digits.1.1

theorem dot_not_mem_of_readNumber (read : readNumber text = some n) : '.' ∉ text := by
  intro member
  cases isDigit_of_readNumber read _ member

namespace SemVer

variable {major minor patch : Nat} {identifiers : Text}

/-- Three numbers with dots between them. -/
theorem readCore_eq_some_iff : readCore text = some (major, minor, patch) ↔
    ∃ a b c, text = a ++ '.' :: (b ++ '.' :: c) ∧ readNumber a = some major ∧
      readNumber b = some minor ∧ readNumber c = some patch := by
  constructor
  · intro read
    unfold readCore at read
    split at read
    · rename_i a b c cut
      obtain ⟨_, first, read⟩ := Option.bind_eq_some_iff.mp read
      obtain ⟨_, second, read⟩ := Option.bind_eq_some_iff.mp read
      obtain ⟨_, third, same⟩ := Option.map_eq_some_iff.mp read
      cases same
      refine ⟨a, b, c, ?_, first, second, third⟩
      have joined : ['.'].intercalate (text.splitOn '.') = text := List.intercalate_splitOn '.'
      rw [← joined, cut]
      simp [List.intercalate]
    · cases read
  · rintro ⟨a, b, c, rfl, first, second, third⟩
    rw [readCore, List.splitOn_append_cons_self_of_not_mem (dot_not_mem_of_readNumber first),
      List.splitOn_append_cons_self_of_not_mem (dot_not_mem_of_readNumber second),
      List.splitOn_eq_singleton (dot_not_mem_of_readNumber third)]
    simp [first, second, third]

theorem isDigit_of_readCore (read : readCore text = some (major, minor, patch)) :
    ∀ c ∈ text, c.isDigit = true ∨ c = '.' := by
  obtain ⟨a, b, c, rfl, first, second, third⟩ := readCore_eq_some_iff.mp read
  intro letter member
  simp only [List.mem_append, List.mem_cons] at member
  rcases member with among | dot | among | dot | among
  · exact .inl (isDigit_of_readNumber first letter among)
  · exact .inr dot
  · exact .inl (isDigit_of_readNumber second letter among)
  · exact .inr dot
  · exact .inl (isDigit_of_readNumber third letter among)

theorem not_mem_of_readCore (read : readCore text = some (major, minor, patch)) :
    '+' ∉ text ∧ '-' ∉ text := by
  constructor
  · intro member
    rcases isDigit_of_readCore read _ member with digit | dot
    · cases digit
    · cases dot
  · intro member
    rcases isDigit_of_readCore read _ member with digit | dot
    · cases digit
    · cases dot

theorem takeWhile_ne_of_not_mem {mark : Char} (rest : Text) (clean : mark ∉ text) :
    (text ++ rest).takeWhile (· ≠ mark) = text ++ rest.takeWhile (· ≠ mark) ∧
      (text ++ rest).dropWhile (· ≠ mark) = rest.dropWhile (· ≠ mark) := by
  have kept : ∀ c ∈ text, decide (c ≠ mark) = true := by
    intro c member
    apply decide_eq_true
    rintro rfl
    exact clean member
  exact ⟨List.takeWhile_append_of_pos kept, List.dropWhile_append_of_pos kept⟩

/-- A version with identifiers behind its numbers. -/
theorem read_append {prerelease : List Identifier}
    (core : readCore text = some (major, minor, patch)) (no_build : '+' ∉ identifiers)
    (names : (identifiers.splitOn '.').mapM Identifier.read = some prerelease) :
    read (text ++ '-' :: identifiers) = some ⟨major, minor, patch, prerelease⟩ := by
  obtain ⟨no_plus, no_dash⟩ := not_mem_of_readCore core
  have clean : '+' ∉ '-' :: identifiers := by
    rw [List.mem_cons, not_or]
    exact ⟨by decide, no_build⟩
  have whole := takeWhile_ne_of_not_mem [] clean
  rw [List.append_nil, List.takeWhile_nil, List.append_nil, List.dropWhile_nil] at whole
  have version := takeWhile_ne_of_not_mem ('-' :: identifiers) no_plus
  rw [whole.1, whole.2] at version
  have parts := takeWhile_ne_of_not_mem ('-' :: identifiers) no_dash
  rw [List.takeWhile_cons_of_neg (by decide), List.dropWhile_cons_of_neg (by decide),
    List.append_nil] at parts
  unfold read
  simp only [version.1, version.2, parts.1, parts.2, core, names]
  rfl

/-- A version that is released. -/
theorem read_of_readCore (core : readCore text = some (major, minor, patch)) :
    read text = some ⟨major, minor, patch, []⟩ := by
  obtain ⟨no_plus, no_dash⟩ := not_mem_of_readCore core
  have version := takeWhile_ne_of_not_mem [] no_plus
  have parts := takeWhile_ne_of_not_mem [] no_dash
  rw [List.append_nil, List.takeWhile_nil, List.append_nil, List.dropWhile_nil] at version parts
  unfold read
  simp only [version.1, version.2, parts.1, parts.2, core]
  rfl

/-! ## Precedence -/

/-- The order of the three numbers. -/
def CoreLt (first second : Nat × Nat × Nat) : Prop :=
  first.1 < second.1 ∨ first.1 = second.1 ∧ (first.2.1 < second.2.1 ∨
    first.2.1 = second.2.1 ∧ first.2.2 < second.2.2)

instance : DecidableRel CoreLt :=
  fun first second => inferInstanceAs (Decidable (first.1 < second.1 ∨ first.1 = second.1 ∧
    (first.2.1 < second.2.1 ∨ first.2.1 = second.2.1 ∧ first.2.2 < second.2.2)))

variable {first second : SemVer}

theorem compare_of_coreLt (less : CoreLt (first.major, first.minor, first.patch)
    (second.major, second.minor, second.patch)) : compare first second = .lt := by
  unfold compare
  simp only [Ordering.then_eq_lt, Nat.compare_eq_lt, Nat.compare_eq_eq]
  obtain major | ⟨major, minor | ⟨minor, patch⟩⟩ := less
  · exact .inl major
  · exact .inr ⟨major, .inl minor⟩
  · exact .inr ⟨major, .inr ⟨minor, .inl patch⟩⟩

theorem nameLt_self (text : Text) : nameLt text text = false := by
  induction text with
  | nil => rfl
  | cons c rest ih =>
      rw [nameLt, ih, Bool.and_false, Bool.or_false]
      exact decide_eq_false (Nat.lt_irrefl _)

theorem Identifier.compare_self (identifier : Identifier) :
    identifier.compare identifier = .eq := by
  cases identifier with
  | numeric n => exact Nat.compare_eq_eq.mpr rfl
  | word text =>
      rw [Identifier.compare, nameLt_self]
      simp

theorem compareIdentifiers_append (names : List Identifier) {m n : Nat} (less : m < n) :
    compareIdentifiers (names ++ [.numeric m]) (names ++ [.numeric n]) = .lt := by
  induction names with
  | nil =>
      change (Ord.compare m n).then .eq = .lt
      rw [Nat.compare_eq_lt.mpr less]
      rfl
  | cons name names ih =>
      rw [List.cons_append, List.cons_append, compareIdentifiers, Identifier.compare_self, ih]
      rfl

/-- Of two prereleases of one version the one with the higher number comes later. -/
theorem compare_of_lt {names : List Identifier} {m n : Nat} (less : m < n) :
    compare ⟨major, minor, patch, names ++ [.numeric m]⟩
      ⟨major, minor, patch, names ++ [.numeric n]⟩ = .lt := by
  have prerelease : comparePrerelease (names ++ [.numeric m]) (names ++ [.numeric n]) = .lt := by
    rw [comparePrerelease, compareIdentifiers_append names less]
    · simp
    · simp
    · simp
  unfold compare
  simp only [Ordering.then_eq_lt, Nat.compare_eq_eq, prerelease, and_self, or_true]

end SemVer

end DataOlympus.Version
