import DataOlympus.Python.Json

/-!
# Integers read from a text

`int(text)`: blanks around, a sign, and decimal digits of any script with single underscores
between them.
-/

namespace DataOlympus

open Lines

/-- The decimal digits of the Unicode standard. -/
structure Decimals where
  value : Char → Option Nat
  value_lt : ∀ {c digit}, value c = some digit → digit < 10
  value_ascii : ∀ c, c.toNat < 128 → value c = if c.isDigit then some (c.toNat - 48) else none

/-- White space that `int` passes over. -/
def isIntSpace (c : Char) : Bool :=
  isSpace c && !(0x1c ≤ c.toNat && c.toNat ≤ 0x1f)

namespace Decimals

/-- The decimal digits of ASCII. -/
def ascii : Decimals where
  value c := if c.isDigit then some (c.toNat - 48) else none
  value_lt := by
    intro c digit found
    obtain ⟨isDigit, same⟩ := Option.ite_none_right_eq_some.mp found
    cases same
    have range : c.toNat ≤ 57 := (Char.isDigit_iff_toNat.mp isDigit).2
    omega
  value_ascii _ _ := rfl

variable (decimals : Decimals)

/-- The number that digits stand for, in groups with underscores between them. -/
def natural (text : Text) : Option Nat :=
  let groups := text.splitOn '_'
  if groups.all fun group => !group.isEmpty then
    (groups.flatten.mapM decimals.value).bind fun digits =>
      if digits.length ≤ maxStrDigits then
        some (digits.foldl (fun n digit => 10 * n + digit) 0)
      else none
  else none

/-- `int(text)`; `none` where it raises. -/
def int (text : Text) : Option Int :=
  match ((text.dropWhile isIntSpace).reverse.dropWhile isIntSpace).reverse with
  | '-' :: digits => (decimals.natural digits).map fun n : Nat => -(n : Int)
  | '+' :: digits => (decimals.natural digits).map Int.ofNat
  | digits => (decimals.natural digits).map Int.ofNat

/-- A number that has no more digits than `str` prints and `int` reads. -/
def Printed (n : Int) : Prop :=
  (Nat.toDigits 10 n.natAbs).length ≤ maxStrDigits

instance : DecidablePred Printed :=
  fun n => inferInstanceAs (Decidable ((Nat.toDigits 10 n.natAbs).length ≤ maxStrDigits))

variable {decimals} {text : Text} {n : Nat}

theorem foldl_lt {digits : List Nat} (small : ∀ digit ∈ digits, digit < 10) (start : Nat) :
    digits.foldl (fun n digit => 10 * n + digit) start < (start + 1) * 10 ^ digits.length := by
  induction digits generalizing start with
  | nil => simp
  | cons digit digits ih =>
      obtain ⟨here, further⟩ := List.forall_mem_cons.mp small
      rw [List.foldl_cons, List.length_cons]
      calc digits.foldl (fun n digit => 10 * n + digit) (10 * start + digit)
          < (10 * start + digit + 1) * 10 ^ digits.length := ih further _
        _ ≤ (start + 1) * 10 * 10 ^ digits.length := by
            apply Nat.mul_le_mul_right
            omega
        _ = (start + 1) * 10 ^ (digits.length + 1) := by
            rw [Nat.pow_succ, Nat.mul_assoc, Nat.mul_comm 10]

theorem lt_of_mapM_value {digits : List Nat} (read : text.mapM decimals.value = some digits) :
    ∀ digit ∈ digits, digit < 10 := by
  induction text generalizing digits with
  | nil =>
      cases read
      exact List.forall_mem_nil _
  | cons c text ih =>
      rw [List.mapM_cons] at read
      obtain ⟨digit, value, read⟩ := Option.bind_eq_some_iff.mp read
      obtain ⟨others, found, read⟩ := Option.bind_eq_some_iff.mp read
      cases read
      exact List.forall_mem_cons.mpr ⟨decimals.value_lt value, ih found⟩

/-- A number that is read is short enough to be printed. -/
theorem length_toDigits_of_natural (read : decimals.natural text = some n) :
    (Nat.toDigits 10 n).length ≤ maxStrDigits := by
  unfold natural at read
  dsimp only at read
  split at read
  · obtain ⟨digits, found, read⟩ := Option.bind_eq_some_iff.mp read
    obtain ⟨short, same⟩ := Option.ite_none_right_eq_some.mp read
    cases same
    have bound := foldl_lt (lt_of_mapM_value found) 0
    rw [Nat.length_toDigits_le_iff (by decide) (by decide)]
    rw [Nat.zero_add, Nat.one_mul] at bound
    exact Nat.lt_of_lt_of_le bound (Nat.pow_le_pow_right (by decide) short)
  · cases read

theorem printed_of_int {value : Int} (read : decimals.int text = some value) :
    Printed value := by
  unfold int at read
  split at read
  all_goals
    obtain ⟨n, found, rfl⟩ := Option.map_eq_some_iff.mp read
    have short := length_toDigits_of_natural found
  · rw [Printed, Int.natAbs_neg]
    exact short
  · exact short
  · exact short

/-- A printed number is read back, unless it has too many digits. -/
theorem natural_toDigits : decimals.natural (Nat.toDigits 10 n) =
    if (Nat.toDigits 10 n).length ≤ maxStrDigits then some n else none := by
  have digits : ∀ c ∈ Nat.toDigits 10 n, c.isDigit = true :=
    fun c member => Nat.isDigit_of_mem_toDigits (by decide) (by decide) member
  have no_underscore : '_' ∉ Nat.toDigits 10 n := by
    intro member
    cases digits '_' member
  have values : ∀ {letters : Text}, (∀ c ∈ letters, c.isDigit = true) →
      letters.mapM decimals.value = some (letters.map fun c => c.toNat - 48) := by
    intro letters digits
    induction letters with
    | nil => rfl
    | cons c letters ih =>
        obtain ⟨first, further⟩ := List.forall_mem_cons.mp digits
        have range : c.toNat ≤ 57 := (Char.isDigit_iff_toNat.mp first).2
        rw [List.mapM_cons, ih further, decimals.value_ascii c (by omega), if_pos first]
        rfl
  have read : ∀ (letters : Text) (start : Nat),
      (letters.map fun c => c.toNat - 48).foldl (fun n digit => 10 * n + digit) start =
        Nat.ofDigitChars 10 letters start := by
    intro letters start
    rw [List.foldl_map]
    exact Nat.ofDigitChars_eq_foldl.symm
  have whole : (Nat.toDigits 10 n).isEmpty = false := by
    rw [List.isEmpty_eq_false_iff]
    exact Nat.toDigits_ne_nil
  rw [natural, List.splitOn_eq_singleton no_underscore, List.all_cons, List.all_nil, whole,
    List.flatten_singleton, values digits]
  dsimp only [Option.bind_some]
  rw [read, Nat.ofDigitChars_ten_toDigits, List.length_map]
  rfl

theorem isDigit_of_mem_intRepr {value : Int} {c : Char} (member : c ∈ intRepr value) :
    c.isDigit = true ∨ c = '-' := by
  cases value with
  | ofNat n => exact .inl (Nat.isDigit_of_mem_toDigits (by decide) (by decide) member)
  | negSucc n =>
      rcases List.mem_cons.mp member with rfl | digit
      · exact .inr rfl
      · exact .inl (Nat.isDigit_of_mem_toDigits (by decide) (by decide) digit)

/-- `int(str(n))`. -/
theorem int_intRepr (value : Int) :
    decimals.int (intRepr value) = if Printed value then some value else none := by
  have not_blank : ∀ c ∈ intRepr value, isIntSpace c = false := by
    intro c member
    rcases isDigit_of_mem_intRepr member with digit | rfl
    · have range : 48 ≤ c.toNat ∧ c.toNat ≤ 57 := Char.isDigit_iff_toNat.mp digit
      rw [isIntSpace, isSpace, Bool.and_eq_false_iff]
      left
      simp only [List.mem_cons, List.not_mem_nil, or_false, decide_eq_false_iff_not]
      omega
    · rfl
  have kept : ∀ {letters : Text}, (∀ c ∈ letters, isIntSpace c = false) →
      letters.dropWhile isIntSpace = letters := by
    intro letters visible
    cases letters with
    | nil => rfl
    | cons c letters =>
        rw [List.dropWhile_cons_of_neg]
        rw [visible c List.mem_cons_self]
        exact Bool.false_ne_true
  unfold int
  rw [kept not_blank, kept, List.reverse_reverse]
  · cases value with
    | ofNat n =>
        have no_sign : ∀ sign, sign.isDigit = false → ∀ digits,
            Nat.toDigits 10 n ≠ sign :: digits := by
          intro sign no_digit digits printed
          have digit : sign.isDigit = true := by
            apply Nat.isDigit_of_mem_toDigits (b := 10) (n := n) (by decide) (by decide)
            rw [printed]
            exact List.mem_cons_self
          rw [no_digit] at digit
          cases digit
        change (match Nat.toDigits 10 n with
          | '-' :: digits => (decimals.natural digits).map fun n : Nat => -(n : Int)
          | '+' :: digits => (decimals.natural digits).map Int.ofNat
          | digits => (decimals.natural digits).map Int.ofNat) = _
        split
        · rename_i printed
          exact absurd printed (no_sign '-' rfl _)
        · rename_i printed
          exact absurd printed (no_sign '+' rfl _)
        · rw [natural_toDigits, apply_ite (Option.map Int.ofNat)]
          rfl
    | negSucc n =>
        change (decimals.natural (Nat.toDigits 10 (n + 1))).map (fun n : Nat => -(n : Int)) = _
        rw [natural_toDigits, apply_ite (Option.map fun n : Nat => -(n : Int))]
        rfl
  · intro c member
    exact not_blank c (List.mem_reverse.mp member)

end Decimals

end DataOlympus
