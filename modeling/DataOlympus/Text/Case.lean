import DataOlympus.Text.Lines

/-!
# Letter case

The tables of the Unicode standard that `str.lower` and `\w` consult, and the lowercase of
a text.  A text in lowercase keeps its letters wherever it stands in another text.
-/

namespace DataOlympus.Lines

/-- A capital letter of ASCII moves by 32, any other letter stays. -/
theorem toLower_cases (c : Char) :
    c.toLower = c ∧ ¬(65 ≤ c.toNat ∧ c.toNat ≤ 90) ∨
      (65 ≤ c.toNat ∧ c.toNat ≤ 90) ∧ c.toLower.toNat = c.toNat + 32 := by
  by_cases capital : c.val ≥ 'A'.val ∧ c.val ≤ 'Z'.val
  · right
    have range : 65 ≤ c.toNat ∧ c.toNat ≤ 90 := capital
    refine ⟨range, ?_⟩
    have shift : ('a'.val - 'A'.val).toNat = 32 := by decide
    have small : c.val.toNat ≤ 90 := range.2
    have moved : c.toLower.val = c.val + ('a'.val - 'A'.val) :=
      congrArg Char.val (dif_pos capital)
    change c.toLower.val.toNat = c.val.toNat + 32
    rw [moved, UInt32.toNat_add, shift]
    apply Nat.mod_eq_of_lt
    omega
  · left
    exact ⟨dif_neg capital, capital⟩

theorem toLower_toLower (c : Char) : c.toLower.toLower = c.toLower := by
  obtain ⟨same, _⟩ | ⟨range, shifted⟩ := toLower_cases c
  · rw [same, same]
  · obtain ⟨same, _⟩ | ⟨further, _⟩ := toLower_cases c.toLower
    · exact same
    · omega

/-- The tables of the Unicode standard. -/
structure Unicode where
  /-- The full lowercase mapping of a character. -/
  lowerChar : Char → Text
  isCased : Char → Bool
  isCaseIgnorable : Char → Bool
  /-- `str.isalnum` of one character. -/
  isAlnum : Char → Bool
  lower_fixed : ∀ c, c ≠ 'Σ' → ∀ d ∈ lowerChar c, d ≠ 'Σ' ∧ lowerChar d = [d]
  lower_sigma : lowerChar 'σ' = ['σ'] ∧ lowerChar 'ς' = ['ς']
  lower_ascii : ∀ c, c.toNat < 128 → lowerChar c = [c.toLower]
  alnum_ascii : ∀ c, c.toNat < 128 → isAlnum c = c.isAlphanum

namespace Unicode

variable (unicode : Unicode)

/-- `\w`. -/
def isWord (c : Char) : Bool :=
  unicode.isAlnum c || c = '_'

/-- A capital sigma between these texts ends a word. -/
def finalSigma (before after : Text) : Bool :=
  (before.reverse.dropWhile unicode.isCaseIgnorable).head?.any unicode.isCased &&
    !(after.dropWhile unicode.isCaseIgnorable).head?.any unicode.isCased

/-- The lowercase of a text that stands behind another. -/
def lowerFrom (before : Text) : Text → Text
  | [] => []
  | c :: rest =>
      (if c = 'Σ' then [if unicode.finalSigma before rest then 'ς' else 'σ']
        else unicode.lowerChar c) ++ lowerFrom (before ++ [c]) rest

/-- `str.lower`. -/
def lower (text : Text) : Text :=
  unicode.lowerFrom [] text

/-- A text that consists of lowercase letters and letters without case. -/
def Lowered (text : Text) : Prop :=
  ∀ c ∈ text, c ≠ 'Σ' ∧ unicode.lowerChar c = [c]

variable {unicode} {before text rest : Text} {c : Char}

theorem lowered_nil : unicode.Lowered [] :=
  List.forall_mem_nil _

theorem lowered_append {first second : Text} :
    unicode.Lowered (first ++ second) ↔ unicode.Lowered first ∧ unicode.Lowered second :=
  List.forall_mem_append

theorem Lowered.take (lowered : unicode.Lowered text) (count : Nat) :
    unicode.Lowered (text.take count) :=
  fun c member => lowered c (List.mem_of_mem_take member)

/-- The lowercase of a text is in lowercase. -/
theorem lowered_lowerFrom : unicode.Lowered (unicode.lowerFrom before text) := by
  induction text generalizing before with
  | nil => exact lowered_nil
  | cons c rest ih =>
      apply lowered_append.mpr
      refine ⟨?_, ih⟩
      intro d member
      split at member
      · cases List.mem_singleton.mp member
        split
        · exact ⟨by decide, unicode.lower_sigma.2⟩
        · exact ⟨by decide, unicode.lower_sigma.1⟩
      · rename_i different
        exact unicode.lower_fixed c different d member

theorem lowered_lower : unicode.Lowered (unicode.lower text) :=
  lowered_lowerFrom

/-- Letters in lowercase stay. -/
theorem lowerFrom_append_of_lowered (lowered : unicode.Lowered text) :
    unicode.lowerFrom before (text ++ rest) = text ++ unicode.lowerFrom (before ++ text) rest := by
  induction text generalizing before with
  | nil => rw [List.append_nil, List.nil_append, List.nil_append]
  | cons c text ih =>
      obtain ⟨⟨different, fixed⟩, further⟩ := List.forall_mem_cons.mp lowered
      rw [List.cons_append, lowerFrom, if_neg different, fixed, ih further, List.append_assoc]
      rfl

/-- The lowercase of a first part stands before that of the rest. -/
theorem exists_lowerFrom_append (unicode : Unicode) (before text rest : Text) : ∃ lowered,
    unicode.lowerFrom before (text ++ rest) =
      lowered ++ unicode.lowerFrom (before ++ text) rest := by
  induction text generalizing before with
  | nil => exact ⟨[], by rw [List.append_nil]; rfl⟩
  | cons c text ih =>
      obtain ⟨further, split_eq⟩ := ih (before ++ [c])
      rw [List.cons_append, lowerFrom, split_eq, List.append_assoc before]
      exact ⟨_ ++ further, (List.append_assoc _ _ _).symm⟩

theorem lower_of_lowered (lowered : unicode.Lowered text) : unicode.lower text = text := by
  have whole : unicode.lowerFrom [] (text ++ []) = text ++ unicode.lowerFrom ([] ++ text) [] :=
    lowerFrom_append_of_lowered lowered
  rw [List.append_nil] at whole
  rw [lower, whole]
  exact List.append_nil text

/-- A text in lowercase is found in the lowercase of every text that holds it. -/
theorem infix_lower (lowered : unicode.Lowered text) (first last : Text) :
    text <:+: unicode.lower (first ++ (text ++ last)) := by
  obtain ⟨start, split_eq⟩ := exists_lowerFrom_append unicode [] first (text ++ last)
  rw [lower, split_eq, lowerFrom_append_of_lowered lowered]
  exact ⟨start, _, (List.append_assoc _ _ _)⟩

/-- Digits, signs and small letters of ASCII are in lowercase. -/
theorem lowered_of_ascii (ascii : ∀ c ∈ text, c.toNat < 128 ∧ c.toLower = c) :
    unicode.Lowered text := by
  intro c member
  obtain ⟨small, lower⟩ := ascii c member
  constructor
  · rintro rfl
    exact absurd small (by decide)
  · rw [unicode.lower_ascii c small, lower]

/-- The tables within ASCII. -/
def ascii : Unicode where
  lowerChar c := if c = 'Σ' then ['σ'] else [c.toLower]
  isCased := Char.isAlpha
  isCaseIgnorable _ := false
  isAlnum := Char.isAlphanum
  lower_fixed := by
    intro c different d member
    rw [if_neg different, List.mem_singleton] at member
    subst d
    have still_different : c.toLower ≠ 'Σ' := by
      intro sigma
      obtain ⟨same, _⟩ | ⟨range, shifted⟩ := toLower_cases c
      · exact different (same.symm.trans sigma)
      · have : 'Σ'.toNat = 931 := by decide
        rw [sigma] at shifted
        omega
    refine ⟨still_different, ?_⟩
    rw [if_neg still_different, toLower_toLower]
  lower_sigma := by decide
  lower_ascii := by
    intro c small
    apply if_neg
    rintro rfl
    exact absurd small (by decide)
  alnum_ascii _ _ := rfl

end Unicode

end DataOlympus.Lines
