import Mathlib.Data.List.Basic
import Mathlib.Data.List.TakeWhile

/-!
# Lines of a text

A text is a list of Unicode scalar values, which is what a UTF-8 file holds.
This leaf module supplies cutting a text at its line feeds, gluing the pieces
back together, stripping white space from both ends, and the translation of
carriage returns that a text-mode read performs.
-/

namespace DataOlympus.Lines

/-- A text that can be encoded in UTF-8. -/
abbrev Text : Type := List Char

instance : LawfulBEq Text :=
  inferInstanceAs (LawfulBEq (List Char))

/-- The pieces of a text between its line feeds. -/
def splitLines (text : Text) : List Text :=
  text.splitOn '\n'

/-- The text whose pieces between line feeds are `lines`. -/
def joinLines (lines : List Text) : Text :=
  ['\n'].intercalate lines

/-- Text glued to a nonempty last piece is not empty. -/
theorem intercalate_concat_ne_nil (separator : Text) (pieces : List Text) {last : Text}
    (nonempty : last ≠ []) : separator.intercalate (pieces ++ [last]) ≠ [] := by
  induction pieces with
  | nil => simpa using nonempty
  | cons piece pieces ih =>
      rw [List.cons_append, List.intercalate_cons_of_ne_nil (by simp)]
      exact List.append_ne_nil_of_right_ne_nil _ ih

/-- A piece of a glued text stands between separators. -/
theorem exists_intercalate (separator : Text) {pieces : List Text} {piece : Text}
    (member : piece ∈ pieces) : ∃ first last,
      separator.intercalate pieces = first ++ (piece ++ last) ∧
        (first = [] ∨ ∃ start, first = start ++ separator) ∧
        (last = [] ∨ ∃ rest, last = separator ++ rest) := by
  induction pieces with
  | nil => exact absurd member List.not_mem_nil
  | cons head pieces ih =>
      cases pieces with
      | nil =>
          cases List.mem_singleton.mp member
          exact ⟨[], [], by simp [List.intercalate], .inl rfl, .inl rfl⟩
      | cons next rest =>
          rw [List.intercalate_cons_of_ne_nil (List.cons_ne_nil next rest)]
          obtain rfl | later := List.mem_cons.mp member
          · exact ⟨[], separator ++ separator.intercalate (next :: rest), by simp, .inl rfl,
              .inr ⟨_, rfl⟩⟩
          · obtain ⟨first, last, glued, before, after⟩ := ih later
            refine ⟨head ++ separator ++ first, last, by simp [glued], .inr ?_, after⟩
            obtain rfl | ⟨start, rfl⟩ := before
            · exact ⟨head, List.append_nil _⟩
            · exact ⟨head ++ separator ++ start, by simp⟩

/-- The pieces of a text between the separators have no separator. -/
theorem separator_not_mem_of_mem_splitOn {α : Type} [DecidableEq α] {separator : α}
    {items piece : List α} (member : piece ∈ items.splitOn separator) : separator ∉ piece := by
  induction items generalizing piece with
  | nil =>
      cases List.mem_singleton.mp member
      exact List.not_mem_nil
  | cons item rest ih =>
      rw [List.splitOn_cons_eq_if_modifyHead] at member
      obtain ⟨first, later, pieces⟩ :=
        List.exists_cons_of_ne_nil (List.splitOn_ne_nil separator rest)
      have known : ∀ piece ∈ first :: later, separator ∉ piece := by
        intro piece among
        rw [← pieces] at among
        exact ih among
      rw [pieces] at member
      split at member
      · rcases List.mem_cons.mp member with rfl | among
        · exact List.not_mem_nil
        · exact known piece among
      · rename_i visible
        rcases List.mem_cons.mp member with rfl | among
        · rintro (_ | ⟨_, inside⟩)
          · exact visible (by simp)
          · exact known first List.mem_cons_self inside
        · exact known piece (List.mem_cons_of_mem _ among)

/-- A character of glued lines is in one of them, or glues them. -/
theorem mem_joinLines {lines : List Text} {c : Char} (member : c ∈ joinLines lines) :
    (∃ line ∈ lines, c ∈ line) ∨ c = '\n' := by
  induction lines with
  | nil => cases member
  | cons first rest ih =>
      cases rest with
      | nil => exact .inl ⟨first, List.mem_singleton_self first, by simpa [joinLines] using member⟩
      | cons next rest =>
          rw [joinLines, List.intercalate_cons_of_ne_nil (List.cons_ne_nil next rest)] at member
          rcases List.mem_append.mp member with start | later
          · rcases List.mem_append.mp start with here | glue
            · exact .inl ⟨first, List.mem_cons_self, here⟩
            · exact .inr (List.mem_singleton.mp glue)
          · rcases ih later with ⟨line, among, here⟩ | glue
            · exact .inl ⟨line, List.mem_cons_of_mem first among, here⟩
            · exact .inr glue

/-- White space in the sense of `str.isspace`, restricted to single
characters. -/
def isSpace (c : Char) : Bool :=
  c.toNat ∈ [0x09, 0x0a, 0x0b, 0x0c, 0x0d, 0x1c, 0x1d, 0x1e, 0x1f, 0x20, 0x85,
    0xa0, 0x1680, 0x2000, 0x2001, 0x2002, 0x2003, 0x2004, 0x2005, 0x2006, 0x2007,
    0x2008, 0x2009, 0x200a, 0x2028, 0x2029, 0x202f, 0x205f, 0x3000]

/-- Remove white space from both ends. -/
def strip (text : Text) : Text :=
  ((text.dropWhile isSpace).reverse.dropWhile isSpace).reverse

/-- Stripping removes only white space. -/
theorem mem_strip_of_visible {c : Char} {text : Text} (visible : isSpace c = false)
    (member : c ∈ text) : c ∈ strip text := by
  have kept : ∀ {letters : Text}, c ∈ letters → c ∈ letters.dropWhile isSpace := by
    intro letters
    induction letters with
    | nil => exact id
    | cons first rest ih =>
        intro among
        rw [List.dropWhile_cons]
        split
        · rename_i space
          rcases List.mem_cons.mp among with rfl | later
          · rw [visible] at space
            cases space
          · exact ih later
        · exact among
  rw [strip, List.mem_reverse]
  apply kept
  rw [List.mem_reverse]
  exact kept member

/-- The loop of `str.split()`: the words of `text` behind the letters read so far, which
are kept in reverse. -/
def wordsAfter {α : Type} (blank : α → Bool) (letters : List α) : List α → List (List α)
  | [] => if letters.isEmpty then [] else [letters.reverse]
  | c :: rest =>
      if blank c then
        if letters.isEmpty then wordsAfter blank [] rest
        else letters.reverse :: wordsAfter blank [] rest
      else wordsAfter blank (c :: letters) rest

/-- The maximal runs without blanks. -/
def words {α : Type} (blank : α → Bool) (text : List α) : List (List α) :=
  wordsAfter blank [] text

/-- Only blanks have no word. -/
theorem all_blank_of_wordsAfter_eq_nil {α : Type} {blank : α → Bool} {letters text : List α}
    (none : wordsAfter blank letters text = []) :
    letters = [] ∧ ∀ c ∈ text, blank c = true := by
  induction text generalizing letters with
  | nil =>
      unfold wordsAfter at none
      split at none
      · rename_i empty
        exact ⟨List.isEmpty_iff.mp empty, nofun⟩
      · cases none
  | cons c rest ih =>
      unfold wordsAfter at none
      split at none
      · rename_i isBlank
        split at none
        · rename_i empty
          have others := (ih none).2
          exact ⟨List.isEmpty_iff.mp empty, List.forall_mem_cons.mpr ⟨isBlank, others⟩⟩
        · cases none
      · cases (ih none).1

/-- A text with something left after stripping has a word. -/
theorem words_ne_nil_of_strip_ne_nil {text : Text} (something : strip text ≠ []) :
    words isSpace text ≠ [] := by
  intro none
  apply something
  have blanks := (all_blank_of_wordsAfter_eq_nil none).2
  have dropped : text.dropWhile isSpace = [] := List.dropWhile_eq_nil_iff.mpr blanks
  rw [strip, dropped]
  rfl

/-- Universal-newline translation: `\r\n` and a lone `\r` are read as `\n`. -/
def universalNewlines : Text → Text
  | [] => []
  | '\r' :: '\n' :: rest => '\n' :: universalNewlines rest
  | '\r' :: rest => '\n' :: universalNewlines rest
  | c :: rest => c :: universalNewlines rest

@[simp]
theorem universalNewlines_nil : universalNewlines [] = [] :=
  rfl

theorem universalNewlines_cons_of_ne {c : Char} (rest : Text) (notReturn : c ≠ '\r') :
    universalNewlines (c :: rest) = c :: universalNewlines rest := by
  rw [universalNewlines.eq_def]
  split <;> simp_all

/-- A text without carriage returns is read as it is. -/
theorem universalNewlines_of_no_return {text : Text} (noReturn : '\r' ∉ text) :
    universalNewlines text = text := by
  induction text with
  | nil => rfl
  | cons c rest ih =>
      simp only [List.mem_cons, not_or] at noReturn
      rw [universalNewlines_cons_of_ne rest (Ne.symm noReturn.1), ih noReturn.2]

/-- Newline translation of what follows a text without carriage returns. -/
theorem universalNewlines_append_of_no_return {first : Text} (noReturn : '\r' ∉ first)
    (rest : Text) : universalNewlines (first ++ rest) = first ++ universalNewlines rest := by
  induction first with
  | nil => rfl
  | cons c first ih =>
      simp only [List.mem_cons, not_or] at noReturn
      rw [List.cons_append, universalNewlines_cons_of_ne _ (Ne.symm noReturn.1),
        ih noReturn.2, List.cons_append]

/-- A translated text has no carriage return left. -/
theorem no_return_universalNewlines (text : Text) :
    '\r' ∉ universalNewlines text := by
  induction text using universalNewlines.induct with
  | case1 => simp
  | case2 rest ih => simpa [universalNewlines] using ih
  | case3 rest notPair ih =>
      rw [universalNewlines.eq_3 _ notPair]
      simpa using ih
  | case4 c rest notPair notReturn ih =>
      rw [universalNewlines.eq_4 _ _ notPair notReturn]
      simp only [List.mem_cons, not_or]
      exact ⟨fun same => notReturn same.symm, ih⟩

/-- Reading a translated text again changes nothing. -/
@[simp]
theorem universalNewlines_universalNewlines (text : Text) :
    universalNewlines (universalNewlines text) = universalNewlines text :=
  universalNewlines_of_no_return (no_return_universalNewlines text)

end DataOlympus.Lines
