import DataOlympus.Text.Lines
import Mathlib.Data.List.DropRight

/-!
# Lines in the sense of Python

`str.splitlines` cuts a text at every line boundary of Unicode, takes a carriage return and the
line feed behind it for one, and has no last line that is empty.
-/

namespace DataOlympus.Lines

/-- A character that ends a line for `str.splitlines`. -/
def isLineBreak (c : Char) : Bool :=
  c.toNat ∈ [0x0a, 0x0b, 0x0c, 0x0d, 0x1c, 0x1d, 0x1e, 0x85, 0x2028, 0x2029]

/-- The lines of a text behind the letters read so far, which are kept in reverse. -/
def splitlinesAfter (letters : Text) : Text → List Text
  | [] => if letters.isEmpty then [] else [letters.reverse]
  | '\r' :: '\n' :: rest => letters.reverse :: splitlinesAfter [] rest
  | c :: rest =>
      if isLineBreak c then letters.reverse :: splitlinesAfter [] rest
      else splitlinesAfter (c :: letters) rest

/-- `str.splitlines()`. -/
def splitlines (text : Text) : List Text :=
  splitlinesAfter [] text

/-- A text on one line. -/
def OneLine (text : Text) : Prop :=
  ∀ c ∈ text, isLineBreak c = false

example : splitlines "a\r\nb\n\r\u2028c\n".toList =
    ["a".toList, "b".toList, [], [], "c".toList] := by
  decide

/-! ## One character after another -/

/-- Letters, in reverse, before the first line. -/
def glueLetters (letters : Text) : List Text → List Text
  | [] => if letters.isEmpty then [] else [letters.reverse]
  | line :: rest => (letters.reverse ++ line) :: rest

theorem splitlinesAfter_break {c : Char} (letters : Text) {rest : Text}
    (ends : isLineBreak c = true) (single : ∀ after, c = '\r' → rest ≠ '\n' :: after) :
    splitlinesAfter letters (c :: rest) = letters.reverse :: splitlinesAfter [] rest := by
  rw [splitlinesAfter]
  · rw [if_pos ends]
  · rintro after rfl behind
    exact single after rfl behind

theorem splitlinesAfter_plain {c : Char} (letters rest : Text) (plain : isLineBreak c = false) :
    splitlinesAfter letters (c :: rest) = splitlinesAfter (c :: letters) rest := by
  rw [splitlinesAfter]
  · rw [plain, if_neg Bool.false_ne_true]
  · rintro after rfl -
    cases plain

/-- A text is empty, or begins with a line boundary of two characters, with one of one
character, or with another character. -/
@[elab_as_elim]
theorem lines_induction {motive : Text → Prop} (nil : motive [])
    (crlf : ∀ rest, motive rest → motive ('\r' :: '\n' :: rest))
    (ends : ∀ c rest, isLineBreak c = true → (∀ after, c = '\r' → rest ≠ '\n' :: after) →
      motive rest → motive (c :: rest))
    (goes : ∀ c rest, isLineBreak c = false → motive rest → motive (c :: rest)) :
    ∀ text, motive text := by
  intro text
  refine splitlinesAfter.induct (fun _ text => motive text) ?_ ?_ ?_ ?_ ?_ [] text
  · intro letters _
    exact nil
  · intro letters _
    exact nil
  · intro letters rest ih
    exact crlf rest ih
  · intro letters c rest single breaks ih
    exact ends c rest breaks (fun after same behind => single after same behind) ih
  · intro letters c rest single plain ih
    exact goes c rest (Bool.eq_false_iff.mpr plain) ih

theorem splitlinesAfter_eq (letters text : Text) :
    splitlinesAfter letters text = glueLetters letters (splitlines text) := by
  unfold splitlines
  induction text using lines_induction generalizing letters with
  | nil => rfl
  | crlf rest ih =>
      rw [splitlinesAfter, splitlinesAfter]
      exact congrArg (· :: splitlinesAfter [] rest) (List.append_nil _).symm
  | ends c rest ends single ih =>
      rw [splitlinesAfter_break letters ends single, splitlinesAfter_break [] ends single]
      exact congrArg (· :: splitlinesAfter [] rest) (List.append_nil _).symm
  | goes c rest plain ih =>
      rw [splitlinesAfter_plain letters rest plain, splitlinesAfter_plain [] rest plain,
        ih (c :: letters), ih [c]]
      cases splitlinesAfter [] rest with
      | nil => simp [glueLetters]
      | cons line rest => simp [glueLetters]

/-- A line boundary of two characters. -/
theorem splitlines_crlf (rest : Text) :
    splitlines ('\r' :: '\n' :: rest) = [] :: splitlines rest :=
  rfl

/-- A line boundary of one character. -/
theorem splitlines_break {c : Char} {rest : Text} (ends : isLineBreak c = true)
    (single : ∀ after, c = '\r' → rest ≠ '\n' :: after) :
    splitlines (c :: rest) = [] :: splitlines rest :=
  splitlinesAfter_break [] ends single

/-- A character before the first line. -/
def consLine (c : Char) : List Text → List Text
  | [] => [[c]]
  | line :: rest => (c :: line) :: rest

/-- Another character belongs to the first line. -/
theorem splitlines_plain {c : Char} (plain : isLineBreak c = false) (rest : Text) :
    splitlines (c :: rest) = consLine c (splitlines rest) := by
  rw [splitlines, splitlinesAfter_plain [] rest plain, splitlinesAfter_eq]
  cases splitlines rest <;> rfl

/-- A line feed ends a line. -/
theorem splitlines_lf (rest : Text) : splitlines ('\n' :: rest) = [] :: splitlines rest := by
  apply splitlines_break
  · rfl
  · rintro after ⟨⟩

/-- A text on one line, and what follows its line feed. -/
theorem splitlines_append_lf {line : Text} (plain : OneLine line) (rest : Text) :
    splitlines (line ++ '\n' :: rest) = line :: splitlines rest := by
  induction line with
  | nil => exact splitlines_lf rest
  | cons c line ih =>
      obtain ⟨first, later⟩ := List.forall_mem_cons.mp plain
      rw [List.cons_append, splitlines_plain first, ih later, consLine]

/-- A text on one line is one line, unless it is empty. -/
theorem splitlines_of_oneLine {line : Text} (plain : OneLine line) (nonempty : line ≠ []) :
    splitlines line = [line] := by
  induction line with
  | nil => exact absurd rfl nonempty
  | cons c line ih =>
      obtain ⟨first, later⟩ := List.forall_mem_cons.mp plain
      rw [splitlines_plain first]
      cases line with
      | nil => rfl
      | cons next rest =>
          rw [ih later (List.cons_ne_nil next rest), consLine]

theorem mem_consLine {c d : Char} {lines : List Text} {line : Text}
    (member : line ∈ consLine c lines) (inside : d ∈ line) :
    d = c ∨ ∃ other ∈ lines, d ∈ other := by
  cases lines with
  | nil =>
      cases List.mem_singleton.mp member
      exact .inl (List.mem_singleton.mp inside)
  | cons first rest =>
      rcases List.mem_cons.mp member with rfl | later
      · rcases List.mem_cons.mp inside with here | there
        · exact .inl here
        · exact .inr ⟨first, List.mem_cons_self, there⟩
      · exact .inr ⟨line, List.mem_cons_of_mem first later, inside⟩

/-- The lines of a text have no line boundary inside. -/
theorem oneLine_of_mem_splitlines {text line : Text} (member : line ∈ splitlines text) :
    OneLine line := by
  induction text using lines_induction generalizing line with
  | nil => cases member
  | crlf rest ih =>
      rcases List.mem_cons.mp member with rfl | later
      · exact fun c inside => absurd inside List.not_mem_nil
      · exact ih later
  | ends c rest ends single ih =>
      rw [splitlines_break ends single] at member
      rcases List.mem_cons.mp member with rfl | later
      · exact fun c inside => absurd inside List.not_mem_nil
      · exact ih later
  | goes c rest plain ih =>
      rw [splitlines_plain plain] at member
      intro d inside
      rcases mem_consLine member inside with rfl | ⟨other, among, there⟩
      · exact plain
      · exact ih among d there

/-- A translation of characters that neither makes nor removes a line boundary works line by
line. -/
theorem splitlines_map {f : Char → Char}
    (visible : ∀ c, isLineBreak c = false → isLineBreak (f c) = false)
    (fixed : ∀ c, isLineBreak c = true → f c = c) (text : Text) :
    splitlines (text.map f) = (splitlines text).map (List.map f) := by
  induction text using lines_induction with
  | nil => rfl
  | crlf rest ih =>
      rw [List.map_cons, List.map_cons, fixed '\r' rfl, fixed '\n' rfl, splitlines_crlf,
        splitlines_crlf, ih]
      rfl
  | ends c rest ends single ih =>
      rw [splitlines_break ends single, List.map_cons, fixed c ends, splitlines_break ends, ih]
      · rfl
      · rintro after rfl start
        cases rest with
        | nil => cases start
        | cons d rest =>
            obtain ⟨made, -⟩ := List.cons.inj start
            cases known : isLineBreak d with
            | true =>
                rw [fixed d known] at made
                exact single rest rfl (by rw [made])
            | false =>
                have hidden := visible d known
                rw [made] at hidden
                cases hidden
  | goes c rest plain ih =>
      rw [splitlines_plain plain, List.map_cons, splitlines_plain (visible c plain), ih]
      cases splitlines rest <;> rfl

/-! ## Lines that are not blank -/

/-- `not line.strip()`. -/
def isBlank (line : Text) : Bool :=
  (strip line).isEmpty

theorem isBlank_iff {line : Text} : isBlank line = true ↔ ∀ c ∈ line, isSpace c = true := by
  rw [isBlank, List.isEmpty_iff]
  constructor
  · intro empty c member
    by_contra visible
    have kept := mem_strip_of_visible (Bool.eq_false_iff.mpr visible) member
    rw [empty] at kept
    cases kept
  · intro spaces
    have none : line.dropWhile isSpace = [] := List.dropWhile_eq_nil_iff.mpr spaces
    rw [strip, none]
    rfl

/-- The lines of a text that are not blank. -/
def visibleLines (text : Text) : List Text :=
  (splitlines text).filter fun line => !isBlank line

/-- `text.strip("\n")`. -/
def stripNewlines (text : Text) : Text :=
  (text.dropWhile (· = '\n')).rdropWhile (· = '\n')

/-- What is dropped at the end of a text leaves the part before that keeps its own end. -/
theorem rdropWhile_append {p : Char → Bool} {first : Text} (kept : first.rdropWhile p = first)
    (more : Text) : (first ++ more).rdropWhile p = first ++ more.rdropWhile p := by
  induction more using List.reverseRecOn with
  | nil => simpa using kept
  | append_singleton more c ih =>
      rw [← List.append_assoc]
      by_cases drops : p c = true
      · rw [List.rdropWhile_concat_pos _ _ _ drops, List.rdropWhile_concat_pos _ _ _ drops, ih]
      · rw [List.rdropWhile_concat_neg _ _ _ drops, List.rdropWhile_concat_neg _ _ _ drops,
          List.append_assoc]

/-- Stripping line feeds leaves a line in front. -/
theorem stripNewlines_append {line : Text} (plain : OneLine line) (nonempty : line ≠ [])
    (more : Text) : stripNewlines (line ++ more) = line ++ more.rdropWhile (· = '\n') := by
  have visible : ∀ c ∈ line, decide (c = '\n') ≠ true := by
    intro c member feed
    have ends := plain c member
    rw [of_decide_eq_true feed] at ends
    cases ends
  have front : (line ++ more).dropWhile (· = '\n') = line ++ more := by
    obtain ⟨c, rest, rfl⟩ := List.exists_cons_of_ne_nil nonempty
    exact List.dropWhile_cons_of_neg (visible c List.mem_cons_self)
  rw [stripNewlines, front]
  apply rdropWhile_append
  rw [List.rdropWhile_eq_self_iff]
  intro some
  exact visible _ (List.getLast_mem some)

/-- A line feed at the end adds an empty line, or none. -/
theorem splitlines_concat_lf (text : Text) : splitlines (text ++ ['\n']) = splitlines text ∨
    splitlines (text ++ ['\n']) = splitlines text ++ [[]] := by
  induction text using lines_induction with
  | nil => exact .inr rfl
  | crlf rest ih =>
      rw [List.cons_append, List.cons_append, splitlines_crlf, splitlines_crlf]
      rcases ih with same | more
      · exact .inl (congrArg _ same)
      · exact .inr (congrArg _ more)
  | ends c rest ends single ih =>
      rw [List.cons_append, splitlines_break ends single]
      cases rest with
      | nil =>
          by_cases carriage : c = '\r'
          · subst carriage
            exact .inl rfl
          · rw [splitlines_break ends fun after same => absurd same carriage]
            exact .inr rfl
      | cons d rest =>
          have alone : ∀ after, c = '\r' → d :: rest ++ ['\n'] ≠ '\n' :: after := by
            rintro after same behind
            obtain ⟨rfl, -⟩ := List.cons.inj behind
            exact single rest same rfl
          rw [splitlines_break ends alone]
          rcases ih with same | more
          · exact .inl (congrArg _ same)
          · exact .inr (congrArg _ more)
  | goes c rest plain ih =>
      rw [List.cons_append, splitlines_plain plain, splitlines_plain plain]
      rcases ih with same | more
      · exact .inl (congrArg _ same)
      · rw [more]
        cases splitlines rest with
        | nil => exact .inl rfl
        | cons line rest => exact .inr rfl

/-- Line feeds around a text do not matter to its visible lines. -/
theorem visibleLines_stripNewlines (text : Text) :
    visibleLines (stripNewlines text) = visibleLines text := by
  have behind : ∀ text, visibleLines (text.rdropWhile (· = '\n')) = visibleLines text := by
    intro text
    induction text using List.reverseRecOn with
    | nil => rfl
    | append_singleton text c ih =>
        by_cases feed : c = '\n'
        · subst feed
          rw [List.rdropWhile_concat_pos _ _ _ (by decide), ih]
          unfold visibleLines
          rcases splitlines_concat_lf text with same | more
          · rw [same]
          · rw [more, List.filter_append]
            exact (List.append_nil _).symm
        · rw [List.rdropWhile_concat_neg _ _ _ (by simpa using feed)]
  have before : ∀ text, visibleLines (text.dropWhile (· = '\n')) = visibleLines text := by
    intro text
    induction text with
    | nil => rfl
    | cons c rest ih =>
        by_cases feed : c = '\n'
        · subst feed
          rw [List.dropWhile_cons_of_pos (by decide), ih, visibleLines, visibleLines,
            splitlines_lf]
          rfl
        · rw [List.dropWhile_cons_of_neg (by simpa using feed)]
  rw [stripNewlines, behind, before]

/-- The visible lines of glued lines. -/
theorem visibleLines_joinLines {lines : List Text} (plain : ∀ line ∈ lines, OneLine line) :
    visibleLines (joinLines lines) = lines.filter fun line => !isBlank line := by
  induction lines with
  | nil => rfl
  | cons line rest ih =>
      obtain ⟨first, later⟩ := List.forall_mem_cons.mp plain
      cases rest with
      | nil =>
          cases line with
          | nil => rfl
          | cons c line =>
              have glued : joinLines [c :: line] = c :: line := by
                simp [joinLines, List.intercalate]
              rw [glued, visibleLines, splitlines_of_oneLine first (List.cons_ne_nil c line)]
      | cons next rest =>
          have glued : joinLines (line :: next :: rest) =
              line ++ '\n' :: joinLines (next :: rest) := by
            rw [joinLines, List.intercalate_cons_of_ne_nil (List.cons_ne_nil next rest),
              List.append_assoc]
            rfl
          rw [glued, visibleLines, splitlines_append_lf first, List.filter_cons,
            List.filter_cons]
          have others := ih later
          rw [visibleLines] at others
          rw [others]

end DataOlympus.Lines
