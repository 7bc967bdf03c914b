import DataOlympus.Text.Lines
import Mathlib.Data.List.Infix

/-!
# Finding texts in texts

Whole words between word boundaries, file name patterns, and the quoted spans of a text.
-/

namespace DataOlympus.Lines

/-! ## Substrings -/

/-- `text.find(needle)`, where `none` is `-1`. -/
def find (needle : Text) : Text → Option Nat
  | [] => if needle.isEmpty then some 0 else none
  | c :: rest =>
      if needle.isPrefixOf (c :: rest) then some 0 else (find needle rest).map (· + 1)

/-- The text around what is found. -/
theorem eq_append_of_find {needle text : Text} {place : Nat} (found : find needle text = some place) :
    ∃ after, text = text.take place ++ needle ++ after := by
  induction text generalizing place with
  | nil =>
      rw [find] at found
      split at found
      · rename_i empty
        cases found
        rw [List.isEmpty_iff.mp empty]
        exact ⟨[], rfl⟩
      · cases found
  | cons c rest ih =>
      rw [find] at found
      split at found
      · rename_i leading
        cases found
        obtain ⟨after, split⟩ := List.isPrefixOf_iff_prefix.mp leading
        exact ⟨after, split.symm⟩
      · obtain ⟨later, here, rfl⟩ := Option.map_eq_some_iff.mp found
        obtain ⟨after, split⟩ := ih here
        refine ⟨after, ?_⟩
        rw [List.take_succ_cons, List.cons_append, List.cons_append, ← split]

/-- What occurs is found, there or further left. -/
theorem exists_find_le {needle before after : Text} :
    ∃ place ≤ before.length, find needle (before ++ needle ++ after) = some place := by
  induction before with
  | nil =>
      refine ⟨0, Nat.le_refl _, ?_⟩
      rw [List.nil_append]
      cases whole : needle ++ after with
      | nil =>
          rw [find, (List.append_eq_nil_iff.mp whole).1]
          rfl
      | cons c rest =>
          rw [find, ← whole, if_pos (List.isPrefixOf_iff_prefix.mpr (List.prefix_append _ _))]
  | cons c before ih =>
      obtain ⟨place, bound, found⟩ := ih
      rw [List.cons_append, List.cons_append, find]
      split
      · exact ⟨0, Nat.zero_le _, rfl⟩
      · refine ⟨place + 1, by simpa using bound, ?_⟩
        rw [found]
        rfl

/-! ## Words -/

section Words

variable (isWord : Char → Bool)

/-- `\b` between two characters, either of which may be missing. -/
def wordBoundary (before after : Option Char) : Bool :=
  before.any isWord != after.any isWord

/-- `\b`, the word and `\b` match where `rest` begins, behind the character `before`. -/
def wordAt (word : Text) (before : Option Char) (rest : Text) : Bool :=
  wordBoundary isWord before rest.head? && word.isPrefixOf rest &&
    wordBoundary isWord (word.getLast?.or before) (rest.drop word.length).head?

/-- The search for a match from the left, behind the character `before`. -/
def searchWord (word : Text) (before : Option Char) : Text → Bool
  | [] => wordAt isWord word before []
  | c :: rest => wordAt isWord word before (c :: rest) || searchWord word (some c) rest

variable {isWord}

/-- A match anywhere in the text is found. -/
theorem searchWord_append {word : Text} {before : Option Char} (skipped : Text) {rest : Text}
    (here : wordAt isWord word (skipped.getLast?.or before) rest = true) :
    searchWord isWord word before (skipped ++ rest) = true := by
  induction skipped generalizing before with
  | nil =>
      cases rest with
      | nil => exact here
      | cons c rest => exact Bool.or_eq_true_iff.mpr (.inl here)
  | cons c skipped ih =>
      have last : (c :: skipped).getLast?.or before = skipped.getLast?.or (some c) := by
        rw [List.getLast?_cons]
        cases skipped.getLast? <;> rfl
      rw [List.cons_append, searchWord, Bool.or_eq_true]
      right
      apply ih
      rw [← last]
      exact here

variable (isWord) in
/-- A word begins and ends with a word character. -/
def hasWordEdges (word : Text) : Bool :=
  word.head?.any isWord && word.getLast?.any isWord

/-- A word with such edges is found between other characters. -/
theorem searchWord_between {word skipped rest : Text} (edges : hasWordEdges isWord word = true)
    (before : skipped.getLast?.any isWord = false) (after : rest.head?.any isWord = false) :
    searchWord isWord word none (skipped ++ (word ++ rest)) = true := by
  obtain ⟨first, last⟩ := Bool.and_eq_true_iff.mp edges
  have nonempty : word ≠ [] := by
    rintro rfl
    cases first
  apply searchWord_append
  have head : (word ++ rest).head? = word.head? := by
    cases word with
    | nil => exact absurd rfl nonempty
    | cons c word => rfl
  have ending : word.getLast?.or (skipped.getLast?.or none) = word.getLast? := by
    cases found : word.getLast? with
    | none => exact absurd (List.getLast?_eq_none_iff.mp found) nonempty
    | some c => rfl
  unfold wordAt wordBoundary
  rw [head, ending, List.drop_left, List.isPrefixOf_iff_prefix.mpr (List.prefix_append word rest),
    Option.or_none, first, last, before, after]
  rfl

/-- A shorter text holds no match. -/
theorem searchWord_of_length_lt {word text : Text} {before : Option Char}
    (short : text.length < word.length) : searchWord isWord word before text = false := by
  have no_match : ∀ (behind : Option Char) (rest : Text), rest.length < word.length →
      wordAt isWord word behind rest = false := by
    intro behind rest shorter
    have unmatched : word.isPrefixOf rest = false := by
      rw [← Bool.not_eq_true, List.isPrefixOf_iff_prefix]
      intro starts
      exact absurd starts.length_le (Nat.not_le_of_lt shorter)
    unfold wordAt
    rw [unmatched, Bool.and_false, Bool.false_and]
  induction text generalizing before with
  | nil => exact no_match before [] short
  | cons c rest ih =>
      rw [searchWord, no_match before _ short, ih (Nat.lt_of_succ_lt short)]
      rfl

/-- A word stands alone exactly if it has such edges. -/
theorem searchWord_self {word : Text} :
    searchWord isWord word none word = hasWordEdges isWord word := by
  have here : wordAt isWord word none word = hasWordEdges isWord word := by
    unfold wordAt wordBoundary hasWordEdges
    rw [List.isPrefixOf_iff_prefix.mpr (List.prefix_refl word), List.drop_length, Option.or_none]
    simp
  cases word with
  | nil => rfl
  | cons c rest =>
      rw [searchWord, here, searchWord_of_length_lt (Nat.lt_succ_self _), Bool.or_false]

/-- Cutting a text behind a word leaves it, and cutting the word does not. -/
theorem searchWord_take_self {word : Text} {count : Nat} :
    searchWord isWord word none (word.take count) = true ↔
      hasWordEdges isWord word = true ∧ word.length ≤ count := by
  by_cases fits : word.length ≤ count
  · rw [List.take_of_length_le fits, searchWord_self]
    exact (and_iff_left fits).symm
  · have short : (word.take count).length < word.length := by
      rw [List.length_take]
      omega
    rw [searchWord_of_length_lt short]
    exact iff_of_false Bool.false_ne_true fun both => fits both.2

end Words

/-! ## File name patterns -/

/-- The members of a bracket expression. -/
def inRanges (c : Char) : Text → Bool
  | low :: '-' :: high :: rest =>
      (low.toNat ≤ c.toNat && c.toNat ≤ high.toNat) || inRanges c rest
  | single :: rest => single = c || inRanges c rest
  | [] => false

/-- What stands between the brackets, and the pattern behind them.  A bracket right
after the opening one, or after its `!`, belongs to the expression. -/
def bracket (pattern : Text) : Option (Text × Text) :=
  let (head, body) := match pattern with
    | '!' :: ']' :: rest => (['!', ']'], rest)
    | '!' :: rest => (['!'], rest)
    | ']' :: rest => ([']'], rest)
    | rest => ([], rest)
  match body.span (· ≠ ']') with
  | (inside, _ :: rest) => some (head ++ inside, rest)
  | (_, []) => none

/-- A character matches a bracket expression. -/
def inBracket (c : Char) : Text → Bool
  | '!' :: members => !inRanges c members
  | members => inRanges c members

/-- `fnmatch.fnmatch(name, pattern)` where file names are case sensitive, for as many steps
as the two texts are long. -/
def fnmatchFor : Nat → Text → Text → Bool
  | 0, _, _ => false
  | _ + 1, [], name => name.isEmpty
  | fuel + 1, '*' :: pattern, name =>
      fnmatchFor fuel pattern name ||
        match name with
        | [] => false
        | _ :: rest => fnmatchFor fuel ('*' :: pattern) rest
  | _ + 1, _ :: _, [] => false
  | fuel + 1, '?' :: pattern, _ :: rest => fnmatchFor fuel pattern rest
  | fuel + 1, '[' :: pattern, c :: rest =>
      match bracket pattern with
      | some (members, further) => inBracket c members && fnmatchFor fuel further rest
      | none => c = '[' && fnmatchFor fuel pattern rest
  | fuel + 1, d :: pattern, c :: rest => c = d && fnmatchFor fuel pattern rest

def fnmatch (name pattern : Text) : Bool :=
  fnmatchFor (name.length + pattern.length + 1) pattern name

/-! ## Quoted spans -/

def isQuote (c : Char) : Bool :=
  c = '\'' || c = '"' || c = '\x60'

/-- The contents of the quoted spans from left to right: a quote character, at least one
other character, and the same quote character again. -/
def quotedSpansFor : Nat → Text → List Text
  | 0, _ => []
  | _ + 1, [] => []
  | fuel + 1, c :: rest =>
      if isQuote c then
        match rest.span (· ≠ c) with
        | (first :: inside, _ :: further) => (first :: inside) :: quotedSpansFor fuel further
        | _ => quotedSpansFor fuel rest
      else quotedSpansFor fuel rest

def quotedSpans (text : Text) : List Text :=
  quotedSpansFor text.length text

/-- The contents of the first quoted span are found. -/
theorem mem_quotedSpans {before inside after : Text} {q : Char} (plain : before.all fun c => !isQuote c)
    (quoting : isQuote q = true) (nonempty : inside ≠ []) (absent : q ∉ inside) :
    inside ∈ quotedSpans (before ++ q :: (inside ++ q :: after)) := by
  have found : ∀ fuel, before.length < fuel →
      inside ∈ quotedSpansFor fuel (before ++ q :: (inside ++ q :: after)) := by
    induction before with
    | nil =>
        intro fuel enough
        obtain ⟨fuel, rfl⟩ := Nat.exists_eq_succ_of_ne_zero (Nat.ne_of_gt enough)
        have cut : (inside ++ q :: after).span (· ≠ q) = (inside, q :: after) := by
          rw [List.span_eq_takeWhile_dropWhile]
          have differs : ∀ c ∈ inside, decide (c ≠ q) = true := by
            intro c member
            apply decide_eq_true
            rintro rfl
            exact absent member
          rw [List.takeWhile_append_of_pos differs, List.dropWhile_append_of_pos differs]
          simp
        rw [List.nil_append, quotedSpansFor, if_pos quoting, cut]
        cases inside with
        | nil => exact absurd rfl nonempty
        | cons c rest => exact List.mem_cons_self
    | cons c before ih =>
        intro fuel enough
        rw [List.all_cons, Bool.and_eq_true, Bool.not_eq_true'] at plain
        obtain ⟨fuel, rfl⟩ := Nat.exists_eq_succ_of_ne_zero (Nat.ne_of_gt (Nat.zero_lt_of_lt enough))
        rw [List.cons_append, quotedSpansFor, plain.1]
        exact ih plain.2 fuel (Nat.lt_of_succ_lt_succ enough)
  apply found
  rw [List.length_append, List.length_cons]
  omega

end DataOlympus.Lines
