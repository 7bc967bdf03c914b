import DataOlympus.Text.Splitlines
import Mathlib.Algebra.BigOperators.Group.List.Basic
import Mathlib.Algebra.Ring.Nat
import Mathlib.Tactic.IntervalCases

/-!
# Listings of paths

How git prints a path on a line of its own, and how the lines are read back with
`str.splitlines` and `str.strip`.
-/

namespace DataOlympus.Lines

/-! ## Quoting -/

/-- A character of ASCII that is not a control character. -/
def isPrintable (c : Char) : Bool :=
  0x20 ≤ c.toNat && c.toNat ≤ 0x7e

/-- Git prints the character as it is. -/
def isUnquoted (c : Char) : Bool :=
  isPrintable c && c ≠ '"' && c ≠ '\\'

/-- A byte as three octal digits. -/
def octal (byte : UInt8) : Text :=
  ['\\', Nat.digitChar (byte.toNat / 64 % 8), Nat.digitChar (byte.toNat / 8 % 8),
    Nat.digitChar (byte.toNat % 8)]

/-- A character within quotes. -/
def escape (c : Char) : Text :=
  if isUnquoted c then [c]
  else match c with
    | '"' => ['\\', '"']
    | '\\' => ['\\', '\\']
    | '\x07' => ['\\', 'a']
    | '\x08' => ['\\', 'b']
    | '\t' => ['\\', 't']
    | '\n' => ['\\', 'n']
    | '\x0b' => ['\\', 'v']
    | '\x0c' => ['\\', 'f']
    | '\r' => ['\\', 'r']
    | other => (String.utf8EncodeChar other).flatMap octal

/-- The path as git prints it under `core.quotePath`. -/
def quotePath (path : Text) : Text :=
  if path.all isUnquoted then path else '"' :: (path.flatMap escape ++ ['"'])

/-! ## Reading lines -/

/-- The names that are read from a listing of paths. -/
def listedNames (paths : List Text) : List Text :=
  let printed := universalNewlines (paths.flatMap fun path => quotePath path ++ ['\n'])
  (splitlines printed).map strip |>.filter fun name => !name.isEmpty

example : listedNames ["a b.md".toList, "é.md".toList] =
    ["a b.md".toList, "\"\\303\\251.md\"".toList] := by
  decide

/-! ## What is read back -/

variable {c : Char} {path text : Text} {paths lines : List Text}

theorem isPrintable_of_isUnquoted (unquoted : isUnquoted c = true) : isPrintable c = true := by
  unfold isUnquoted at unquoted
  simp only [Bool.and_eq_true] at unquoted
  exact unquoted.1.1

theorem isPrintable_digitChar {digit : Nat} (small : digit < 8) :
    isPrintable (Nat.digitChar digit) = true := by
  interval_cases digit <;> rfl

theorem isPrintable_of_mem_octal {byte : UInt8} (member : c ∈ octal byte) :
    isPrintable c = true := by
  simp only [octal, List.mem_cons, List.not_mem_nil, or_false] at member
  obtain rfl | rfl | rfl | rfl := member
  · rfl
  all_goals exact isPrintable_digitChar (Nat.mod_lt _ (by decide))

/-- What stands between quotes is printable. -/
theorem isPrintable_of_mem_escape {d : Char} (member : d ∈ escape c) : isPrintable d = true := by
  unfold escape at member
  split at member
  · rename_i unquoted
    rw [List.mem_singleton.mp member]
    exact isPrintable_of_isUnquoted unquoted
  · split at member
    case h_10 =>
      obtain ⟨byte, -, digit⟩ := List.mem_flatMap.mp member
      exact isPrintable_of_mem_octal digit
    all_goals
      simp only [List.mem_cons, List.not_mem_nil, or_false] at member
      obtain rfl | rfl := member <;> rfl

/-- A printed path is printable. -/
theorem isPrintable_of_mem_quotePath (member : c ∈ quotePath path) : isPrintable c = true := by
  unfold quotePath at member
  split at member
  · rename_i unquoted
    exact isPrintable_of_isUnquoted (List.all_eq_true.mp unquoted c member)
  · simp only [List.mem_cons, List.mem_append, List.mem_flatMap, List.not_mem_nil, or_false]
      at member
    obtain rfl | ⟨d, -, escaped⟩ | rfl := member
    · rfl
    · exact isPrintable_of_mem_escape escaped
    · rfl

theorem not_isLineBreak_of_isPrintable (printable : isPrintable c = true) :
    isLineBreak c = false := by
  unfold isPrintable at printable
  unfold isLineBreak
  simp only [Bool.and_eq_true, decide_eq_true_eq] at printable
  simp only [List.mem_cons, List.not_mem_nil, or_false, decide_eq_false_iff_not]
  omega

theorem isSpace_of_isPrintable (printable : isPrintable c = true) :
    isSpace c = true ↔ c = ' ' := by
  unfold isPrintable at printable
  simp only [Bool.and_eq_true, decide_eq_true_eq] at printable
  unfold isSpace
  simp only [List.mem_cons, List.not_mem_nil, or_false, decide_eq_true_eq]
  constructor
  · intro space
    apply Char.toNat_inj.mp
    change c.toNat = 32
    omega
  · rintro rfl
    decide

/-- Lines without line breaks are read back. -/
theorem splitlines_lines (unbroken : ∀ line ∈ lines, ∀ c ∈ line, isLineBreak c = false) :
    splitlines (lines.flatMap fun line => line ++ ['\n']) = lines := by
  have reads : ∀ (line letters rest : Text), (∀ c ∈ line, isLineBreak c = false) →
      splitlinesAfter letters (line ++ '\n' :: rest) =
        (letters.reverse ++ line) :: splitlinesAfter [] rest := by
    intro line
    induction line with
    | nil =>
        intro letters rest _
        rw [List.nil_append, List.append_nil]
        rfl
    | cons c line ih =>
        intro letters rest unbroken
        obtain ⟨here, further⟩ := List.forall_mem_cons.mp unbroken
        have no_return : c ≠ '\r' := by
          rintro rfl
          cases here
        have step : splitlinesAfter letters (c :: (line ++ '\n' :: rest)) =
            splitlinesAfter (c :: letters) (line ++ '\n' :: rest) := by
          rw [splitlinesAfter.eq_def]
          split <;> simp_all
        rw [List.cons_append, step, ih _ _ further, List.reverse_cons, List.append_assoc]
        rfl
  unfold splitlines
  induction lines with
  | nil => rfl
  | cons line lines ih =>
      obtain ⟨here, further⟩ := List.forall_mem_cons.mp unbroken
      rw [List.flatMap_cons, List.append_assoc, List.singleton_append, reads line [] _ here,
        ih further]
      rfl

/-- The names that are read are the printed paths without the spaces around them. -/
theorem listedNames_eq :
    listedNames paths = (paths.map fun path => strip (quotePath path)).filter
      fun name => !name.isEmpty := by
  have no_return : '\r' ∉ paths.flatMap fun path => quotePath path ++ ['\n'] := by
    intro member
    obtain ⟨path, -, printed⟩ := List.mem_flatMap.mp member
    obtain printed | newline := List.mem_append.mp printed
    · exact absurd (isPrintable_of_mem_quotePath printed) (by decide)
    · exact absurd newline (by decide)
  unfold listedNames
  simp only [universalNewlines_of_no_return no_return]
  have lines : (paths.flatMap fun path => quotePath path ++ ['\n']) =
      (paths.map quotePath).flatMap fun line => line ++ ['\n'] := by
    rw [List.flatMap_map]
  rw [lines, splitlines_lines, List.map_map]
  · rfl
  · intro line member c printed
    obtain ⟨path, -, rfl⟩ := List.mem_map.mp member
    exact not_isLineBreak_of_isPrintable (isPrintable_of_mem_quotePath printed)

/-! ## Paths that are read back as they are -/

/-- A path of printable characters without quotes and backslashes, and without spaces around
it. -/
def plainPath (path : Text) : Bool :=
  path.all isUnquoted && path.head? ≠ some ' ' && path.getLast? ≠ some ' '

theorem strip_sublist (text : Text) : (strip text).Sublist text := by
  have dropped : ((text.dropWhile isSpace).reverse.dropWhile isSpace).Sublist
      (text.dropWhile isSpace).reverse :=
    List.dropWhile_sublist _
  have reversed := dropped.reverse
  rw [List.reverse_reverse] at reversed
  exact reversed.trans (List.dropWhile_sublist _)

/-- Stripping leaves a text without white space around it, and no other. -/
theorem strip_eq_self_iff : strip text = text ↔
    (∀ c ∈ text.head?, isSpace c = false) ∧ ∀ c ∈ text.getLast?, isSpace c = false := by
  have keeps : ∀ letters : Text, letters.dropWhile isSpace = letters ↔
      ∀ c ∈ letters.head?, isSpace c = false := by
    intro letters
    cases letters with
    | nil => simp
    | cons c rest =>
        rw [List.dropWhile_cons]
        cases space : isSpace c with
        | false => simp [space]
        | true =>
            simp only [if_true, List.head?_cons, Option.mem_some_iff, forall_eq', space,
              Bool.true_eq_false, iff_false]
            intro same
            have shorter := (List.dropWhile_sublist (l := rest) isSpace).length_le
            rw [same] at shorter
            exact Nat.not_succ_le_self _ shorter
  rw [← List.head?_reverse, ← keeps, ← keeps]
  constructor
  · intro same
    have first : text.dropWhile isSpace = text := by
      apply (List.dropWhile_sublist isSpace).eq_of_length_le
      have inner : (strip text).length ≤ (text.dropWhile isSpace).length := by
        have trimmed := (List.dropWhile_sublist (l := (text.dropWhile isSpace).reverse)
          isSpace).length_le
        rw [strip, List.length_reverse]
        rwa [List.length_reverse] at trimmed
      rw [same] at inner
      exact inner
    refine ⟨first, ?_⟩
    rw [strip, first] at same
    exact List.reverse_eq_iff.mp same
  · rintro ⟨first, last⟩
    rw [strip, first, last, List.reverse_reverse]

theorem head?_dropWhile_isSpace (text : Text) :
    ∀ c ∈ (text.dropWhile isSpace).head?, isSpace c = false := by
  induction text with
  | nil =>
      intro c member
      cases member
  | cons first rest ih =>
      rw [List.dropWhile_cons]
      split
      · exact ih
      · rename_i visible
        intro c member
        cases member
        rwa [Bool.not_eq_true] at visible

/-- Stripping twice strips once. -/
theorem strip_strip (text : Text) : strip (strip text) = strip text := by
  rw [strip_eq_self_iff]
  constructor
  · have leads : strip text <+: text.dropWhile isSpace := by
      rw [← List.reverse_suffix, strip, List.reverse_reverse]
      exact List.dropWhile_suffix _
    intro c member
    apply head?_dropWhile_isSpace text
    obtain ⟨dropped, glued⟩ := leads
    rw [← glued, List.head?_append, Option.mem_def.mp member]
    rfl
  · rw [strip, List.getLast?_reverse]
    exact head?_dropWhile_isSpace _

/-- A text without white space stays. -/
theorem strip_of_visible (visible : ∀ c ∈ text, isSpace c = false) : strip text = text := by
  rw [strip_eq_self_iff]
  exact ⟨fun c member => visible c (List.mem_of_mem_head? member),
    fun c member => visible c (List.mem_of_mem_getLast? member)⟩
/-- A path that git quotes keeps its quotes. -/
theorem strip_quotePath_of_quoted (quoted : path.all isUnquoted = false) :
    strip (quotePath path) = '"' :: (path.flatMap escape ++ ['"']) := by
  have printed : quotePath path = '"' :: (path.flatMap escape ++ ['"']) := by
    rw [quotePath, quoted]
    rfl
  rw [printed]
  apply strip_eq_self_iff.mpr
  rw [← List.cons_append, List.getLast?_concat]
  constructor <;> rintro c ⟨⟩ <;> rfl

theorem quotePath_of_unquoted (unquoted : path.all isUnquoted = true) : quotePath path = path :=
  if_pos unquoted

/-- A plain path is read back. -/
theorem strip_quotePath_of_plainPath (plain : plainPath path = true) :
    strip (quotePath path) = path := by
  unfold plainPath at plain
  simp only [Bool.and_eq_true, decide_eq_true_eq] at plain
  obtain ⟨⟨unquoted, first⟩, last⟩ := plain
  have not_space : ∀ c ∈ path, c ≠ ' ' → isSpace c = false := by
    intro c member different
    have printable := isPrintable_of_isUnquoted (List.all_eq_true.mp unquoted c member)
    rw [← Bool.not_eq_true, isSpace_of_isPrintable printable]
    exact different
  rw [quotePath_of_unquoted unquoted]
  apply strip_eq_self_iff.mpr
  constructor
  · intro c head
    apply not_space c (List.mem_of_head? head)
    rintro rfl
    exact first head
  · intro c ending
    apply not_space c (List.mem_of_getLast? ending)
    rintro rfl
    exact last ending

/-- A path that is printed as it is and read back is plain. -/
theorem plainPath_of_strip (unquoted : path.all isUnquoted = true) (same : strip path = path) :
    plainPath path = true := by
  obtain ⟨first, last⟩ := strip_eq_self_iff.mp same
  unfold plainPath
  simp only [Bool.and_eq_true, decide_eq_true_eq]
  refine ⟨⟨unquoted, ?_⟩, ?_⟩
  · intro space
    exact absurd (first ' ' space) (by decide)
  · intro space
    exact absurd (last ' ' space) (by decide)

/-- Quoting adds quotes. -/
theorem count_quotes_le : path.count '"' ≤ (strip (quotePath path)).count '"' ∧
    (path.all isUnquoted = false → path.count '"' < (strip (quotePath path)).count '"') := by
  cases unquoted : path.all isUnquoted with
  | true =>
      have none : path.count '"' = 0 := by
        apply List.count_eq_zero.mpr
        intro member
        exact absurd (List.all_eq_true.mp unquoted _ member) (by decide)
      rw [none]
      exact ⟨Nat.zero_le _, nofun⟩
  | false =>
      have escaped : path.count '"' ≤ (path.flatMap escape).count '"' := by
        clear unquoted
        induction path with
        | nil => exact le_rfl
        | cons c path ih =>
            rw [List.flatMap_cons, List.count_append, List.count_cons]
            have here : (if (c == '"') = true then 1 else 0) ≤ (escape c).count '"' := by
              by_cases quotes : c = '"'
              · subst c
                decide
              · rw [if_neg (by simpa using quotes)]
                exact Nat.zero_le _
            omega
      rw [strip_quotePath_of_quoted unquoted, List.count_cons, List.count_append]
      simp only [beq_self_eq_true, if_true, List.count_singleton]
      exact ⟨by omega, fun _ => by omega⟩

/-- Sums of terms that are ordered agree only if the terms do. -/
theorem eq_of_sum_eq {α : Type} {f g : α → Nat} {items : List α}
    (below : ∀ item ∈ items, f item ≤ g item) (same : (items.map f).sum = (items.map g).sum) :
    ∀ item ∈ items, f item = g item := by
  have le_sum : ∀ {rest : List α}, (∀ item ∈ rest, f item ≤ g item) →
      (rest.map f).sum ≤ (rest.map g).sum := by
    intro rest
    induction rest with
    | nil => simp
    | cons item rest ih =>
        intro below
        obtain ⟨here, further⟩ := List.forall_mem_cons.mp below
        have := ih further
        rw [List.map_cons, List.sum_cons, List.map_cons, List.sum_cons]
        omega
  induction items with
  | nil => exact List.forall_mem_nil _
  | cons item items ih =>
      obtain ⟨here, further⟩ := List.forall_mem_cons.mp below
      have rest := le_sum further
      rw [List.map_cons, List.sum_cons, List.map_cons, List.sum_cons] at same
      have first : f item = g item := by omega
      exact List.forall_mem_cons.mpr ⟨first, ih further (by omega)⟩

/-- Names that are read, rearranged, are the paths of the listing only if these are plain. -/
theorem plainPath_of_perm {kept : List Text} (among : kept.Sublist (listedNames paths))
    (same : kept.Perm paths) : ∀ path ∈ paths, plainPath path = true := by
  have whole : (paths.map fun path => strip (quotePath path)).Perm paths := by
    have shorter : (listedNames paths).Sublist
        (paths.map fun path => strip (quotePath path)) := by
      rw [listedNames_eq]
      exact List.filter_sublist
    have all : kept = paths.map fun path => strip (quotePath path) := by
      apply (among.trans shorter).eq_of_length_le
      rw [List.length_map, same.length_eq]
    rw [← all]
    exact same
  have quotes := (whole.map (List.count '"')).sum_eq
  rw [List.map_map] at quotes
  have unquoted : ∀ path ∈ paths, path.all isUnquoted = true := by
    intro path member
    have counts := eq_of_sum_eq (fun path _ => count_quotes_le.1) quotes.symm path member
    rw [← Bool.not_eq_false]
    intro quoted
    exact absurd counts (Nat.ne_of_lt (count_quotes_le.2 quoted))
  have lengths := (whole.map List.length).sum_eq
  rw [List.map_map] at lengths
  intro path member
  apply plainPath_of_strip (unquoted path member)
  have shorter : ∀ path ∈ paths, (strip (quotePath path)).length ≤ path.length := by
    intro path member
    rw [quotePath_of_unquoted (unquoted path member)]
    exact (strip_sublist path).length_le
  have length := eq_of_sum_eq shorter lengths path member
  rw [quotePath_of_unquoted (unquoted path member)] at length
  exact (strip_sublist path).eq_of_length length

end DataOlympus.Lines
