import DataOlympus.Text.Lines
import Mathlib.Data.List.DropRight
import Mathlib.Data.List.Infix

/-!
# Marks in a text

Cutting a text at the first occurrence of a mark.  A mark without a line feed stands inside of
one line, so a text is cut where the first of its lines that holds the mark is cut.  Empty
lines at the ends of a text are its line feeds there.
-/

namespace DataOlympus.Lines

variable {mark text first rest before after line : Text} {lines : List Text}

/-! ## Cutting -/

/-- `text.split(mark, 1)` for a mark that is not empty: what stands before its first occurrence,
and behind it. -/
def cut (mark : Text) : Text → Option (Text × Text)
  | [] => none
  | c :: rest =>
      if mark.isPrefixOf (c :: rest) then some ([], (c :: rest).drop mark.length)
      else (cut mark rest).map fun around => (c :: around.1, around.2)

theorem eq_append_of_cut (found : cut mark text = some (before, after)) :
    text = before ++ (mark ++ after) := by
  induction text generalizing before with
  | nil => cases found
  | cons c rest ih =>
      rw [cut] at found
      split at found
      · rename_i leading
        cases found
        obtain ⟨after, split⟩ := List.isPrefixOf_iff_prefix.mp leading
        rw [← split, List.drop_left, List.nil_append]
      · obtain ⟨⟨inside, behind⟩, here, same⟩ := Option.map_eq_some_iff.mp found
        obtain ⟨rfl, rfl⟩ := Prod.mk.inj same
        rw [List.cons_append, ← ih here]

theorem cut_self (nonempty : mark ≠ []) : cut mark mark = some ([], []) := by
  obtain ⟨c, more, rfl⟩ := List.exists_cons_of_ne_nil nonempty
  rw [cut, if_pos (List.isPrefixOf_iff_prefix.mpr (List.prefix_refl _)), List.drop_length]

theorem isPrefixOf_append_of_not_mem {α : Type} [DecidableEq α] {c : α} {mark : List α}
    (absent : c ∉ mark) (before rest : List α) :
    mark.isPrefixOf (before ++ c :: rest) = mark.isPrefixOf before := by
  induction mark generalizing before with
  | nil => rfl
  | cons m mark ih =>
      rw [List.mem_cons, not_or] at absent
      obtain ⟨different, further⟩ := absent
      cases before with
      | nil =>
          change (m == c && _) = false
          rw [beq_false_of_ne (Ne.symm different), Bool.false_and]
      | cons d before =>
          change (m == d && mark.isPrefixOf (before ++ c :: rest)) =
            (m == d && mark.isPrefixOf before)
          rw [ih further]

/-- A text is cut in its first line, or behind it. -/
theorem cut_append_newline (clean : '\n' ∉ mark) (nonempty : mark ≠ []) (first rest : Text) :
    cut mark (first ++ '\n' :: rest) =
      ((cut mark first).map fun around => (around.1, around.2 ++ '\n' :: rest)).or
        ((cut mark rest).map fun around => (first ++ '\n' :: around.1, around.2)) := by
  induction first with
  | nil =>
      have no_prefix : mark.isPrefixOf ('\n' :: rest) = false := by
        have empty := isPrefixOf_append_of_not_mem clean [] rest
        obtain ⟨c, more, rfl⟩ := List.exists_cons_of_ne_nil nonempty
        exact empty
      have cleared : cut mark ('\n' :: rest) =
          (cut mark rest).map fun around => ('\n' :: around.1, around.2) := by
        rw [cut, no_prefix]
        rfl
      exact cleared
  | cons c first ih =>
      have leading := isPrefixOf_append_of_not_mem clean (c :: first) rest
      rw [List.cons_append] at leading ⊢
      rw [cut, cut, leading, ih]
      split
      · rename_i here
        obtain ⟨more, split⟩ := List.isPrefixOf_iff_prefix.mp here
        have long : mark.length ≤ (c :: first).length := by
          rw [← split, List.length_append]
          omega
        rw [Option.map_some, Option.some_or, ← List.cons_append,
          List.drop_append_of_le_length long]
      · cases cut mark first with
        | some around => rfl
        | none => cases cut mark rest <;> rfl

/-- The lines before the first mark and behind it. -/
def cutLines (mark : Text) : List Text → Option (List Text × List Text)
  | [] => none
  | line :: rest =>
      match cut mark line with
      | some (before, after) => some ([before], after :: rest)
      | none => (cutLines mark rest).map fun around => (line :: around.1, around.2)

theorem cutLines_cons (mark line : Text) (rest : List Text) :
    cutLines mark (line :: rest) =
      ((cut mark line).map fun around => ([around.1], around.2 :: rest)).or
        ((cutLines mark rest).map fun around => (line :: around.1, around.2)) := by
  rw [cutLines]
  cases cut mark line with
  | none => rfl
  | some around => rfl

theorem cutLines_ne_nil {before after : List Text}
    (found : cutLines mark lines = some (before, after)) : before ≠ [] ∧ after ≠ [] := by
  induction lines generalizing before with
  | nil => cases found
  | cons line rest ih =>
      rw [cutLines] at found
      split at found
      · cases found
        exact ⟨List.cons_ne_nil _ _, List.cons_ne_nil _ _⟩
      · obtain ⟨⟨inside, behind⟩, here, same⟩ := Option.map_eq_some_iff.mp found
        obtain ⟨rfl, rfl⟩ := Prod.mk.inj same
        exact ⟨List.cons_ne_nil _ _, (ih here).2⟩

theorem joinLines_singleton (line : Text) : joinLines [line] = line :=
  List.append_nil line

theorem joinLines_cons (line : Text) (nonempty : lines ≠ []) :
    joinLines (line :: lines) = line ++ '\n' :: joinLines lines := by
  rw [joinLines, List.intercalate_cons_of_ne_nil nonempty, List.append_assoc]
  rfl

theorem cut_joinLines (clean : '\n' ∉ mark) (nonempty : mark ≠ []) (lines : List Text) :
    cut mark (joinLines lines) =
      (cutLines mark lines).map fun around => (joinLines around.1, joinLines around.2) := by
  induction lines with
  | nil => rfl
  | cons line rest ih =>
      cases rest with
      | nil =>
          rw [joinLines_singleton, cutLines]
          cases cut mark line with
          | none => rfl
          | some around =>
              rw [Option.map_some]
              change some around = some (joinLines [around.1], joinLines [around.2])
              rw [joinLines, joinLines, List.intercalate_singleton, List.intercalate_singleton]
      | cons next more =>
          have glued := joinLines_cons line (List.cons_ne_nil next more)
          rw [glued, cut_append_newline clean nonempty, ih, cutLines_cons mark line]
          cases cut mark line with
          | some around =>
              change some (around.1, around.2 ++ '\n' :: joinLines (next :: more)) =
                some (joinLines [around.1], joinLines (around.2 :: next :: more))
              rw [joinLines_cons around.2 (List.cons_ne_nil next more), joinLines_singleton]
          | none =>
              rw [Option.map_none, Option.none_or, Option.map_none, Option.none_or]
              cases found : cutLines mark (next :: more) with
              | none => rfl
              | some around =>
                  have begun := (cutLines_ne_nil found).1
                  change some (line ++ '\n' :: joinLines around.1, joinLines around.2) =
                    some (joinLines (line :: around.1), joinLines around.2)
                  rw [joinLines_cons line begun]

/-- A text without the mark in any line is not cut. -/
theorem cutLines_eq_none_iff :
    cutLines mark lines = none ↔ ∀ line ∈ lines, cut mark line = none := by
  induction lines with
  | nil => exact iff_of_true rfl (List.forall_mem_nil _)
  | cons line rest ih =>
      rw [List.forall_mem_cons, cutLines]
      cases cut mark line with
      | some around => exact iff_of_false (Option.some_ne_none _) fun both => by cases both.1
      | none => rw [Option.map_eq_none_iff, ih, and_iff_right rfl]

theorem cutLines_append {lines more : List Text} (clean : cutLines mark lines = none) :
    cutLines mark (lines ++ more) =
      (cutLines mark more).map fun around => (lines ++ around.1, around.2) := by
  induction lines with
  | nil =>
      rw [List.nil_append]
      cases cutLines mark more with
      | none => rfl
      | some around => rfl
  | cons line rest ih =>
      rw [cutLines_eq_none_iff, List.forall_mem_cons, ← cutLines_eq_none_iff] at clean
      rw [List.cons_append, cutLines, clean.1, ih clean.2, Option.map_map]
      rfl

theorem cutLines_append_some {lines more before after : List Text}
    (found : cutLines mark lines = some (before, after)) :
    cutLines mark (lines ++ more) = some (before, after ++ more) := by
  induction lines generalizing before with
  | nil => cases found
  | cons line rest ih =>
      rw [cutLines] at found
      rw [List.cons_append, cutLines]
      split at found
      · rename_i here
        cases found
        rfl
      · rename_i nothing
        obtain ⟨⟨inside, behind⟩, further, same⟩ := Option.map_eq_some_iff.mp found
        obtain ⟨rfl, rfl⟩ := Prod.mk.inj same
        rw [ih further]
        rfl

/-- The line that is cut. -/
theorem exists_of_cutLines {before after : List Text}
    (found : cutLines mark lines = some (before, after)) :
    ∃ first line last start stop, lines = first ++ line :: last ∧ cutLines mark first = none ∧
      cut mark line = some (start, stop) ∧ before = first ++ [start] ∧ after = stop :: last := by
  induction lines generalizing before with
  | nil => cases found
  | cons line rest ih =>
      rw [cutLines] at found
      split at found
      · rename_i start stop here
        cases found
        exact ⟨[], line, rest, start, stop, rfl, rfl, here, rfl, rfl⟩
      · rename_i nothing
        obtain ⟨⟨inside, behind⟩, further, same⟩ := Option.map_eq_some_iff.mp found
        obtain ⟨rfl, rfl⟩ := Prod.mk.inj same
        obtain ⟨first, next, last, start, stop, rfl, clean, here, rfl, rfl⟩ := ih further
        refine ⟨line :: first, next, last, start, stop, rfl, ?_, here, rfl, rfl⟩
        rw [cutLines, nothing]
        dsimp only
        rw [clean]
        rfl

/-! ## Empty lines at the ends -/

/-- The lines without empty ones at their end. -/
def dropEmptyEnd (lines : List Text) : List Text :=
  lines.rdropWhile List.isEmpty

/-- The lines without empty ones at their beginning. -/
def dropEmptyStart (lines : List Text) : List Text :=
  lines.dropWhile List.isEmpty

theorem joinLines_append {first second : List Text} (left : first ≠ []) (right : second ≠ []) :
    joinLines (first ++ second) = joinLines first ++ '\n' :: joinLines second := by
  induction first with
  | nil => exact absurd rfl left
  | cons line rest ih =>
      cases rest with
      | nil => rw [List.singleton_append, joinLines_cons line right, joinLines_singleton]
      | cons next more =>
          rw [List.cons_append, joinLines_cons line (by simp), ih (List.cons_ne_nil _ _),
            joinLines_cons line (List.cons_ne_nil _ _), List.append_assoc]
          rfl

theorem joinLines_concat (line : Text) (nonempty : lines ≠ []) :
    joinLines (lines ++ [line]) = joinLines lines ++ '\n' :: line := by
  rw [joinLines_append nonempty (List.cons_ne_nil line []), joinLines_singleton]

/-- `joinLines(lines).rstrip("\n")`. -/
theorem rdropWhile_joinLines (clean : ∀ line ∈ lines, '\n' ∉ line) :
    (joinLines lines).rdropWhile (· = '\n') = joinLines (dropEmptyEnd lines) := by
  induction lines using List.reverseRecOn with
  | nil => rfl
  | append_singleton lines last ih =>
      have further : ∀ line ∈ lines, '\n' ∉ line := fun line member =>
        clean line (List.mem_append_left _ member)
      cases last with
      | nil =>
          rw [dropEmptyEnd, List.rdropWhile_concat_pos _ _ _ rfl]
          cases lines with
          | nil => rfl
          | cons first rest =>
              rw [joinLines_concat [] (List.cons_ne_nil _ _), List.rdropWhile_concat_pos _ _ _ rfl]
              exact ih further
      | cons c more =>
          have kept : dropEmptyEnd (lines ++ [c :: more]) = lines ++ [c :: more] :=
            List.rdropWhile_concat_neg _ _ _ Bool.false_ne_true
          have visible : ∀ d ∈ c :: more, ¬decide (d = '\n') = true := by
            intro d member feed
            have here := clean _ (List.mem_append_right _ (List.mem_singleton_self _))
            rw [of_decide_eq_true feed] at member
            exact here member
          have ends : ∀ front : Text, (front ++ c :: more).rdropWhile (· = '\n') =
              front ++ c :: more := by
            intro front
            rw [List.rdropWhile_eq_self_iff]
            intro nonempty
            rw [List.getLast_append_of_ne_nil _ (List.cons_ne_nil c more)]
            exact visible _ (List.getLast_mem _)
          rw [kept]
          cases lines with
          | nil =>
              rw [List.nil_append, joinLines_singleton]
              exact ends []
          | cons first rest =>
              rw [joinLines_concat _ (List.cons_ne_nil _ _), List.append_cons]
              exact ends _

/-- `joinLines(lines).lstrip("\n")`. -/
theorem dropWhile_joinLines (clean : ∀ line ∈ lines, '\n' ∉ line) :
    (joinLines lines).dropWhile (· = '\n') = joinLines (dropEmptyStart lines) := by
  induction lines with
  | nil => rfl
  | cons line rest ih =>
      obtain ⟨here, further⟩ := List.forall_mem_cons.mp clean
      cases line with
      | nil =>
          rw [dropEmptyStart, List.dropWhile_cons_of_pos rfl]
          cases rest with
          | nil => rfl
          | cons next more =>
              rw [joinLines_cons [] (List.cons_ne_nil _ _)]
              exact ih further
      | cons c more =>
          have visible : ¬decide (c = '\n') = true := by
            intro feed
            rw [of_decide_eq_true feed] at here
            exact here List.mem_cons_self
          have kept : ∀ rest : Text, (c :: rest).dropWhile (· = '\n') = c :: rest := fun _ =>
            List.dropWhile_cons_of_neg visible
          rw [dropEmptyStart, List.dropWhile_cons_of_neg Bool.false_ne_true]
          cases rest with
          | nil => rw [joinLines_singleton, kept]
          | cons next others =>
              rw [joinLines_cons _ (List.cons_ne_nil _ _), List.cons_append, kept]

theorem flatten_dropEmptyEnd (lines : List Text) : (dropEmptyEnd lines).flatten = lines.flatten := by
  induction lines using List.reverseRecOn with
  | nil => rfl
  | append_singleton lines last ih =>
      cases last with
      | nil =>
          rw [dropEmptyEnd, List.rdropWhile_concat_pos _ _ _ rfl, List.flatten_concat,
            List.append_nil]
          exact ih
      | cons c more =>
          rw [dropEmptyEnd, List.rdropWhile_concat_neg _ _ _ Bool.false_ne_true]

theorem flatten_dropEmptyStart (lines : List Text) :
    (dropEmptyStart lines).flatten = lines.flatten := by
  induction lines with
  | nil => rfl
  | cons line rest ih =>
      cases line with
      | nil =>
          rw [dropEmptyStart, List.dropWhile_cons_of_pos rfl, List.flatten_cons, List.nil_append]
          exact ih
      | cons c more => rw [dropEmptyStart, List.dropWhile_cons_of_neg Bool.false_ne_true]

theorem dropEmptyEnd_eq_nil_iff : dropEmptyEnd lines = [] ↔ lines.flatten = [] := by
  rw [dropEmptyEnd, List.rdropWhile_eq_nil_iff, List.flatten_eq_nil_iff]
  simp only [List.isEmpty_iff]

theorem dropEmptyStart_eq_nil_iff : dropEmptyStart lines = [] ↔ lines.flatten = [] := by
  rw [dropEmptyStart, List.dropWhile_eq_nil_iff, List.flatten_eq_nil_iff]
  simp only [List.isEmpty_iff]

theorem dropEmptyEnd_append {first : List Text} (kept : dropEmptyEnd first = first)
    (more : List Text) : dropEmptyEnd (first ++ more) = first ++ dropEmptyEnd more := by
  induction more using List.reverseRecOn with
  | nil =>
      rw [List.append_nil]
      exact kept.trans (List.append_nil first).symm
  | append_singleton more last ih =>
      rw [← List.append_assoc]
      cases last with
      | nil =>
          rw [dropEmptyEnd, dropEmptyEnd, List.rdropWhile_concat_pos _ _ _ rfl,
            List.rdropWhile_concat_pos _ _ _ rfl]
          exact ih
      | cons c rest =>
          rw [dropEmptyEnd, dropEmptyEnd, List.rdropWhile_concat_neg _ _ _ Bool.false_ne_true,
            List.rdropWhile_concat_neg _ _ _ Bool.false_ne_true, List.append_assoc]

theorem dropEmptyEnd_dropEmptyEnd (lines : List Text) :
    dropEmptyEnd (dropEmptyEnd lines) = dropEmptyEnd lines :=
  List.rdropWhile_idempotent _ _

theorem dropEmptyEnd_concat_nil (lines : List Text) :
    dropEmptyEnd (lines ++ [[]]) = dropEmptyEnd lines :=
  List.rdropWhile_concat_pos _ _ _ rfl

/-! ## Joining -/

theorem flatten_sublist_joinLines (lines : List Text) :
    lines.flatten.Sublist (joinLines lines) := by
  induction lines with
  | nil => exact List.Sublist.slnil
  | cons line rest ih =>
      cases rest with
      | nil =>
          rw [joinLines_singleton, List.flatten_singleton]
      | cons next more =>
          rw [joinLines_cons line (List.cons_ne_nil _ _), List.flatten_cons]
          exact (List.Sublist.refl line).append (ih.cons '\n')

/-- Nothing is joined where nothing but empty lines would be dropped. -/
theorem joinLines_dropEmpty_eq_nil_iff :
    (joinLines (dropEmptyEnd lines) = [] ↔ dropEmptyEnd lines = []) ∧
      (joinLines (dropEmptyStart lines) = [] ↔ dropEmptyStart lines = []) := by
  have flat : ∀ {lines : List Text}, joinLines lines = [] → lines.flatten = [] := by
    intro lines nothing
    have inside := flatten_sublist_joinLines lines
    rw [nothing] at inside
    exact List.sublist_nil.mp inside
  constructor
  · constructor
    · intro nothing
      have empty := flat nothing
      rw [flatten_dropEmptyEnd] at empty
      exact dropEmptyEnd_eq_nil_iff.mpr empty
    · intro nothing
      rw [nothing]
      rfl
  · constructor
    · intro nothing
      have empty := flat nothing
      rw [flatten_dropEmptyStart] at empty
      exact dropEmptyStart_eq_nil_iff.mpr empty
    · intro nothing
      rw [nothing]
      rfl

end DataOlympus.Lines
