import DataOlympus.Installer.Hooks
import DataOlympus.Text.Managed

/-!
# Managed blocks of instructions and of git hooks

`kb enforce` writes a block between two marks to the end of a text, and takes it out by the
first begin mark and the first end mark of the text.
-/

namespace DataOlympus.Installer

open Lines

/-! ## The providers -/

/-- A provider that keeps one block in a text. -/
structure BlockProvider where
  /-- The begin mark and the end mark of a block. -/
  begins : Text
  ends : Text
  /-- The lines between the marks. -/
  inside : List Text
  /-- The lines that a block is put behind in a text without any. -/
  start : List Text
  /-- How many line feeds follow the block. -/
  feeds : Nat
  begins_line : '\n' ∉ begins
  ends_line : '\n' ∉ ends
  begins_ne : begins ≠ []
  ends_ne : ends ≠ []
  begins_apart : cut ends begins = none
  inside_apart : ∀ line ∈ inside, '\n' ∉ line ∧ cut ends line = none
  start_plain : ∀ line ∈ start, '\n' ∉ line ∧ cut begins line = none ∧ cut ends line = none
  start_filled : dropEmptyEnd start = start

namespace BlockProvider

variable (provider : BlockProvider)

/-- The lines of the block. -/
def blockLines : List Text :=
  provider.begins :: (provider.inside ++ [provider.ends])

/-- `_strip_block` and `_strip`. -/
def strip (text : Text) : Text :=
  match cut provider.begins text, cut provider.ends text with
  | some (pre, _), some (_, post) =>
      let pre := pre.rdropWhile (· = '\n')
      let post := post.dropWhile (· = '\n')
      let joined := joinLines ([pre, post].filter fun p => !p.isEmpty)
      if joined ≠ [] then joined ++ ['\n'] else []
  | _, _ => text

/-- `install`, from the text that is there to the one that is written. -/
def install (existing : Text) : Text :=
  let base := (provider.strip existing).rdropWhile (· = '\n')
  let base := if base = [] then joinLines provider.start else base
  (if base = [] then [] else base ++ ['\n', '\n']) ++ joinLines provider.blockLines ++
    List.replicate provider.feeds '\n'

/-- `uninstall`. -/
def uninstall (text : Text) : Text :=
  provider.strip text

/-! ## Lines -/

/-- The lines that are left of some lines when a block is taken out. -/
def stripped (lines : List Text) : List Text :=
  match cutLines provider.begins lines, cutLines provider.ends lines with
  | some (pre, _), some (_, post) => dropEmptyEnd pre ++ dropEmptyStart post
  | _, _ => lines

/-- The lines that a block is put behind. -/
def front (lines : List Text) : List Text :=
  if dropEmptyEnd (provider.stripped lines) = [] then provider.start
  else dropEmptyEnd (provider.stripped lines)

/-- The lines of the block and of the line feeds behind it. -/
def behind : List Text :=
  provider.blockLines ++ List.replicate provider.feeds []

/-- Some lines that a block is put behind. -/
def frontLines (front : List Text) : List Text :=
  if front = [] then [] else front ++ [[]]

/-- Some lines and the block behind them. -/
def installed (front : List Text) : List Text :=
  frontLines front ++ provider.behind

/-- A line without a mark. -/
def Plain (line : Text) : Prop :=
  cut provider.begins line = none ∧ cut provider.ends line = none

variable {provider} {lines first second : List Text}

theorem splitLines_joinLines (clean : ∀ line ∈ lines, '\n' ∉ line) (nonempty : lines ≠ []) :
    splitLines (joinLines lines) = lines :=
  List.splitOn_intercalate '\n' clean nonempty

theorem clean_of_cutLines {mark : Text} {before after : List Text}
    (clean : ∀ line ∈ lines, '\n' ∉ line) (found : cutLines mark lines = some (before, after)) :
    (∀ line ∈ before, '\n' ∉ line) ∧ ∀ line ∈ after, '\n' ∉ line := by
  obtain ⟨first, line, last, start, stop, rfl, _, here, rfl, rfl⟩ := exists_of_cutLines found
  have whole := eq_append_of_cut here
  have inside := clean line (List.mem_append_right _ List.mem_cons_self)
  rw [whole, List.mem_append, List.mem_append, not_or, not_or] at inside
  constructor
  · intro other member
    rcases List.mem_append.mp member with early | last
    · exact clean other (List.mem_append_left _ early)
    · rw [List.mem_singleton.mp last]
      exact inside.1
  · intro other member
    rcases List.mem_cons.mp member with rfl | late
    · exact inside.2.2
    · exact clean other (List.mem_append_right _ (List.mem_cons_of_mem _ late))

theorem clean_stripped (clean : ∀ line ∈ lines, '\n' ∉ line) :
    ∀ line ∈ provider.stripped lines, '\n' ∉ line := by
  unfold stripped
  split
  · rename_i pre after before post cutBegins cutEnds
    intro line member
    rcases List.mem_append.mp member with early | late
    · exact (clean_of_cutLines clean cutBegins).1 line ((List.rdropWhile_prefix _ _).subset early)
    · exact (clean_of_cutLines clean cutEnds).2 line ((List.dropWhile_suffix _).subset late)
  · exact clean

/-- The text that is joined when a block is taken out. -/
theorem joinLines_filter (pre post : List Text) :
    joinLines ([joinLines (dropEmptyEnd pre), joinLines (dropEmptyStart post)].filter
      fun p => !p.isEmpty) = joinLines (dropEmptyEnd pre ++ dropEmptyStart post) := by
  have left := (@joinLines_dropEmpty_eq_nil_iff pre).1
  have right := (@joinLines_dropEmpty_eq_nil_iff post).2
  by_cases front : dropEmptyEnd pre = []
  · rw [left.mpr front, front, List.nil_append]
    by_cases behind : dropEmptyStart post = []
    · rw [right.mpr behind]
      rfl
    · have kept : joinLines (dropEmptyStart post) ≠ [] := fun nothing => behind (right.mp nothing)
      have single : [[], joinLines (dropEmptyStart post)].filter (fun p => !p.isEmpty) =
          [joinLines (dropEmptyStart post)] := by
        simp [kept]
      rw [single, joinLines_singleton]
  · have some_front : joinLines (dropEmptyEnd pre) ≠ [] := fun nothing => front (left.mp nothing)
    by_cases behind : dropEmptyStart post = []
    · have single : [joinLines (dropEmptyEnd pre), []].filter (fun p => !p.isEmpty) =
          [joinLines (dropEmptyEnd pre)] := by
        simp [some_front]
      rw [right.mpr behind, behind, List.append_nil, single, joinLines_singleton]
    · have kept : joinLines (dropEmptyStart post) ≠ [] := fun nothing => behind (right.mp nothing)
      have both : [joinLines (dropEmptyEnd pre), joinLines (dropEmptyStart post)].filter
          (fun p => !p.isEmpty) =
            [joinLines (dropEmptyEnd pre), joinLines (dropEmptyStart post)] := by
        simp [some_front, kept]
      rw [both, joinLines_append front behind, joinLines_cons _ (List.cons_ne_nil _ _),
        joinLines_singleton]

/-- The stripped text, of a text that holds both marks. -/
theorem strip_of_marks (clean : ∀ line ∈ lines, '\n' ∉ line) {before after pre post : List Text}
    (cutBegins : cutLines provider.begins lines = some (pre, after))
    (cutEnds : cutLines provider.ends lines = some (before, post)) :
    provider.strip (joinLines lines) =
      if dropEmptyEnd pre ++ dropEmptyStart post = [] then []
      else joinLines (dropEmptyEnd pre ++ dropEmptyStart post) ++ ['\n'] := by
  have empty : joinLines (dropEmptyEnd pre ++ dropEmptyStart post) = [] ↔
      dropEmptyEnd pre ++ dropEmptyStart post = [] := by
    constructor
    · intro nothing
      have inside := flatten_sublist_joinLines (dropEmptyEnd pre ++ dropEmptyStart post)
      rw [nothing, List.sublist_nil, List.flatten_append, List.append_eq_nil_iff,
        flatten_dropEmptyEnd, flatten_dropEmptyStart, ← dropEmptyEnd_eq_nil_iff,
        ← dropEmptyStart_eq_nil_iff] at inside
      rw [inside.1, inside.2]
      rfl
    · intro nothing
      rw [nothing]
      rfl
  rw [strip, cut_joinLines provider.begins_line provider.begins_ne, cutBegins,
    cut_joinLines provider.ends_line provider.ends_ne, cutEnds]
  dsimp only [Option.map_some]
  rw [rdropWhile_joinLines (clean_of_cutLines clean cutBegins).1,
    dropWhile_joinLines (clean_of_cutLines clean cutEnds).2, joinLines_filter]
  by_cases nothing : dropEmptyEnd pre ++ dropEmptyStart post = []
  · rw [if_pos nothing, if_neg (not_not_intro (empty.mpr nothing))]
  · rw [if_neg nothing, if_pos fun joined => nothing (empty.mp joined)]

/-- `strip(text).rstrip("\n")`. -/
theorem rdropWhile_strip (clean : ∀ line ∈ lines, '\n' ∉ line) :
    (provider.strip (joinLines lines)).rdropWhile (· = '\n') =
      joinLines (dropEmptyEnd (provider.stripped lines)) := by
  have kept := @clean_stripped provider lines clean
  rw [← rdropWhile_joinLines kept]
  cases cutBegins : cutLines provider.begins lines with
  | none =>
      rw [strip, stripped, cut_joinLines provider.begins_line provider.begins_ne, cutBegins]
      rfl
  | some around =>
      cases cutEnds : cutLines provider.ends lines with
      | none =>
          rw [strip, stripped, cut_joinLines provider.begins_line provider.begins_ne, cutBegins,
            cut_joinLines provider.ends_line provider.ends_ne, cutEnds]
          rfl
      | some surround =>
          have whole := strip_of_marks clean cutBegins cutEnds
          rw [whole, stripped, cutBegins, cutEnds]
          dsimp only
          split
          · rename_i nothing
            rw [nothing]
            rfl
          · rw [List.rdropWhile_concat_pos _ _ _ (by decide)]

/-- The lines of the stripped text, of a text that holds both marks. -/
theorem splitLines_strip (clean : ∀ line ∈ lines, '\n' ∉ line) {before after pre post : List Text}
    (cutBegins : cutLines provider.begins lines = some (pre, after))
    (cutEnds : cutLines provider.ends lines = some (before, post)) :
    splitLines (provider.strip (joinLines lines)) = provider.stripped lines ++ [[]] := by
  have kept := @clean_stripped provider lines clean
  have written : provider.stripped lines = dropEmptyEnd pre ++ dropEmptyStart post := by
    rw [stripped, cutBegins, cutEnds]
  rw [strip_of_marks clean cutBegins cutEnds, ← written]
  split
  · rename_i nothing
    rw [nothing]
    rfl
  · rename_i something
    have joined := joinLines_concat [] something
    rw [← joined]
    apply splitLines_joinLines
    · intro line member
      rcases List.mem_append.mp member with inside | last
      · exact kept line inside
      · rw [List.mem_singleton.mp last]
        exact List.not_mem_nil
    · exact List.append_ne_nil_of_right_ne_nil _ (List.cons_ne_nil _ _)

theorem front_eq (lines : List Text) : dropEmptyEnd (provider.front lines) = provider.front lines := by
  unfold front
  split
  · exact provider.start_filled
  · exact dropEmptyEnd_dropEmptyEnd _

theorem clean_blockLines : ∀ line ∈ provider.blockLines, '\n' ∉ line := by
  intro line member
  rcases List.mem_cons.mp member with rfl | member
  · exact provider.begins_line
  · rcases List.mem_append.mp member with inside | last
    · exact (provider.inside_apart line inside).1
    · rw [List.mem_singleton.mp last]
      exact provider.ends_line

theorem clean_front (clean : ∀ line ∈ lines, '\n' ∉ line) :
    ∀ line ∈ provider.front lines, '\n' ∉ line := by
  unfold front
  split
  · intro line member
    exact (provider.start_plain line member).1
  · intro line member
    exact clean_stripped clean line ((List.rdropWhile_prefix _ _).subset member)

theorem clean_installed (clean : ∀ line ∈ first, '\n' ∉ line) :
    ∀ line ∈ provider.installed first, '\n' ∉ line := by
  intro line member
  rcases List.mem_append.mp member with before | member
  · unfold frontLines at before
    split at before
    · cases before
    · rcases List.mem_append.mp before with inside | last
      · exact clean line inside
      · rw [List.mem_singleton.mp last]
        exact List.not_mem_nil
  · rcases List.mem_append.mp member with inside | feed
    · exact clean_blockLines line inside
    · rw [List.eq_of_mem_replicate feed]
      exact List.not_mem_nil

theorem joinLines_append_replicate (nonempty : lines ≠ []) (feeds : Nat) :
    joinLines (lines ++ List.replicate feeds []) = joinLines lines ++ List.replicate feeds '\n' := by
  induction feeds with
  | zero => rw [List.replicate_zero, List.append_nil, List.replicate_zero, List.append_nil]
  | succ feeds ih =>
      have some_lines : lines ++ List.replicate feeds [] ≠ [] :=
        List.append_ne_nil_of_left_ne_nil nonempty _
      rw [List.replicate_succ', ← List.append_assoc, joinLines_concat [] some_lines, ih,
        List.replicate_succ', List.append_assoc]

/-- The lines of the text that is written. -/
theorem install_joinLines (clean : ∀ line ∈ lines, '\n' ∉ line) :
    provider.install (joinLines lines) = joinLines (provider.installed (provider.front lines)) := by
  have block : provider.blockLines ≠ [] := List.cons_ne_nil _ _
  have base : (if joinLines (dropEmptyEnd (provider.stripped lines)) = [] then
      joinLines provider.start else joinLines (dropEmptyEnd (provider.stripped lines))) =
      joinLines (provider.front lines) := by
    rw [front]
    simp only [joinLines_dropEmpty_eq_nil_iff.1]
    split
    · rfl
    · rfl
  have empty : joinLines (provider.front lines) = [] ↔ provider.front lines = [] := by
    rw [← front_eq]
    exact joinLines_dropEmpty_eq_nil_iff.1
  rw [install, rdropWhile_strip clean, base, installed, frontLines, behind]
  simp only [empty]
  split
  · rw [List.nil_append, List.nil_append, joinLines_append_replicate block]
  · rename_i something
    have glued : provider.front lines ++ [[]] ≠ [] :=
      List.append_ne_nil_of_right_ne_nil _ (List.cons_ne_nil _ _)
    have rest : provider.blockLines ++ List.replicate provider.feeds [] ≠ [] :=
      List.append_ne_nil_of_left_ne_nil block _
    rw [joinLines_append glued rest, joinLines_concat [] something,
      joinLines_append_replicate block]
    simp

theorem splitLines_install (clean : ∀ line ∈ lines, '\n' ∉ line) :
    splitLines (provider.install (joinLines lines)) =
      provider.installed (provider.front lines) := by
  rw [install_joinLines clean]
  apply splitLines_joinLines (clean_installed (clean_front clean))
  rw [installed]
  exact List.append_ne_nil_of_right_ne_nil _ (List.cons_ne_nil _ _)

/-! ## What is taken out again -/

theorem cutLines_ends_blockLines (rest : List Text) :
    cutLines provider.ends (provider.blockLines ++ rest) =
      some (provider.begins :: (provider.inside ++ [[]]), [] :: rest) := by
  have before : cutLines provider.ends (provider.begins :: provider.inside) = none := by
    rw [cutLines_eq_none_iff, List.forall_mem_cons]
    exact ⟨provider.begins_apart, fun line member => (provider.inside_apart line member).2⟩
  have last : cutLines provider.ends (provider.ends :: rest) = some ([[]], [] :: rest) := by
    rw [cutLines, cut_self provider.ends_ne]
  have written : provider.blockLines ++ rest =
      (provider.begins :: provider.inside) ++ provider.ends :: rest := by
    simp [blockLines]
  rw [written, cutLines_append before, last]
  rfl

theorem cutLines_begins_blockLines (rest : List Text) :
    cutLines provider.begins (provider.blockLines ++ rest) =
      some ([[]], [] :: (provider.inside ++ [provider.ends] ++ rest)) := by
  rw [blockLines, List.cons_append, cutLines, cut_self provider.begins_ne]

theorem dropEmptyStart_feeds (feeds : Nat) : dropEmptyStart (List.replicate feeds []) = [] := by
  rw [dropEmptyStart_eq_nil_iff, List.flatten_replicate_nil]

theorem dropEmptyEnd_frontLines (kept : dropEmptyEnd first = first) :
    dropEmptyEnd (frontLines first ++ [[]]) = first := by
  rw [dropEmptyEnd_concat_nil]
  unfold frontLines
  split
  · rename_i nothing
    rw [nothing]
    rfl
  · rw [dropEmptyEnd_concat_nil, kept]

theorem cutLines_frontLines {mark : Text} (clean : cutLines mark first = none) :
    cutLines mark (frontLines first) = none := by
  rw [cutLines_eq_none_iff] at clean ⊢
  unfold frontLines
  split
  · exact List.forall_mem_nil _
  · intro line member
    rcases List.mem_append.mp member with inside | last
    · exact clean line inside
    · rw [List.mem_singleton.mp last]
      rfl

/-- A block behind plain lines is taken out again. -/
theorem stripped_installed (plain : ∀ line ∈ first, provider.Plain line)
    (kept : dropEmptyEnd first = first) :
    provider.stripped (provider.installed first) = first ∧
      ∃ pre after before post, cutLines provider.begins (provider.installed first) =
        some (pre, after) ∧ cutLines provider.ends (provider.installed first) =
          some (before, post) := by
  have no_begins : cutLines provider.begins (frontLines first) = none := by
    apply cutLines_frontLines
    exact cutLines_eq_none_iff.mpr fun line member => (plain line member).1
  have no_ends : cutLines provider.ends (frontLines first) = none := by
    apply cutLines_frontLines
    exact cutLines_eq_none_iff.mpr fun line member => (plain line member).2
  have cutBegins := @cutLines_append _ _ provider.behind no_begins
  have cutEnds := @cutLines_append _ _ provider.behind no_ends
  rw [behind, cutLines_begins_blockLines] at cutBegins
  rw [behind, cutLines_ends_blockLines] at cutEnds
  refine ⟨?_, _, _, _, _, cutBegins, cutEnds⟩
  have feeds : dropEmptyStart ([] :: List.replicate provider.feeds []) = [] :=
    dropEmptyStart_feeds (provider.feeds + 1)
  rw [installed, stripped, behind, cutBegins, cutEnds]
  dsimp only [Option.map_some]
  rw [dropEmptyEnd_frontLines kept, feeds, List.append_nil]

theorem front_installed (plain : ∀ line ∈ first, provider.Plain line)
    (kept : dropEmptyEnd first = first) (new : first = [] → provider.start = []) :
    provider.front (provider.installed first) = first := by
  rw [front, (stripped_installed plain kept).1, kept]
  split
  · rename_i nothing
    rw [nothing, new nothing]
  · rfl

theorem installed_injective (same : provider.installed first = provider.installed second) :
    first = second := by
  have fronts : frontLines first = frontLines second := List.append_cancel_right same
  unfold frontLines at fronts
  split at fronts
  · rename_i nothing
    split at fronts
    · rename_i also
      rw [nothing, also]
    · exact absurd fronts.symm (List.append_ne_nil_of_right_ne_nil _ (List.cons_ne_nil _ _))
  · split at fronts
    · exact absurd fronts (List.append_ne_nil_of_right_ne_nil _ (List.cons_ne_nil _ _))
    · exact List.append_cancel_right fronts

/-- Installing once more changes nothing when the block stands behind the same lines. -/
theorem install_install_iff (clean : ∀ line ∈ lines, '\n' ∉ line) :
    provider.install (provider.install (joinLines lines)) = provider.install (joinLines lines) ↔
      provider.front (provider.installed (provider.front lines)) = provider.front lines := by
  have once := @clean_installed provider _ (@clean_front provider lines clean)
  constructor
  · intro same
    have split := congrArg splitLines same
    rw [splitLines_install clean, install_joinLines clean, splitLines_install once] at split
    exact installed_injective split
  · intro same
    rw [install_joinLines clean, install_joinLines once, same]

/-- The lines of what is left when a block behind plain lines is taken out. -/
theorem splitLines_uninstall (clean : ∀ line ∈ lines, '\n' ∉ line)
    (plain : ∀ line ∈ provider.front lines, provider.Plain line) :
    splitLines (provider.uninstall (provider.install (joinLines lines))) =
      provider.front lines ++ [[]] := by
  obtain ⟨taken, pre, after, before, post, cutBegins, cutEnds⟩ :=
    stripped_installed plain (front_eq lines)
  rw [uninstall, install_joinLines clean,
    splitLines_strip (clean_installed (clean_front clean)) cutBegins cutEnds, taken]

/-! ## Tame texts -/

variable (provider) in
/-- The lines hold no mark but those of one block. -/
def OneBlock (lines : List Text) : Prop :=
  ∃ first middle second,
    lines = first ++ provider.begins :: (middle ++ provider.ends :: second) ∧
      (∀ line ∈ first, provider.Plain line) ∧ (∀ line ∈ middle, cut provider.ends line = none) ∧
        ∀ line ∈ second, provider.Plain line

variable (provider) in
/-- The lines hold no mark, or the marks of one block. -/
def Tame (lines : List Text) : Prop :=
  (∀ line ∈ lines, provider.Plain line) ∨ provider.OneBlock lines

theorem not_plain_begins : ¬provider.Plain provider.begins := by
  intro plain
  have nothing := plain.1
  rw [cut_self provider.begins_ne] at nothing
  cases nothing

theorem not_plain_ends : ¬provider.Plain provider.ends := by
  intro plain
  have nothing := plain.2
  rw [cut_self provider.ends_ne] at nothing
  cases nothing

theorem plain_nil : provider.Plain [] :=
  ⟨rfl, rfl⟩

theorem plain_of_dropEmptyStart (plain : ∀ line ∈ dropEmptyStart lines, provider.Plain line) :
    ∀ line ∈ lines, provider.Plain line := by
  induction lines with
  | nil => exact List.forall_mem_nil _
  | cons line rest ih =>
      cases line with
      | nil =>
          rw [dropEmptyStart, List.dropWhile_cons_of_pos rfl] at plain
          exact List.forall_mem_cons.mpr ⟨plain_nil, ih plain⟩
      | cons c more => rwa [dropEmptyStart, List.dropWhile_cons_of_neg Bool.false_ne_true] at plain

theorem plain_of_dropEmptyEnd (plain : ∀ line ∈ dropEmptyEnd lines, provider.Plain line) :
    ∀ line ∈ lines, provider.Plain line := by
  induction lines using List.reverseRecOn with
  | nil => exact List.forall_mem_nil _
  | append_singleton lines last ih =>
      cases last with
      | nil =>
          rw [dropEmptyEnd_concat_nil] at plain
          intro line member
          rcases List.mem_append.mp member with early | late
          · exact ih plain line early
          · rw [List.mem_singleton.mp late]
            exact plain_nil
      | cons c more => rwa [dropEmptyEnd, List.rdropWhile_concat_neg _ _ _ Bool.false_ne_true] at plain

/-- The lines are tame when the marks are gone from what a block would be put behind, and stand
in blocks. -/
theorem tame_of_plain (base : ∀ line ∈ dropEmptyEnd (provider.stripped lines), provider.Plain line)
    (owned : ∀ line ∈ outside provider.begins provider.ends lines, provider.Plain line) :
    provider.Tame lines := by
  obtain plain | ⟨first, middle, second, rfl, before, within⟩ :=
    exists_block_of_outside not_plain_begins owned
  · exact .inl plain
  right
  have no_begins : cutLines provider.begins first = none :=
    cutLines_eq_none_iff.mpr fun line member => (before line member).1
  have no_ends : cutLines provider.ends (first ++ [provider.begins]) = none := by
    rw [cutLines_eq_none_iff]
    intro line member
    rcases List.mem_append.mp member with early | last
    · exact (before line early).2
    · rw [List.mem_singleton.mp last]
      exact provider.begins_apart
  have cutBegins : ∃ around, cutLines provider.begins
      (first ++ provider.begins :: (middle ++ provider.ends :: second)) = some around := by
    rw [cutLines_append no_begins, cutLines, cut_self provider.begins_ne]
    exact ⟨_, rfl⟩
  obtain ⟨⟨pre, after⟩, cutBegins⟩ := cutBegins
  have rest : cutLines provider.ends
      (first ++ provider.begins :: (middle ++ provider.ends :: second)) =
      (cutLines provider.ends (middle ++ provider.ends :: second)).map fun around =>
        (first ++ [provider.begins] ++ around.1, around.2) := by
    rw [List.append_cons, cutLines_append no_ends]
  -- What stands behind the first end mark is plain.
  have plain : ∀ {start post : List Text},
      cutLines provider.ends (middle ++ provider.ends :: second) = some (start, post) →
        ∀ line ∈ post, provider.Plain line := by
    intro start post found
    rw [found] at rest
    have taken := plain_of_dropEmptyEnd base
    rw [stripped, cutBegins, rest] at taken
    dsimp only [Option.map_some] at taken
    apply plain_of_dropEmptyStart
    intro line member
    exact taken line (List.mem_append_right _ member)
  have no_mark : cutLines provider.ends middle = none := by
    cases found : cutLines provider.ends middle with
    | none => rfl
    | some around =>
        obtain ⟨start, post⟩ := around
        have further := plain (cutLines_append_some found)
        exact absurd (further provider.ends (List.mem_append_right _ List.mem_cons_self))
          not_plain_ends
  have closes : cutLines provider.ends (middle ++ provider.ends :: second) =
      some (middle ++ [[]], [] :: second) := by
    rw [cutLines_append no_mark, cutLines, cut_self provider.ends_ne]
    rfl
  exact ⟨first, middle, second, rfl, before, cutLines_eq_none_iff.mp no_mark,
    (List.forall_mem_cons.mp (plain closes)).2⟩

/-- What is left of tame lines, by their stretches. -/
theorem stretches_of_tame (tame : provider.Tame lines) :
    (∀ line ∈ dropEmptyEnd (provider.stripped lines), provider.Plain line) ∧
      GivesBack (stretches provider.begins provider.ends false lines)
        (dropEmptyEnd (provider.stripped lines) ++ [[]]) := by
  have no_begins : ∀ {lines : List Text}, (∀ line ∈ lines, provider.Plain line) →
      cutLines provider.begins lines = none ∧ provider.begins ∉ lines := by
    intro lines plain
    refine ⟨cutLines_eq_none_iff.mpr fun line member => (plain line member).1, ?_⟩
    intro member
    exact not_plain_begins (plain _ member)
  obtain plain | ⟨first, middle, second, rfl, before, within, after⟩ := tame
  · obtain ⟨uncut, absent⟩ := no_begins plain
    have whole : provider.stripped lines = lines := by
      rw [stripped, uncut]
    rw [whole, stretches_of_not_mem absent]
    constructor
    · intro line member
      exact plain line ((List.rdropWhile_prefix _ _).subset member)
    · have same : SameBefore lines (dropEmptyEnd lines ++ [[]]) := by
        rw [SameBefore, dropEmptyEnd_concat_nil, dropEmptyEnd_dropEmptyEnd]
      have gives := GivesBack.intro same List.Forall₂.nil
      rwa [List.flatten_nil, List.append_nil] at gives
  · obtain ⟨uncut, absent⟩ := no_begins before
    have no_ends : cutLines provider.ends (first ++ provider.begins :: middle) = none := by
      rw [cutLines_eq_none_iff]
      intro line member
      rcases List.mem_append.mp member with early | late
      · exact (before line early).2
      · rcases List.mem_cons.mp late with rfl | inside
        · exact provider.begins_apart
        · exact within line inside
    have cutBegins : cutLines provider.begins
        (first ++ provider.begins :: (middle ++ provider.ends :: second)) =
          some (first ++ [[]], [] :: (middle ++ provider.ends :: second)) := by
      rw [cutLines_append uncut, cutLines, cut_self provider.begins_ne]
      rfl
    have cutEnds : cutLines provider.ends
        (first ++ provider.begins :: (middle ++ provider.ends :: second)) =
          some (first ++ provider.begins :: middle ++ [[]], [] :: second) := by
      have written : first ++ provider.begins :: (middle ++ provider.ends :: second) =
          (first ++ provider.begins :: middle) ++ provider.ends :: second := by
        simp
      rw [written, cutLines_append no_ends, cutLines, cut_self provider.ends_ne]
      rfl
    have closed : provider.ends ∉ middle := by
      intro member
      have nothing := within _ member
      rw [cut_self provider.ends_ne] at nothing
      cases nothing
    have taken : dropEmptyEnd (provider.stripped
        (first ++ provider.begins :: (middle ++ provider.ends :: second))) =
          dropEmptyEnd first ++ dropEmptyEnd (dropEmptyStart second) := by
      rw [stripped, cutBegins, cutEnds]
      dsimp only
      rw [dropEmptyEnd_concat_nil]
      exact dropEmptyEnd_append (dropEmptyEnd_dropEmptyEnd first) _
    rw [taken, stretches_of_block absent closed (no_begins after).2]
    constructor
    · intro line member
      rcases List.mem_append.mp member with early | late
      · exact before line ((List.rdropWhile_prefix _ _).subset early)
      · exact after line ((List.dropWhile_suffix _).subset
          ((List.rdropWhile_prefix _ _).subset late))
    · have early : SameBefore first (dropEmptyEnd first) :=
        (dropEmptyEnd_dropEmptyEnd first).symm
      have late := sameBetween_dropEmpty second
      have gives := GivesBack.intro early (List.Forall₂.cons late List.Forall₂.nil)
      rwa [List.flatten_singleton, ← List.append_assoc] at gives

/-! ## Surgery -/

variable (provider) in
/-- Installing again changes nothing, and uninstalling gives back the lines outside of the
blocks. -/
def Surgical (text : Text) : Prop :=
  provider.install (provider.install text) = provider.install text ∧
    GivesBack (stretches provider.begins provider.ends false (splitLines text))
      (splitLines (provider.uninstall (provider.install text)))

/-- A text in whose place a mark would stay is not handled surgically. -/
theorem plain_of_surgical (clean : ∀ line ∈ lines, '\n' ∉ line)
    (again : provider.front (provider.installed (provider.front lines)) = provider.front lines)
    (back : GivesBack (stretches provider.begins provider.ends false lines)
      (splitLines (provider.uninstall (provider.install (joinLines lines))))) :
    ∀ line ∈ dropEmptyEnd (provider.stripped lines), provider.Plain line := by
  generalize taken : dropEmptyEnd (provider.stripped lines) = base at *
  intro line member
  have something : base ≠ [] := List.ne_nil_of_mem member
  have fronts : provider.front lines = base := by
    rw [front, taken, if_neg something]
  have written : provider.installed base = base ++ ([[]] ++ provider.behind) := by
    rw [installed, frontLines, if_neg something, List.append_assoc]
  have not_start : provider.start = base → provider.Plain line := by
    intro same
    exact (provider.start_plain line (same ▸ member)).2
  have flat : dropEmptyEnd (provider.stripped (provider.installed base)) = base ∨
      provider.start = base := by
    rw [fronts, front] at again
    split at again
    · exact .inr again
    · exact .inl again
  obtain same | starts := flat
  rotate_left
  · exact not_start starts
  replace same := congrArg List.flatten same
  rw [flatten_dropEmptyEnd] at same
  cases cutBegins : cutLines provider.begins base with
  | none =>
      cases cutEnds : cutLines provider.ends base with
      | none =>
          rw [cutLines_eq_none_iff] at cutBegins cutEnds
          exact ⟨cutBegins line member, cutEnds line member⟩
      | some around =>
          -- The begin mark of the new block comes first, the block itself stays.
          obtain ⟨before, post⟩ := around
          have first := @cutLines_append _ _ ([[]] ++ provider.behind) cutBegins
          have last := @cutLines_append_some _ _ ([[]] ++ provider.behind) _ _ cutEnds
          have opening : cutLines provider.begins ([[]] ++ provider.behind) =
              some ([[], []], [] :: (provider.inside ++ [provider.ends] ++
                List.replicate provider.feeds [])) := by
            change (cutLines provider.begins provider.behind).map _ = _
            rw [behind, cutLines_begins_blockLines]
            rfl
          rw [opening] at first
          rw [written, stripped, first, last] at same
          dsimp only [Option.map_some] at same
          rw [List.flatten_append, flatten_dropEmptyEnd, flatten_dropEmptyStart] at same
          have lengths := congrArg List.length same
          have mark : 0 < provider.begins.length := List.length_pos_iff.mpr provider.begins_ne
          simp only [List.flatten_append, List.length_append, behind, blockLines,
            List.flatten_cons] at lengths
          omega
  | some around =>
      obtain ⟨pre, after⟩ := around
      have first := @cutLines_append_some _ _ ([[]] ++ provider.behind) _ _ cutBegins
      cases cutEnds : cutLines provider.ends base with
      | none =>
          -- The lines between the begin mark and the new block are lost.
          have last := @cutLines_append _ _ ([[]] ++ provider.behind) cutEnds
          have closing : cutLines provider.ends ([[]] ++ provider.behind) =
              some ([] :: provider.begins :: (provider.inside ++ [[]]),
                [] :: List.replicate provider.feeds []) := by
            change (cutLines provider.ends provider.behind).map _ = _
            rw [behind, cutLines_ends_blockLines]
            rfl
          have feeds : dropEmptyStart ([] :: List.replicate provider.feeds []) = [] :=
            dropEmptyStart_feeds (provider.feeds + 1)
          rw [closing] at last
          rw [written, stripped, first, last] at same
          dsimp only [Option.map_some] at same
          rw [feeds, List.append_nil, flatten_dropEmptyEnd] at same
          obtain ⟨start, cutLine, rest, u, v, whole, _, here, rfl, _⟩ := exists_of_cutLines cutBegins
          have lengths := congrArg List.length same
          have mark : 0 < provider.begins.length := List.length_pos_iff.mpr provider.begins_ne
          rw [whole, eq_append_of_cut here] at lengths
          simp only [List.flatten_append, List.length_append, List.flatten_cons] at lengths
          simp at lengths
          omega
      | some surround =>
          -- The old marks are taken out, and the new block stays.
          obtain ⟨before, post⟩ := surround
          have last := @cutLines_append_some _ _ ([[]] ++ provider.behind) _ _ cutEnds
          have cleanBase := @clean_front provider lines clean
          rw [fronts] at cleanBase
          rw [← written] at first last
          have shown : splitLines (provider.uninstall (provider.install (joinLines lines))) =
              provider.stripped (provider.installed base) ++ [[]] := by
            rw [uninstall, install_joinLines clean, fronts,
              splitLines_strip (clean_installed cleanBase) first last]
          have kept := back.filled_eq
          rw [shown, stripped, first, last] at kept
          dsimp only at kept
          rw [filled_append, filled_append, filled_dropEmptyEnd, filled_dropEmptyStart,
            filled_append, filled_append, behind, filled_append] at kept
          have block : [provider.begins, provider.ends].Sublist provider.blockLines :=
            (List.sublist_append_right provider.inside [provider.ends]).cons_cons provider.begins
          have filledBlock : [provider.begins, provider.ends].Sublist
              (filled provider.blockLines) := by
            have both := block.filter fun line => !line.isEmpty
            have whole : [provider.begins, provider.ends].filter (fun line => !line.isEmpty) =
                [provider.begins, provider.ends] := by
              simp [provider.begins_ne, provider.ends_ne]
            rwa [whole] at both
          have inside : [provider.begins, provider.ends].Sublist
              (filled (outside provider.begins provider.ends lines)) := by
            rw [outside, ← kept]
            apply filledBlock.trans
            apply List.Sublist.trans _ (List.sublist_append_left _ _)
            apply List.Sublist.trans _ (List.sublist_append_right _ _)
            apply List.Sublist.trans _ (List.sublist_append_right _ _)
            apply List.Sublist.trans _ (List.sublist_append_right _ _)
            exact List.sublist_append_left _ _
          exact absurd (inside.trans List.filter_sublist) (not_block_sublist_outside lines)

theorem filled_eq_nil_iff : filled lines = [] ↔ dropEmptyEnd lines = [] := by
  rw [filled, List.filter_eq_nil_iff, dropEmptyEnd, List.rdropWhile_eq_nil_iff]
  simp

/-- A text is handled surgically exactly when it holds no mark but those of one block, each on a
line of its own, and has a line outside of it where the provider would make one. -/
theorem surgical_iff (provider : BlockProvider) (text : Text) :
    provider.Surgical text ↔ provider.Tame (splitLines text) ∧
      (provider.start = [] ∨
        ∃ line ∈ outside provider.begins provider.ends (splitLines text), line ≠ []) := by
  obtain ⟨lines, clean, rfl, same⟩ : ∃ lines, (∀ line ∈ lines, '\n' ∉ line) ∧
      text = joinLines lines ∧ splitLines text = lines :=
    ⟨splitLines text, fun line member => separator_not_mem_of_mem_splitOn member,
      (List.intercalate_splitOn '\n').symm, rfl⟩
  rw [Surgical, same, install_install_iff clean]
  -- Only empty lines are outside exactly when there is nothing to put the block behind.
  have emptied : provider.Tame lines → (dropEmptyEnd (provider.stripped lines) = [] ↔
      ¬∃ line ∈ outside provider.begins provider.ends lines, line ≠ []) := by
    intro tame
    have kept := (stretches_of_tame tame).2.filled_eq
    rw [filled_append, filled_dropEmptyEnd] at kept
    have all : filled (provider.stripped lines) =
        filled (outside provider.begins provider.ends lines) :=
      (List.append_nil _).symm.trans kept
    rw [← filled_eq_nil_iff, all, filled, List.filter_eq_nil_iff]
    push Not
    simp
  constructor
  · rintro ⟨again, back⟩
    have base := plain_of_surgical clean again back
    have fronts : ∀ line ∈ provider.front lines, provider.Plain line := by
      unfold front
      split
      · exact fun line member => (provider.start_plain line member).2
      · exact base
    rw [splitLines_uninstall clean fronts] at back
    have kept := back.filled_eq
    have owned : ∀ line ∈ outside provider.begins provider.ends lines, provider.Plain line := by
      intro line member
      by_cases empty : line = []
      · rw [empty]
        exact plain_nil
      · have among : line ∈ filled (outside provider.begins provider.ends lines) := by
          rw [filled, List.mem_filter]
          exact ⟨member, by simpa using empty⟩
        rw [outside, ← kept] at among
        rcases List.mem_append.mp (List.mem_of_mem_filter among) with here | last
        · exact fronts line here
        · rw [List.mem_singleton.mp last]
          exact plain_nil
    have tame := tame_of_plain base owned
    refine ⟨tame, ?_⟩
    by_cases nothing : dropEmptyEnd (provider.stripped lines) = []
    · left
      have none_outside := (emptied tame).mp nothing
      have new : provider.front lines = provider.start := by
        rw [front, if_pos nothing]
      have empty : filled (outside provider.begins provider.ends lines) = [] := by
        rw [filled, List.filter_eq_nil_iff]
        push Not at none_outside
        simpa using none_outside
      have starts : filled provider.start = [] := by
        rw [new, filled_append] at kept
        exact (List.append_eq_nil_iff.mp (kept.trans empty)).1
      rw [filled_eq_nil_iff, provider.start_filled] at starts
      exact starts
    · right
      by_contra none_outside
      exact nothing ((emptied tame).mpr none_outside)
  · rintro ⟨tame, enough⟩
    obtain ⟨base, gives⟩ := stretches_of_tame tame
    have fronts : provider.front lines = dropEmptyEnd (provider.stripped lines) := by
      rw [front]
      split
      · rename_i nothing
        rw [nothing]
        obtain starts | some_line := enough
        · exact starts
        · exact absurd some_line ((emptied tame).mp nothing)
      · rfl
    have plain : ∀ line ∈ provider.front lines, provider.Plain line := by
      rw [fronts]
      exact base
    have new : provider.front lines = [] → provider.start = [] := by
      intro nothing
      obtain starts | some_line := enough
      · exact starts
      · rw [fronts] at nothing
        exact absurd some_line ((emptied tame).mp nothing)
    refine ⟨front_installed plain (front_eq lines) new, ?_⟩
    rw [splitLines_uninstall clean plain, fronts]
    exact gives

end BlockProvider

/-! ## The providers of the installer -/

/-- `InstructionsProvider`. -/
def instructionsProvider : BlockProvider where
  begins := "<!-- >>> data-olympus enforce (managed) >>> -->".toList
  ends := "<!-- <<< data-olympus enforce <<< -->".toList
  inside :=
    [("<!-- data-olympus-enforce v" ++ shimVersion ++ " -->").toList,
      "## Governed decisions (data-olympus)".toList,
      [],
      "Before making a code or architectural decision (choosing a library, pattern,".toList,
      "migration, API design, schema, or auth approach), you MUST call the `kb_consult`".toList,
      "MCP tool for the current workspace and follow the governing rules it returns.".toList,
      "Treat those rules as authoritative, not advisory. This agent cannot be hard-gated".toList,
      "locally, so compliance is observed via the data-olympus audit log.".toList]
  start := []
  feeds := 1
  begins_line := by decide
  ends_line := by decide
  begins_ne := by decide
  ends_ne := by decide
  begins_apart := by decide
  inside_apart := by decide
  start_plain := by decide
  start_filled := rfl

set_option maxRecDepth 4000 in
/-- `GitHookProvider`, with a hook that blocks or one that warns. -/
def gitHookProvider (block : Bool) : BlockProvider where
  begins := "# >>> data-olympus enforce (managed) >>>".toList
  ends := "# <<< data-olympus enforce <<<".toList
  inside :=
    ("# data-olympus-enforce v" ++ shimVersion).toList ::
      if block then
        ["data-olympus report --staged --fail-on-unverified || \x7b".toList,
          ("  echo \"[KB] commit blocked: governed change without a consultation " ++
            "(set KB_ENFORCE_FAIL_MODE or run kb_consult).\" >&2; exit 1;").toList,
          "\x7d".toList]
      else ["data-olympus report --range HEAD~1..HEAD --emit-events || true".toList]
  start := ["#!/bin/sh".toList]
  feeds := 2
  begins_line := by decide
  ends_line := by decide
  begins_ne := by decide
  ends_ne := by decide
  begins_apart := by decide
  inside_apart := by
    cases block with
    | false => decide
    | true => decide
  start_plain := by decide
  start_filled := rfl

/-! ## The installer -/

/-- The installer drops an event without blocks, loses what stands between a begin mark of the
operator and its block, and leaves the first line of a hook that it has made. -/
theorem installer_is_not_surgical :
    ¬(claudeProvider (PyStr.lit "kb-enforce-hook")).Surgical emptyEvent ∧
      ¬instructionsProvider.Surgical
        "<!-- >>> data-olympus enforce (managed) >>> -->\nkeep this\n".toList ∧
      ¬(gitHookProvider false).Surgical [] := by
  refine ⟨?_, ?_, ?_⟩
  · rw [HookFileProvider.surgical_iff]
    intro settled
    have events : SettledEvents (.dict [(.str (PyStr.lit "hooks"),
        .dict [(.str (PyStr.lit "Stop"), .list [])])]) := settled rfl
    obtain ⟨blocks, same, something, _⟩ := events _ _ rfl rfl _ List.mem_cons_self
    cases same
    exact something rfl
  · rintro ⟨again, _⟩
    revert again
    decide +kernel
  · rw [BlockProvider.surgical_iff]
    rintro ⟨_, impossible | ⟨line, member, something⟩⟩
    · cases impossible
    · exact something (List.mem_singleton.mp member)

/-- When the installer is surgical: over a settings document, over a file of instructions and
over a git hook. -/
theorem installer_surgical_iff (provider : HookFileProvider) (document : SettingsDocument)
    (block : Bool) (text : Text) :
    (provider.Surgical document ↔
      (takes (loadJson document.file) = true → SettledEvents (loadJson document.file))) ∧
    (instructionsProvider.Surgical text ↔
      instructionsProvider.Tame (splitLines text)) ∧
    ((gitHookProvider block).Surgical text ↔
      (gitHookProvider block).Tame (splitLines text) ∧
        ∃ line ∈ outside (gitHookProvider block).begins (gitHookProvider block).ends
          (splitLines text), line ≠ []) := by
  refine ⟨HookFileProvider.surgical_iff provider document, ?_, ?_⟩
  · rw [BlockProvider.surgical_iff]
    exact and_iff_left (.inl rfl)
  · rw [BlockProvider.surgical_iff, or_iff_right]
    exact List.cons_ne_nil _ _

end DataOlympus.Installer
