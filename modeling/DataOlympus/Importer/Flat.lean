import DataOlympus.Text.Splitlines

/-!
# Splitting flat rule files

A file with headings is split at one depth, a file without into clusters of lines.  Both loops
collect lines and flush them, and lose blank lines only.
-/

namespace DataOlympus.Importer

open Lines

/-- `MIN_BODY_CHARS`. -/
def minBodyChars : Nat := 40

/-- `Section`. -/
structure Section where
  heading : Text
  body : Text
  deriving DecidableEq

/-! ## Headings -/

/-- What `\s*#*\s*$` matches. -/
def closesHeading (text : Text) : Bool :=
  (((text.dropWhile isSpace).dropWhile (· = '#')).dropWhile isSpace).isEmpty

/-- `heading_text`: at most three blanks, one to six marks, a blank, and the shortest text
before the closing marks. -/
def headingText (line : Text) : Option Text :=
  let marks := (line.dropWhile isSpace).takeWhile (· = '#')
  let behind := (line.dropWhile isSpace).dropWhile (· = '#')
  if (line.takeWhile isSpace).length ≤ 3 ∧ 1 ≤ marks.length ∧ marks.length ≤ 6 ∧
      behind.head?.any isSpace then
    let text := behind.dropWhile isSpace
    some (strip ((text.inits.find? fun start => closesHeading (text.drop start.length)).getD text))
  else none

/-- `_heading_depth`. -/
def headingDepth (line : Text) : Option Nat :=
  let stripped := line.dropWhile isSpace
  if stripped.head? ≠ some '#' then none
  else if (headingText line).isNone then none
  else
    let depth := (stripped.takeWhile (· = '#')).length
    if 1 ≤ depth ∧ depth ≤ 6 then some depth else none

/-- `Section.body_len`. -/
def Section.bodyLen (sec : Section) : Nat :=
  match splitlines sec.body with
  | [] => (strip sec.body).length
  | first :: rest =>
      if (headingDepth first).isSome then (strip (joinLines rest)).length
      else (strip sec.body).length

/-- `_top_heading_depth`, where there is a heading. -/
def topHeadingDepth (lines : List Text) : Option Nat :=
  let depths := lines.filterMap headingDepth
  let repeated := depths.filter fun depth => 1 < depths.count depth
  if repeated.isEmpty then depths.min? else repeated.min?

/-- The line is a heading at which the file is split. -/
def isBoundary (boundary : Nat) (line : Text) : Bool :=
  (headingDepth line).any (· ≤ boundary)

/-! ## The two splitters -/

/-- A section of collected lines. -/
def sectionOf (heading : Text) (lines : List Text) : Section :=
  ⟨heading, stripNewlines (joinLines lines)⟩

/-- The section that is flushed: a preamble only if it is not blank. -/
def flushSection (heading : Text) (lines : List Text) (started : Bool) : List Section :=
  if started || !(strip lines.flatten).isEmpty then [sectionOf heading lines] else []

/-- The loop of `_split_by_headings`, with the lines collected so far. -/
def headingSections (boundary : Nat) :
    (heading : Text) → (lines : List Text) → (started : Bool) → List Text → List Section
  | heading, lines, started, [] => flushSection heading lines started
  | heading, lines, started, line :: rest =>
      if isBoundary boundary line then
        let title := (headingText line).getD []
        flushSection heading lines started ++
          headingSections boundary (if title.isEmpty then "Untitled".toList else title) [line]
            true rest
      else headingSections boundary heading (lines ++ [line]) started rest

/-- `_split_by_headings`. -/
def splitByHeadings (text : Text) : List Section :=
  let lines := splitlines text
  headingSections ((topHeadingDepth lines).getD 0) "Preamble".toList [] false lines

/-- The heading of a cluster. -/
def clusterHeading (first : Text) : Text :=
  let marks := "-*+ ".toList
  let stripped := strip ((strip first).dropWhile (· ∈ marks))
  let heading := if stripped.isEmpty then "Rule".toList else stripped
  if 80 < heading.length then (heading.take 79).rdropWhile isSpace ++ ['…'] else heading

/-- The section of a cluster. -/
def flushCluster : List Text → List Section
  | [] => []
  | first :: rest => [sectionOf (clusterHeading first) (first :: rest)]

/-- The loop of `_split_by_clusters`, with the lines collected so far. -/
def clusterSections : (cluster : List Text) → List Text → List Section
  | cluster, [] => flushCluster cluster
  | cluster, line :: rest =>
      if isBlank line then flushCluster cluster ++ clusterSections [] rest
      else clusterSections (cluster ++ [line]) rest

/-- `_split_by_clusters`. -/
def splitByClusters (text : Text) : List Section :=
  clusterSections [] (splitlines text)

/-- `has_headings`. -/
def hasHeadings (text : Text) : Bool :=
  (splitlines text).any fun line => (headingDepth line).isSome

/-- `split_flat`. -/
def splitFlat (text : Text) : List Section :=
  if hasHeadings text then splitByHeadings text else splitByClusters text

example : splitFlat "Intro\n\n# A\nx\n## B\ny\n\n# C #\n".toList =
    [⟨"Preamble".toList, "Intro".toList⟩, ⟨"A".toList, "# A\nx\n## B\ny".toList⟩,
      ⟨"C".toList, "# C #".toList⟩] := by
  decide

/-! ## No line is lost -/

/-- The visible lines of the collected lines. -/
def visible (lines : List Text) : List Text :=
  lines.filter fun line => !isBlank line

@[simp]
theorem visible_nil : visible [] = [] :=
  rfl

@[simp]
theorem visible_append (first second : List Text) :
    visible (first ++ second) = visible first ++ visible second :=
  List.filter_append first second

theorem visibleLines_sectionOf {lines : List Text} (plain : ∀ line ∈ lines, OneLine line)
    (heading : Text) : visibleLines (sectionOf heading lines).body = visible lines := by
  rw [sectionOf, visibleLines_stripNewlines, visibleLines_joinLines plain, visible]

/-- A flush loses blank lines only. -/
theorem visibleLines_flushSection {lines : List Text} (plain : ∀ line ∈ lines, OneLine line)
    (heading : Text) (started : Bool) :
    (flushSection heading lines started).flatMap (fun sec => visibleLines sec.body) =
      visible lines := by
  unfold flushSection
  split
  · rw [List.flatMap_singleton, visibleLines_sectionOf plain]
  · rename_i dropped
    rw [Bool.or_eq_true, not_or, Bool.not_eq_true', Bool.not_eq_false] at dropped
    have blank : ∀ c ∈ lines.flatten, isSpace c = true := isBlank_iff.mp dropped.2
    symm
    apply List.filter_eq_nil_iff.mpr
    intro line member
    rw [Bool.not_eq_true', Bool.not_eq_false, isBlank_iff]
    intro c inside
    exact blank c (List.mem_flatten_of_mem member inside)

/-- The loop loses blank lines only. -/
theorem visibleLines_headingSections (boundary : Nat) {rest : List Text}
    (plain : ∀ line ∈ rest, OneLine line) {lines : List Text}
    (collected : ∀ line ∈ lines, OneLine line) (heading : Text) (started : Bool) :
    (headingSections boundary heading lines started rest).flatMap
        (fun sec => visibleLines sec.body) = visible lines ++ visible rest := by
  induction rest generalizing heading lines started with
  | nil =>
      rw [headingSections, visibleLines_flushSection collected, visible_nil, List.append_nil]
  | cons line rest ih =>
      obtain ⟨first, later⟩ := List.forall_mem_cons.mp plain
      rw [headingSections]
      split
      · rw [List.flatMap_append, visibleLines_flushSection collected,
          ih later (List.forall_mem_singleton.mpr first), ← visible_append, List.singleton_append]
      · have more : ∀ other ∈ lines ++ [line], OneLine other :=
          List.forall_mem_append.mpr ⟨collected, List.forall_mem_singleton.mpr first⟩
        rw [ih later more, ← visible_append, ← visible_append, List.append_assoc,
          List.singleton_append]

theorem visibleLines_flushCluster {cluster : List Text}
    (plain : ∀ line ∈ cluster, OneLine line) :
    (flushCluster cluster).flatMap (fun sec => visibleLines sec.body) = visible cluster := by
  cases cluster with
  | nil => rfl
  | cons first rest => rw [flushCluster, List.flatMap_singleton, visibleLines_sectionOf plain]

/-- The loop over clusters loses blank lines only. -/
theorem visibleLines_clusterSections {rest : List Text} (plain : ∀ line ∈ rest, OneLine line)
    {cluster : List Text} (collected : ∀ line ∈ cluster, OneLine line) :
    (clusterSections cluster rest).flatMap (fun sec => visibleLines sec.body) =
      visible cluster ++ visible rest := by
  induction rest generalizing cluster with
  | nil =>
      rw [clusterSections, visibleLines_flushCluster collected, visible_nil, List.append_nil]
  | cons line rest ih =>
      obtain ⟨first, later⟩ := List.forall_mem_cons.mp plain
      rw [clusterSections]
      split
      · rename_i blank
        have none : ∀ other ∈ ([] : List Text), OneLine other := by simp
        have dropped : visible (line :: rest) = visible rest := by
          rw [visible, List.filter_cons_of_neg (by simp [blank]), visible]
        rw [List.flatMap_append, visibleLines_flushCluster collected, ih later none, dropped]
        rfl
      · have more : ∀ other ∈ cluster ++ [line], OneLine other :=
          List.forall_mem_append.mpr ⟨collected, List.forall_mem_singleton.mpr first⟩
        rw [ih later more, ← visible_append, ← visible_append, List.append_assoc,
          List.singleton_append]

/-- The visible lines of a file are those of its sections, each once and in order. -/
theorem visibleLines_splitFlat (text : Text) :
    (splitFlat text).flatMap (fun sec => visibleLines sec.body) = visibleLines text := by
  have plain : ∀ line ∈ splitlines text, OneLine line := fun line => oneLine_of_mem_splitlines
  have none : ∀ line ∈ ([] : List Text), OneLine line := by simp
  unfold splitFlat
  split
  · exact visibleLines_headingSections _ plain none _ _
  · exact visibleLines_clusterSections plain none

/-! ## Where a section begins -/

/-- A line that is not empty stays the first line of its section. -/
theorem splitlines_sectionOf {first : Text} {rest : List Text} (heading : Text)
    (plain : ∀ line ∈ first :: rest, OneLine line) (nonempty : first ≠ []) :
    ∃ more, splitlines (sectionOf heading (first :: rest)).body = first :: more ∧
      visible more = visible rest := by
  obtain ⟨front, later⟩ := List.forall_mem_cons.mp plain
  have kept := visibleLines_sectionOf plain heading
  have starts : ∃ more, splitlines (sectionOf heading (first :: rest)).body = first :: more := by
    unfold sectionOf
    cases rest with
    | nil =>
        have glued : joinLines [first] = first ++ [] := by
          simp [joinLines, List.intercalate]
        rw [glued, stripNewlines_append front nonempty]
        exact ⟨[], by rw [List.rdropWhile_nil, List.append_nil,
          splitlines_of_oneLine front nonempty]⟩
    | cons next rest =>
        have glued : joinLines (first :: next :: rest) =
            first ++ '\n' :: joinLines (next :: rest) := by
          rw [joinLines, List.intercalate_cons_of_ne_nil (List.cons_ne_nil next rest),
            List.append_assoc]
          rfl
        rw [glued, stripNewlines_append front nonempty]
        rcases List.prefix_cons_iff.mp (List.rdropWhile_prefix (· = '\n')
          ('\n' :: joinLines (next :: rest))) with none | ⟨after, some, -⟩
        · rw [none, List.append_nil]
          exact ⟨[], splitlines_of_oneLine front nonempty⟩
        · rw [some]
          exact ⟨splitlines after, splitlines_append_lf front after⟩
  obtain ⟨more, lines⟩ := starts
  refine ⟨more, lines, ?_⟩
  rw [visibleLines, lines] at kept
  have same : visible (first :: more) = visible (first :: rest) := kept
  unfold visible at same ⊢
  rw [List.filter_cons, List.filter_cons] at same
  split at same
  · exact (List.cons.inj same).2
  · exact same

theorem isBlank_of_isBoundary {boundary : Nat} {line : Text}
    (bounds : isBoundary boundary line = true) : isBlank line = false := by
  by_contra blank
  rw [Bool.not_eq_false] at blank
  have spaces := isBlank_iff.mp blank
  have stripped : line.dropWhile isSpace = [] := List.dropWhile_eq_nil_iff.mpr spaces
  rw [isBoundary, headingDepth, stripped] at bounds
  cases bounds

/-- No line of the section but its first is a boundary. -/
def HeadOnly (boundary : Nat) (sec : Section) : Prop :=
  ∀ line ∈ (splitlines sec.body).tail, isBoundary boundary line = false

/-- Among the collected lines only the first may be a boundary. -/
def Collects (boundary : Nat) (lines : List Text) : Prop :=
  (∀ line ∈ lines, isBoundary boundary line = false) ∨
    ∃ first rest, lines = first :: rest ∧ first ≠ [] ∧
      ∀ line ∈ rest, isBoundary boundary line = false

theorem Collects.concat {boundary : Nat} {lines : List Text} {line : Text}
    (collects : Collects boundary lines) (inner : isBoundary boundary line = false) :
    Collects boundary (lines ++ [line]) := by
  rcases collects with none | ⟨first, rest, rfl, nonempty, none⟩
  · exact .inl (List.forall_mem_append.mpr ⟨none, List.forall_mem_singleton.mpr inner⟩)
  · exact .inr ⟨first, rest ++ [line], rfl, nonempty,
      List.forall_mem_append.mpr ⟨none, List.forall_mem_singleton.mpr inner⟩⟩

theorem collects_boundary {boundary : Nat} {line : Text}
    (bounds : isBoundary boundary line = true) : Collects boundary [line] := by
  refine .inr ⟨line, [], rfl, ?_, by simp⟩
  rintro rfl
  have visibly := isBlank_of_isBoundary bounds
  cases visibly

theorem mem_visible_of_isBoundary {boundary : Nat} {line : Text} {lines : List Text}
    (member : line ∈ lines) (bounds : isBoundary boundary line = true) : line ∈ visible lines :=
  List.mem_filter.mpr ⟨member, by rw [isBlank_of_isBoundary bounds]; rfl⟩

/-- A flushed section has no boundary inside. -/
theorem headOnly_flushSection {boundary : Nat} {lines : List Text}
    (plain : ∀ line ∈ lines, OneLine line)
    (collects : Collects boundary lines) (heading : Text) (started : Bool) :
    ∀ sec ∈ flushSection heading lines started, HeadOnly boundary sec := by
  intro sec member
  unfold flushSection at member
  split at member
  · cases List.mem_singleton.mp member
    intro line inside
    by_contra bounds
    rw [Bool.not_eq_false] at bounds
    rcases collects with none | ⟨first, rest, rfl, nonempty, none⟩
    · have visibly := mem_visible_of_isBoundary (List.mem_of_mem_tail inside) bounds
      rw [visible, ← visibleLines, visibleLines_sectionOf plain] at visibly
      have among := none line (List.mem_filter.mp visibly).1
      rw [among] at bounds
      cases bounds
    · obtain ⟨more, lines, same⟩ := splitlines_sectionOf heading plain nonempty
      rw [lines, List.tail_cons] at inside
      have visibly := mem_visible_of_isBoundary inside bounds
      rw [same] at visibly
      have among := none line (List.mem_filter.mp visibly).1
      rw [among] at bounds
      cases bounds
  · cases member

/-- The loop puts no boundary inside a section. -/
theorem headOnly_headingSections (boundary : Nat) {rest : List Text}
    (plain : ∀ line ∈ rest, OneLine line) {lines : List Text}
    (collected : ∀ line ∈ lines, OneLine line) (collects : Collects boundary lines)
    (heading : Text) (started : Bool) :
    ∀ sec ∈ headingSections boundary heading lines started rest, HeadOnly boundary sec := by
  induction rest generalizing heading lines started with
  | nil => exact headOnly_flushSection collected collects heading started
  | cons line rest ih =>
      obtain ⟨first, later⟩ := List.forall_mem_cons.mp plain
      rw [headingSections]
      split
      · rename_i bounds
        intro sec member
        rcases List.mem_append.mp member with flushed | further
        · exact headOnly_flushSection collected collects heading started sec flushed
        · exact ih later (List.forall_mem_singleton.mpr first) (collects_boundary bounds) _ _ sec
            further
      · rename_i inner
        apply ih later
        · exact List.forall_mem_append.mpr ⟨collected, List.forall_mem_singleton.mpr first⟩
        · exact collects.concat (Bool.eq_false_iff.mpr inner)

/-- A file with headings has a boundary depth, and no section has a heading of that depth or
above but in its first line. -/
theorem headOnly_splitFlat {text : Text} (headings : hasHeadings text = true) :
    ∃ boundary, topHeadingDepth (splitlines text) = some boundary ∧
      ∀ sec ∈ splitFlat text, HeadOnly boundary sec := by
  have plain : ∀ line ∈ splitlines text, OneLine line := fun line => oneLine_of_mem_splitlines
  have some : ∃ boundary, topHeadingDepth (splitlines text) = some boundary := by
    apply Option.isSome_iff_exists.mp
    obtain ⟨line, member, heading⟩ := List.any_eq_true.mp headings
    obtain ⟨depth, found⟩ := Option.isSome_iff_exists.mp heading
    have among : depth ∈ (splitlines text).filterMap headingDepth :=
      List.mem_filterMap.mpr ⟨line, member, found⟩
    unfold topHeadingDepth
    dsimp only
    split
    · rw [Option.isSome_iff_ne_none, ne_eq, List.min?_eq_none_iff]
      exact List.ne_nil_of_mem among
    · rename_i repeats
      rw [Option.isSome_iff_ne_none, ne_eq, List.min?_eq_none_iff]
      exact fun none => repeats (List.isEmpty_iff.mpr none)
  obtain ⟨boundary, top⟩ := some
  refine ⟨boundary, top, ?_⟩
  rw [splitFlat, if_pos headings, splitByHeadings, top, Option.getD_some]
  exact headOnly_headingSections boundary plain (by simp) (.inl (by simp)) _ _

end DataOlympus.Importer
