import DataOlympus.Index.Storable
import Mathlib.Data.List.Infix

/-!
# Writable paths

The write path and the index exclude directories by two lists.  A writable path is picked up by
the build unless one of its names is in the second list only, or one of its directories is
named like a document.
-/

namespace DataOlympus

open Lines

/-- `STRUCTURALLY_EXCLUDED`. -/
def structurallyExcluded : List Text :=
  [".git", ".worktrees", ".ruff_cache", "__pycache__", "to-delete", "archive", "_archive",
    "tools", ".pytest_cache", ".mypy_cache", "node_modules"].map String.toList

/-- `DEFAULT_INDEXED_PREFIXES`. -/
def defaultIndexedPrefixes : List Text :=
  ["universal/", "tech-stacks/", "projects/", "decisions/", "workflows/", "memory/",
    "tooling/", "templates/"].map String.toList

/-- `raw.replace("\\", "/").split("/")`. -/
def pathParts (raw : Text) : List Text :=
  (raw.map fun c => if c = '\\' then '/' else c).splitOn '/'

/-- A control character. -/
def isControl (c : Char) : Bool :=
  c.toNat < 0x20 || c.toNat = 0x7F

/-- `normalize_target_path(raw)`. -/
def normalizeTargetPath (raw : Text) : Option RelPath :=
  if (strip raw).isEmpty then none
  else if raw.any isControl then none
  else if raw.head? = some '/' || (raw.drop 1).head? = some ':' then none
  else if named : ∀ part ∈ pathParts raw, part ≠ [] ∧ part ≠ ['.'] ∧ part ≠ ['.', '.'] then
    if (pathParts raw).any fun part => part ∈ structurallyExcluded then none
    else some {
      segments := pathParts raw
      nonempty := List.splitOn_ne_nil _ _
      canonical := fun part member =>
        ⟨(named part member).1, separator_not_mem_of_mem_splitOn member,
          (named part member).2⟩ }
  else none

/-- `is_writable_path(target_path)` for the indexed prefixes. -/
def isWritablePath (indexedPrefixes : List Text) (targetPath : Text) : Bool :=
  match normalizeTargetPath targetPath with
  | none => false
  | some path =>
      ".md".toList.isSuffixOf path.text &&
        indexedPrefixes.any fun indexed => indexed.isPrefixOf path.text

/-- The names that only the index excludes. -/
def unindexedNames : List Text :=
  [".venv", "data-olympus-mcp", "test-fixtures", "cli-fixtures"].map String.toList

/-- None of the names is one that only the index excludes, and no directory is named like a
document. -/
def RelPath.Unobstructed (path : RelPath) : Prop :=
  (∀ segment ∈ path.segments, segment ∉ unindexedNames) ∧
    ∀ directory ∈ path.segments.dropLast, RelPath.isMarkdownName directory = false

/-! ## The two rules -/

theorem segments_of_normalizeTargetPath {raw : Text} {path : RelPath}
    (normalized : normalizeTargetPath raw = some path) :
    path.segments = pathParts raw ∧
      ∀ segment ∈ path.segments, segment ∉ structurallyExcluded := by
  unfold normalizeTargetPath at normalized
  split_ifs at normalized with _ _ _ _ excluded
  cases normalized
  refine ⟨rfl, ?_⟩
  intro segment member listed
  exact excluded (List.any_eq_true.mpr ⟨segment, member, decide_eq_true listed⟩)

theorem normalizeTargetPath_of_isWritablePath {prefixes : List Text} {raw : Text}
    (writable : isWritablePath prefixes raw = true) :
    ∃ path, normalizeTargetPath raw = some path ∧ ".md".toList <:+ path.text := by
  unfold isWritablePath at writable
  split at writable
  · cases writable
  · rename_i path normalized
    exact ⟨path, normalized, List.isSuffixOf_iff_suffix.mp (Bool.and_eq_true_iff.mp writable).1⟩

/-- A path is its name, perhaps behind a slash. -/
theorem RelPath.text_eq (path : RelPath) :
    path.text = path.name ∨ '/' :: path.name <:+ path.text := by
  have ends : ∀ segments (nonempty : segments ≠ []),
      ['/'].intercalate segments = segments.getLast nonempty ∨
        '/' :: segments.getLast nonempty <:+ ['/'].intercalate segments := by
    intro segments
    induction segments with
    | nil => exact fun empty => absurd rfl empty
    | cons first rest ih =>
        intro _
        cases rest with
        | nil => exact .inl List.intercalate_singleton
        | cons second later =>
            right
            rw [List.intercalate_cons_cons, List.getLast_cons (List.cons_ne_nil second later)]
            rcases ih (List.cons_ne_nil second later) with same | behind
            · rw [same]
              exact ⟨first, by simp⟩
            · exact behind.trans (List.suffix_append _ _)
  exact ends path.segments path.nonempty

/-- An ending of a path that has no slash is one of its name. -/
theorem RelPath.suffix_name {path : RelPath} {ending : Text} (flat : '/' ∉ ending)
    (suffix : ending <:+ path.text) : ending <:+ path.name := by
  rcases path.text_eq with same | behind
  · rwa [same] at suffix
  · rcases List.suffix_or_suffix_of_suffix suffix behind with inside | outside
    · rcases List.suffix_cons_iff.mp inside with rfl | short
      · exact absurd List.mem_cons_self flat
      · exact short
    · exact absurd (outside.subset List.mem_cons_self) flat

/-- A name that the index excludes and the write path does not is one of four. -/
theorem mem_unindexedNames_iff {segment : Text} (allowed : segment ∉ structurallyExcluded) :
    segment ∈ RelPath.excludedDirNames ↔ segment ∈ unindexedNames := by
  have inside : ∀ name ∈ RelPath.excludedDirNames,
      name ∈ structurallyExcluded ∨ name ∈ unindexedNames := by
    decide
  have back : ∀ name ∈ unindexedNames, name ∈ RelPath.excludedDirNames := by
    decide
  constructor
  · intro excluded
    exact (inside segment excluded).resolve_left allowed
  · exact back segment

/-- A directory before the name is named like a document. -/
theorem RelPath.markdownDirectory_eq_false_iff {path : RelPath}
    (entered : path.isExcluded = false) : path.markdownDirectory = false ↔
      ∀ directory ∈ path.segments.dropLast, RelPath.isMarkdownName directory = false := by
  have inner : ∀ {before}, before <+: path.segments →
      RelPath.excludedSegments before = false := by
    intro before leading
    rw [RelPath.isExcluded, RelPath.excludedSegments, List.any_eq_false] at entered
    rw [RelPath.excludedSegments, List.any_eq_false]
    exact fun segment member => entered segment (leading.subset member)
  unfold RelPath.markdownDirectory
  rw [List.any_eq_false]
  constructor
  · intro plain directory member
    obtain ⟨before, after, split⟩ := List.append_of_mem member
    have short : before ++ [directory] <+: path.segments.dropLast :=
      ⟨after, by rw [split]; simp⟩
    have leading := short.trans (List.dropLast_prefix _)
    have length := short.length_le
    rw [List.length_dropLast] at length
    have quiet := plain (before ++ [directory]) ((List.mem_inits _ _).mpr leading)
    have positive := List.length_pos_of_ne_nil path.nonempty
    have shorter : (before ++ [directory]).length < path.segments.length := by
      omega
    rw [decide_eq_true shorter, inner leading] at quiet
    simpa using quiet
  · intro plain before member
    have leading := (List.mem_inits _ _).mp member
    simp only [Bool.and_eq_true, decide_eq_true_eq, not_and, Bool.not_eq_true]
    rintro ⟨shorter, -⟩
    cases last : before.getLast? with
    | none => rfl
    | some directory =>
        have short : before <+: path.segments.dropLast := by
          rw [List.dropLast_eq_take, List.prefix_take_iff]
          exact ⟨leading, by omega⟩
        exact plain directory (short.subset (List.mem_of_getLast? last))

theorem unobstructed_iff {prefixes : List Text} {raw : Text} {path : RelPath}
    (writable : isWritablePath prefixes raw = true)
    (normalized : normalizeTargetPath raw = some path) :
    path.Unobstructed ↔ path.indexable = true ∧ path.markdownDirectory = false := by
  obtain ⟨other, same, markdown⟩ := normalizeTargetPath_of_isWritablePath writable
  cases Option.some.inj (normalized.symm.trans same)
  have allowed := (segments_of_normalizeTargetPath normalized).2
  have named : RelPath.isMarkdownName path.name = true :=
    List.isSuffixOf_iff_suffix.mpr (RelPath.suffix_name (by decide) markdown)
  have entered : path.isExcluded = false ↔
      ∀ segment ∈ path.segments, segment ∉ unindexedNames := by
    rw [RelPath.isExcluded, RelPath.excludedSegments, List.any_eq_false]
    apply forall₂_congr
    intro segment member
    rw [decide_eq_true_eq, mem_unindexedNames_iff (allowed segment member)]
  rw [RelPath.Unobstructed, ← entered, RelPath.indexable, named, Bool.true_and,
    Bool.not_eq_true']
  exact and_congr_right fun inside => (RelPath.markdownDirectory_eq_false_iff inside).symm

/-! ## The build after a write -/

namespace Runtime

variable (runtime : Runtime) (config : IndexConfig)

/-- A document that is written at this path is picked up: where the tree builds, and no other
document has its id, the tree with it builds, and the index has its row. -/
def PicksUp (path : RelPath) : Prop :=
  ∀ (tree : Tree) (committed : Text) (file : ParsedFile),
    (∃ index, runtime.build config tree = .ok index) →
    runtime.parseFile path committed = .ok file → file.storable config = true →
    (∀ other otherFile, other ≠ path → runtime.DocumentAt tree other otherFile →
      otherFile.docId ≠ file.docId) →
    ∃ index, runtime.build config (tree.write path committed) = .ok index ∧
      file.row config ∈ index.rows

variable {runtime config}

/-- The documents of a tree with one file written. -/
theorem documentAt_write_of_ne {tree : Tree} {path other : RelPath} {committed : Text}
    {file : ParsedFile} (different : other ≠ path) :
    runtime.DocumentAt (tree.write path committed) other file ↔
      runtime.DocumentAt tree other file := by
  rw [DocumentAt, DocumentAt, Tree.lookup_write_of_ne tree committed different]

theorem documentAt_write_self {tree : Tree} {path : RelPath} {committed : Text}
    {file found : ParsedFile} (parsed : runtime.parseFile path committed = .ok file)
    (document : runtime.DocumentAt (tree.write path committed) path found) : found = file := by
  obtain ⟨-, text, here, done⟩ := document
  rw [Tree.lookup_write] at here
  cases Option.some.inj here
  exact Except.ok.inj (done.symm.trans parsed)

/-- A document at a path that the walk reaches is picked up. -/
theorem picksUp_of_indexable {path : RelPath} (indexed : path.indexable = true)
    (plain : path.markdownDirectory = false) : runtime.PicksUp config path := by
  intro tree committed file built parsed stored fresh
  obtain ⟨directories, storable, distinct⟩ := (runtime.build_ok_iff config).mp built
  have document : runtime.DocumentAt (tree.write path committed) path file :=
    ⟨indexed, committed, Tree.lookup_write tree path committed, parsed⟩
  have builds : ∃ index, runtime.build config (tree.write path committed) = .ok index := by
    apply (runtime.build_ok_iff config).mpr
    refine ⟨?_, ?_, ?_⟩
    · intro other member
      by_cases same : other = path
      · rw [same]
        exact plain
      · rcases (AList.mem_insert tree).mp member with here | there
        · exact absurd here same
        · exact directories other there
    · intro other text here reached
      by_cases same : other = path
      · rw [same, Tree.lookup_write] at here
        cases Option.some.inj here
        rw [same]
        exact ⟨file, parsed, stored⟩
      · rw [Tree.lookup_write_of_ne tree committed same] at here
        exact storable other text here reached
    · intro first second firstFile secondFile here there sameId
      by_cases same : first = path
      · by_cases same' : second = path
        · rw [same, same']
        · rw [same] at here
          cases documentAt_write_self parsed here
          exact absurd sameId.symm
            (fresh second secondFile same' ((documentAt_write_of_ne same').mp there))
      · have before := (documentAt_write_of_ne same).mp here
        by_cases same' : second = path
        · rw [same'] at there
          cases documentAt_write_self parsed there
          exact absurd sameId (fresh first firstFile same before)
        · exact distinct first second firstFile secondFile before
            ((documentAt_write_of_ne same').mp there) sameId
  obtain ⟨index, done⟩ := builds
  obtain ⟨files, parsedTree, rfl, -⟩ := runtime.exists_files_of_build config done
  have rel := runtime.parseFile_rel parsed
  subst rel
  exact ⟨_, done, List.mem_map_of_mem ((runtime.mem_parseTree_iff parsedTree).mpr document)⟩

/-- An empty document can be stored anywhere. -/
theorem exists_storable_empty (path : RelPath) :
    ∃ file, runtime.parseFile path [] = .ok file ∧ file.storable config = true := by
  apply (runtime.storable_iff config).mpr
  exact ⟨[], rfl, rfl, rfl⟩

/-- A document is picked up only at a path that the walk reaches. -/
theorem indexable_of_picksUp {path : RelPath} (picked : runtime.PicksUp config path) :
    path.indexable = true ∧ path.markdownDirectory = false := by
  obtain ⟨file, parsed, stored⟩ := @exists_storable_empty runtime config path
  obtain ⟨index, built, row⟩ := picked ∅ [] file ⟨_, rfl⟩ parsed stored
    (fun _ _ _ document => by obtain ⟨-, _, here, -⟩ := document; cases here)
  obtain ⟨directories, -⟩ := (runtime.build_ok_iff config).mp ⟨index, built⟩
  refine ⟨?_, directories path ((AList.mem_insert ∅).mpr (.inl rfl))⟩
  obtain ⟨files, parsedTree, rfl, -⟩ := runtime.exists_files_of_build config built
  obtain ⟨found, member, same⟩ := List.mem_map.mp row
  have rel : found.rel = path := by
    rw [← runtime.parseFile_rel parsed]
    exact congrArg DocRow.path same
  obtain ⟨indexed, -⟩ := (runtime.mem_parseTree_iff parsedTree).mp member
  rwa [rel] at indexed

end Runtime

/-- A document that is written at a writable path is picked up by the build exactly if no name
in the path is one that only the index excludes, and no directory is named like a document. -/
theorem writable_path_is_indexed_iff (runtime : Runtime) (config : IndexConfig)
    (indexedPrefixes : List Text) (targetPath : Text)
    (writable : isWritablePath indexedPrefixes targetPath = true) :
    ∃ path, normalizeTargetPath targetPath = some path ∧
      (runtime.PicksUp config path ↔ path.Unobstructed) := by
  obtain ⟨path, normalized, -⟩ := normalizeTargetPath_of_isWritablePath writable
  refine ⟨path, normalized, ?_⟩
  rw [unobstructed_iff writable normalized]
  exact ⟨Runtime.indexable_of_picksUp, fun reached =>
    Runtime.picksUp_of_indexable reached.1 reached.2⟩

/-- A path of the default deployment. -/
def notePath (directory : String) : Text :=
  "projects/".toList ++ directory.toList ++ "/note.md".toList

/-- A note in the directory of a project is picked up. -/
theorem project_note_is_indexed : ∃ path, normalizeTargetPath (notePath "harbor") = some path ∧
    (Runtime.ofBlocks []).PicksUp IndexConfig.default path := by
  obtain ⟨path, normalized, indexed⟩ := writable_path_is_indexed_iff (Runtime.ofBlocks [])
    IndexConfig.default defaultIndexedPrefixes (notePath "harbor") (by decide)
  refine ⟨path, normalized, indexed.mpr ?_⟩
  have segments := (segments_of_normalizeTargetPath normalized).1
  rw [RelPath.Unobstructed, segments]
  decide

/-- A note in a directory of test fixtures is not, although its path is writable. -/
theorem fixture_note_is_not_indexed :
    isWritablePath defaultIndexedPrefixes (notePath "test-fixtures") = true ∧
      ∃ path, normalizeTargetPath (notePath "test-fixtures") = some path ∧
        ¬(Runtime.ofBlocks []).PicksUp IndexConfig.default path := by
  have writable : isWritablePath defaultIndexedPrefixes (notePath "test-fixtures") = true := by
    decide
  obtain ⟨path, normalized, -⟩ := normalizeTargetPath_of_isWritablePath writable
  refine ⟨writable, path, normalized, ?_⟩
  intro picked
  have reached := (Runtime.indexable_of_picksUp picked).1
  have segments := (segments_of_normalizeTargetPath normalized).1
  rw [RelPath.indexable, RelPath.isExcluded, segments] at reached
  revert reached
  have excluded : RelPath.excludedSegments (pathParts (notePath "test-fixtures")) = true := by
    decide
  simp [excluded]

end DataOlympus
