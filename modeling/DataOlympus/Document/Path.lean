import DataOlympus.Python.Value
import Mathlib.Data.List.AList

/-!
# Paths and trees

A path relative to the knowledge base root is a nonempty list of segments, the
form in which both `normalize_target_path` and `Path.relative_to` leave it.  A
committed tree assigns a text to finitely many paths.
-/

namespace DataOlympus

open Lines

/-- A canonical relative path. -/
structure RelPath where
  segments : List Text
  nonempty : segments ≠ []
  canonical : ∀ segment ∈ segments,
    segment ≠ [] ∧ '/' ∉ segment ∧ segment ≠ ['.'] ∧ segment ≠ ['.', '.']
  deriving DecidableEq

namespace RelPath

/-- `str(rel)`. -/
def text (path : RelPath) : Text :=
  ['/'].intercalate path.segments

/-- `rel.name`. -/
def name (path : RelPath) : Text :=
  path.segments.getLast path.nonempty

/-- The directory names the index does not enter. -/
def excludedDirNames : List Text :=
  [".git", ".pytest_cache", ".mypy_cache", ".ruff_cache", ".venv", "__pycache__",
    "node_modules", ".worktrees", "to-delete", "archive", "_archive",
    "data-olympus-mcp", "test-fixtures", "cli-fixtures"].map String.toList

/-- `_is_excluded(rel)` on the segments of `rel`. -/
def excludedSegments (segments : List Text) : Bool :=
  segments.any fun segment => segment ∈ excludedDirNames

def isExcluded (path : RelPath) : Bool :=
  excludedSegments path.segments

/-- `name.endswith(".md")`. -/
def isMarkdownName (name : Text) : Bool :=
  ".md".toList.isSuffixOf name

/-- The index reads the file at this path. -/
def indexable (path : RelPath) : Bool :=
  isMarkdownName path.name && !path.isExcluded

/-- `name in RESERVED`. -/
def isReserved (path : RelPath) : Bool :=
  path.name ∈ ["index.md".toList, "log.md".toList, "template.md".toList]

/-- `is_inbox_path(rel)` for the directory prefix of the memory inbox. -/
def isInbox (inboxPrefix : Text) (path : RelPath) : Bool :=
  inboxPrefix.isPrefixOf (path.text.map fun c => if c = '\\' then '/' else c)

/-- A name without its last suffix.  Leading dots start no suffix. -/
def stem (name : Text) : Text :=
  match (name.reverse.dropWhile (· ≠ '.')).drop 1 with
  | [] => name
  | before => if before.all (· = '.') then name else before.reverse

/-- `_derive_id_from_path(rel)`. -/
def deriveId (path : RelPath) : Text :=
  ['-'].intercalate (path.segments.dropLast ++ [stem path.name])

theorem stem_ne_nil {name : Text} (nonempty : name ≠ []) : stem name ≠ [] := by
  unfold stem
  split
  · exact nonempty
  · split_ifs
    · exact nonempty
    · simp_all

/-- A derived id is never empty. -/
theorem deriveId_ne_nil (path : RelPath) : path.deriveId ≠ [] := by
  have named : path.name ≠ [] :=
    (path.canonical _ (List.getLast_mem path.nonempty)).1
  exact intercalate_concat_ne_nil _ _ (stem_ne_nil named)

/-- A directory on the way to this path that the walk over `*.md` would try to
read as a document. -/
def markdownDirectory (path : RelPath) : Bool :=
  path.segments.inits.any fun directory =>
    directory.length < path.segments.length && !excludedSegments directory &&
      (directory.getLast?.any isMarkdownName)

end RelPath

/-- A governed document. -/
def rulePath : RelPath :=
  ⟨["decisions".toList, "rule.md".toList], by decide, by decide⟩

/-- A memory document. -/
def inboxPath : RelPath :=
  ⟨["memory".toList, "inbox".toList, "note.md".toList], by decide, by decide⟩

/-- A committed tree. -/
abbrev Tree : Type :=
  AList fun _ : RelPath => Text

namespace Tree

/-- The tree with one file replaced. -/
def write (tree : Tree) (path : RelPath) (postimage : Text) : Tree :=
  tree.insert path postimage

/-- `os.path.isfile`. -/
def isFile (tree : Tree) (path : RelPath) : Bool :=
  (tree.lookup path).isSome

@[simp]
theorem lookup_write (tree : Tree) (path : RelPath) (postimage : Text) :
    (tree.write path postimage).lookup path = some postimage :=
  AList.lookup_insert tree

theorem lookup_write_of_ne (tree : Tree) {path other : RelPath} (postimage : Text)
    (different : other ≠ path) :
    (tree.write path postimage).lookup other = tree.lookup other :=
  AList.lookup_insert_ne different

end Tree

end DataOlympus
