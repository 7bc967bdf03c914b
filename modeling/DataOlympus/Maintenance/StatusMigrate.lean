import DataOlympus.Control.Except
import DataOlympus.Document.Render
import DataOlympus.Importer.Stamp
import Mathlib.Data.List.DropRight

/-!
# Status migration

`migrate status --apply` writes a status into every concept document without one.  The key is
put behind `id` and `type` into the front matter, which is then rendered again.
-/

namespace DataOlympus

open Lines Importer

/-! ## Which files are scanned -/

/-- `_SKIP_DIRS`. -/
def skipDirs : List Text :=
  [".git", "__pycache__", ".venv", ".pytest_cache", ".mypy_cache", ".ruff_cache",
    "node_modules", ".github", ".worktrees", "archive", "_archive", "to-delete",
    "test-fixtures", "cli-fixtures"].map String.toList

/-- `_ROOT_META_FILES`. -/
def rootMetaFiles : List Text :=
  ["README.md", "CONTRIBUTING.md", "CODE_OF_CONDUCT.md", "SECURITY.md", "CHANGELOG.md",
    "NOTICE.md", "LICENSE.md", "AGENTS.md", "CLAUDE.md", "GEMINI.md"].map String.toList

/-- `discover_bundle_files` lists the file at this path. -/
def RelPath.isBundleFile (path : RelPath) : Bool :=
  RelPath.isMarkdownName path.name && !(path.segments.any fun segment => segment ∈ skipDirs) &&
    !(path.segments.length = 1 && path.name ∈ rootMetaFiles) && !path.isReserved

/-- `discover_bundle_files`, in the order of the tree. -/
def Tree.bundleFiles (tree : Tree) : List RelPath :=
  tree.keys.filter RelPath.isBundleFile

/-! ## The key -/

namespace Mapping

/-- The key `status`. -/
def isStatus (entry : Value × Value) : Bool :=
  entry.1.isStr (PyStr.lit "status")

/-- A key of `_STATUS_AFTER`. -/
def isAnchor (entry : Value × Value) : Bool :=
  entry.1.isStr (PyStr.lit "id") || entry.1.isStr (PyStr.lit "type")

/-- `out[key] = frontmatter[key]`, where only the status may be there already. -/
def putEntry (out : Mapping) (entry : Value × Value) : Mapping :=
  if isStatus entry then out.set "status" entry.2 else out ++ [entry]

/-- The entries up to the last anchor. -/
def anchored (entries : Mapping) : Mapping :=
  entries.rdropWhile fun entry => !isAnchor entry

/-- The entries behind the last anchor. -/
def behindAnchor (entries : Mapping) : Mapping :=
  entries.rtakeWhile fun entry => !isAnchor entry

/-- `_insert_status(frontmatter, status)`.  Without an anchor the status leads. -/
def insertStatus (entries : Mapping) (status : PyStr) : Mapping :=
  (behindAnchor entries).foldl putEntry
    (((anchored entries).foldl putEntry []).set "status" (.str status))

/-- `isinstance(status, str) and status.strip()`. -/
def statusNamed (entries : Mapping) : Bool :=
  match entries.get "status" with
  | some (.str s) => !s.blank
  | _ => false

/-- A mapping holds its status once. -/
def StatusOnce (entries : Mapping) : Prop :=
  (entries.filter isStatus).length ≤ 1

theorem anchored_append_behindAnchor (entries : Mapping) :
    anchored entries ++ behindAnchor entries = entries :=
  List.rdropWhile_append_rtakeWhile

theorem without_append (first second : Mapping) (key : String) :
    without (first ++ second) key = without first key ++ without second key :=
  List.filter_append _ _

theorem without_foldl_putEntry (out entries : Mapping) :
    without (entries.foldl putEntry out) "status" =
      without out "status" ++ without entries "status" := by
  induction entries generalizing out with
  | nil => exact (List.append_nil _).symm
  | cons entry rest ih =>
      rw [List.foldl_cons, ih, putEntry]
      cases here : isStatus entry with
      | true =>
          have dropped : without (entry :: rest) "status" = without rest "status" :=
            List.filter_cons_of_neg (by rw [show entry.1.isStr _ = true from here]; decide)
          rw [if_pos rfl, without_set, dropped]
      | false =>
          have kept : without (entry :: rest) "status" = entry :: without rest "status" :=
            List.filter_cons_of_pos (by rw [show entry.1.isStr _ = false from here]; rfl)
          have single : without [entry] "status" = [entry] :=
            List.filter_cons_of_pos (by rw [show entry.1.isStr _ = false from here]; rfl)
          rw [if_neg Bool.false_ne_true, without_append, single, kept, List.append_assoc]
          rfl

/-- Every other key keeps its value and its place. -/
theorem without_insertStatus (entries : Mapping) (status : PyStr) :
    (entries.insertStatus status).without "status" = entries.without "status" := by
  rw [insertStatus, without_foldl_putEntry, without_set, without_foldl_putEntry]
  exact (without_append _ _ _).symm.trans
    (congrArg (without · "status") (anchored_append_behindAnchor entries))

theorem get_putEntry (out : Mapping) (entry : Value × Value) :
    get (putEntry out entry) "status" =
      if isStatus entry then some entry.2 else get out "status" := by
  unfold putEntry
  split
  · exact get_set out "status" entry.2
  · rename_i other
    rw [get_append_of_get_nil]
    exact (get_cons entry [] "status").trans (if_neg other)

/-- The last status that is put counts. -/
theorem get_foldl_putEntry (out entries : Mapping) :
    get (entries.foldl putEntry out) "status" =
      (get entries.reverse "status").or (get out "status") := by
  induction entries using List.reverseRecOn with
  | nil => rfl
  | append_singleton rest entry ih =>
      rw [List.foldl_append, List.foldl_cons, List.foldl_nil, get_putEntry, ih,
        List.reverse_append, List.reverse_singleton, List.singleton_append, get_cons]
      unfold isStatus
      split <;> rfl

/-- A status behind the last anchor stays; otherwise the new one is found. -/
theorem get_insertStatus (entries : Mapping) (status : PyStr) :
    (entries.insertStatus status).get "status" =
      (get (behindAnchor entries).reverse "status").or (some (.str status)) := by
  rw [insertStatus, get_foldl_putEntry, get_set]

/-- The status can be written: none stands behind the last anchor. -/
def statusFree (entries : Mapping) : Bool :=
  (get (behindAnchor entries).reverse "status").isNone

theorem get_insertStatus_of_statusFree {entries : Mapping} (free : entries.statusFree = true)
    (status : PyStr) : (entries.insertStatus status).get "status" = some (.str status) := by
  rw [get_insertStatus, Option.isNone_iff_eq_none.mp free]
  rfl

theorem exists_mem_of_get {entries : Mapping} {value : Value}
    (found : entries.get "status" = some value) :
    ∃ entry ∈ entries, isStatus entry = true ∧ entry.2 = value := by
  obtain ⟨entry, first, same⟩ := Option.map_eq_some_iff.mp found
  exact ⟨entry, List.mem_of_find?_eq_some first, List.find?_some first, same⟩

/-- Where a status stands behind the last anchor, the mapping keeps its status. -/
theorem get_insertStatus_of_not_statusFree {entries : Mapping} (once : entries.StatusOnce)
    (taken : entries.statusFree = false) (status : PyStr) :
    (entries.insertStatus status).get "status" = entries.get "status" := by
  have held : (get (behindAnchor entries).reverse "status").isSome = true := by
    rw [← Option.not_isNone, ← statusFree, taken]
    rfl
  obtain ⟨value, found⟩ := Option.isSome_iff_exists.mp held
  rw [get_insertStatus, found, Option.some_or]
  obtain ⟨entry, member, isEntry, rfl⟩ := exists_mem_of_get found
  have here : entry ∈ entries := by
    rw [← anchored_append_behindAnchor entries]
    exact List.mem_append_right _ (List.mem_reverse.mp member)
  cases lookup : entries.get "status" with
  | none =>
      rw [get, Option.map_eq_none_iff, List.find?_eq_none] at lookup
      exact absurd isEntry (lookup entry here)
  | some other =>
      obtain ⟨first, firstIn, isFirst, rfl⟩ := exists_mem_of_get lookup
      have both : entry = first := by
        obtain ⟨only, all⟩ : ∃ only, entries.filter isStatus = [only] := by
          apply List.length_eq_one_iff.mp
          apply Nat.le_antisymm once
          exact List.length_pos_of_mem (List.mem_filter.mpr ⟨here, isEntry⟩)
        have entryIs := List.mem_filter.mpr ⟨here, isEntry⟩
        have firstIs := List.mem_filter.mpr ⟨firstIn, isFirst⟩
        rw [all, List.mem_singleton] at entryIs firstIs
        rw [entryIs, firstIs]
      rw [both]

end Mapping

/-! ## The migration -/

/-- `DEFAULT_STATUS`. -/
def defaultStatus : PyStr :=
  PyStr.lit "active"

/-- A `status_migrate` event. -/
structure StatusEvent where
  targetPath : RelPath
  value : PyStr

/-- The corpus, the counts of the result and the events that were appended. -/
structure Migration where
  tree : Tree
  scanned : Nat
  changedPaths : List RelPath
  alreadyPresent : Nat
  skippedMalformed : List RelPath
  events : List StatusEvent

/-- A migration before it begins. -/
def Migration.start (tree : Tree) : Migration :=
  ⟨tree, 0, [], 0, [], []⟩

section Migrate

variable (safeDump : Mapping → Text) (runtime : Runtime)

/-- The text that replaces a document. -/
def migratedText (entries : Mapping) (body : Text) : Text :=
  renderDocument safeDump (entries.insertStatus defaultStatus) body

/-- The body of the loop of `apply_status_autofill`. -/
def Migration.visit (migration : Migration) (path : RelPath) : Except Raised Migration :=
  let next := { migration with scanned := migration.scanned + 1 }
  match runtime.parseFrontmatter (readBack ((migration.tree.lookup path).getD [])) with
  | .error (.valueError _) =>
      .ok { next with skippedMalformed := migration.skippedMalformed ++ [path] }
  | .error raised => .error raised
  | .ok (entries, body) =>
      if entries.statusNamed then .ok { next with alreadyPresent := migration.alreadyPresent + 1 }
      else .ok { next with
        tree := migration.tree.write path (migratedText safeDump entries body)
        changedPaths := migration.changedPaths ++ [path]
        events := migration.events ++ [⟨path, defaultStatus⟩] }

/-- `apply_status_autofill`. -/
def applyStatusAutofill (tree : Tree) : Except Raised Migration :=
  tree.bundleFiles.foldlM (Migration.visit safeDump runtime) (.start tree)

/-- What the migration makes of a text. -/
def migrateText (text : Text) : Text :=
  match runtime.parseFrontmatter (readBack text) with
  | .ok (entries, body) =>
      if entries.statusNamed then text else migratedText safeDump entries body
  | .error _ => text

/-- The document has front matter without a named status. -/
def unnamed (text : Text) : Bool :=
  match runtime.parseFrontmatter (readBack text) with
  | .ok (entries, _) => !entries.statusNamed
  | .error _ => false

/-- The document parses, or fails to with a `ValueError`. -/
def Scannable (text : Text) : Prop :=
  ∀ raised, runtime.parseFrontmatter (readBack text) = .error raised →
    ∃ message, raised = .valueError message

end Migrate

/-! ## What a run does -/

section Runs

variable {safeDump : Mapping → Text} {runtime : Runtime}

/-- The files at these paths have been visited: each is replaced by what the migration makes of
it, and those without a named status are reported. -/
structure Visited (safeDump : Mapping → Text) (runtime : Runtime) (migration : Migration)
    (paths : List RelPath) (last : Migration) : Prop where
  files : ∀ path, last.tree.lookup path =
    if path ∈ paths then (migration.tree.lookup path).map (migrateText safeDump runtime)
    else migration.tree.lookup path
  scannable : ∀ path ∈ paths, ∀ text, migration.tree.lookup path = some text →
    Scannable runtime text
  changed : last.changedPaths = migration.changedPaths ++
    paths.filter fun path => (migration.tree.lookup path).any (unnamed runtime)
  events : last.events = migration.events ++
    (paths.filter fun path => (migration.tree.lookup path).any (unnamed runtime)).map
      fun path => ⟨path, defaultStatus⟩

namespace Visited

variable {migration next last : Migration} {path : RelPath} {text : Text}

theorem nil (migration : Migration) : Visited safeDump runtime migration [] migration where
  files _ := (if_neg List.not_mem_nil).symm
  scannable _ member := absurd member List.not_mem_nil
  changed := (List.append_nil _).symm
  events := (List.append_nil _).symm

/-- A visit that leaves the file alone. -/
theorem of_unchanged (here : migration.tree.lookup path = some text)
    (scannable : Scannable runtime text) (named : unnamed runtime text = false)
    (same : migrateText safeDump runtime text = text) (tree : next.tree = migration.tree)
    (changed : next.changedPaths = migration.changedPaths)
    (events : next.events = migration.events) :
    Visited safeDump runtime migration [path] next := by
  have nothing : ([path].filter fun path => (migration.tree.lookup path).any (unnamed runtime)) =
      [] := by
    rw [List.filter_singleton, here]
    simp [named]
  refine ⟨fun other => ?_, ?_, ?_, ?_⟩
  · rw [tree]
    split
    · rename_i only
      rw [List.mem_singleton.mp only, here, Option.map_some, same]
    · rfl
  · intro other member found otherHere
    rw [List.mem_singleton.mp member, here] at otherHere
    cases otherHere
    exact scannable
  · rw [nothing, List.append_nil, changed]
  · rw [nothing, List.map_nil, List.append_nil, events]

/-- A visit that replaces the file. -/
theorem of_changed (here : migration.tree.lookup path = some text)
    (scannable : Scannable runtime text) (missing : unnamed runtime text = true)
    (tree : next.tree = migration.tree.write path (migrateText safeDump runtime text))
    (changed : next.changedPaths = migration.changedPaths ++ [path])
    (events : next.events = migration.events ++ [⟨path, defaultStatus⟩]) :
    Visited safeDump runtime migration [path] next := by
  have one : ([path].filter fun path => (migration.tree.lookup path).any (unnamed runtime)) =
      [path] := by
    rw [List.filter_singleton, here]
    simp [missing]
  refine ⟨fun other => ?_, ?_, ?_, ?_⟩
  · rw [tree]
    split
    · rename_i only
      rw [List.mem_singleton.mp only, here]
      exact Tree.lookup_write _ _ _
    · rename_i different
      exact Tree.lookup_write_of_ne _ _ (mt List.mem_singleton.mpr different)
  · intro other member found otherHere
    rw [List.mem_singleton.mp member, here] at otherHere
    cases otherHere
    exact scannable
  · rw [one, changed]
  · rw [one, events]
    rfl

theorem visit (here : migration.tree.lookup path = some text)
    (visited : migration.visit safeDump runtime path = .ok next) :
    Visited safeDump runtime migration [path] next := by
  unfold Migration.visit at visited
  rw [here, Option.getD_some] at visited
  cases parsed : runtime.parseFrontmatter (readBack text) with
  | error raised =>
      rw [parsed] at visited
      cases raised with
      | valueError message =>
          cases visited
          refine of_unchanged here ?_ ?_ ?_ rfl rfl rfl
          · intro raised failed
            cases parsed.symm.trans failed
            exact ⟨message, rfl⟩
          · simp [unnamed, parsed]
          · simp [migrateText, parsed]
      | _ => cases visited
  | ok result =>
      have scannable : Scannable runtime text := by
        intro raised failed
        cases parsed.symm.trans failed
      rw [parsed] at visited
      dsimp only at visited
      cases named : result.1.statusNamed with
      | true =>
          rw [named, if_pos rfl] at visited
          cases visited
          refine of_unchanged here scannable ?_ ?_ rfl rfl rfl
          · simp [unnamed, parsed, named]
          · simp [migrateText, parsed, named]
      | false =>
          rw [named, if_neg Bool.false_ne_true] at visited
          cases visited
          refine of_changed here scannable ?_ ?_ rfl rfl
          · simp [unnamed, parsed, named]
          · simp [migrateText, parsed, named]

/-- A visit and the visits of other files. -/
theorem cons {rest : List RelPath} (fresh : path ∉ rest)
    (first : Visited safeDump runtime migration [path] next)
    (later : Visited safeDump runtime next rest last) :
    Visited safeDump runtime migration (path :: rest) last := by
  have kept : ∀ other, other ≠ path →
      next.tree.lookup other = migration.tree.lookup other := by
    intro other different
    rw [first.files, if_neg (mt List.mem_singleton.mp different)]
  have apart : ∀ other ∈ rest, other ≠ path := by
    rintro other member rfl
    exact fresh member
  have filtered : (rest.filter fun path => (next.tree.lookup path).any (unnamed runtime)) =
      rest.filter fun path => (migration.tree.lookup path).any (unnamed runtime) := by
    apply List.filter_congr
    intro other member
    rw [kept other (apart other member)]
  have together := @List.filter_append _ (fun path =>
    (migration.tree.lookup path).any (unnamed runtime)) [path] rest
  rw [List.singleton_append] at together
  refine ⟨fun other => ?_, ?_, ?_, ?_⟩
  · rw [later.files]
    by_cases same : other = path
    · subst other
      rw [if_neg fresh, first.files, if_pos (List.mem_singleton_self _),
        if_pos List.mem_cons_self]
    · rw [kept other same]
      simp [same]
  · intro other member found here
    obtain rfl | inRest := List.mem_cons.mp member
    · exact first.scannable _ (List.mem_singleton_self _) found here
    · rw [← kept other (apart other inRest)] at here
      exact later.scannable other inRest found here
  · rw [later.changed, first.changed, filtered, together, List.append_assoc]
  · rw [later.events, first.events, filtered, together, List.map_append, List.append_assoc]

end Visited

/-- The loop visits its files. -/
theorem visited_of_foldlM {paths : List RelPath} (once : paths.Nodup)
    {migration last : Migration}
    (present : ∀ path ∈ paths, ∃ text, migration.tree.lookup path = some text)
    (done : paths.foldlM (Migration.visit safeDump runtime) migration = .ok last) :
    Visited safeDump runtime migration paths last := by
  induction paths generalizing migration with
  | nil =>
      cases done
      exact .nil _
  | cons path rest ih =>
      obtain ⟨fresh, once⟩ := List.nodup_cons.mp once
      obtain ⟨text, here⟩ := present path List.mem_cons_self
      rw [List.foldlM_cons] at done
      obtain ⟨next, visited, later⟩ := Except.bind_eq_ok_iff.mp done
      have first := Visited.visit here visited
      refine .cons fresh first (ih once ?_ later)
      intro other member
      obtain ⟨found, there⟩ := present other (List.mem_cons_of_mem _ member)
      refine ⟨found, ?_⟩
      rw [first.files, if_neg, there]
      rintro same
      rw [List.mem_singleton.mp same] at member
      exact fresh member

theorem visit_returns {migration : Migration} {path : RelPath} {text : Text}
    (here : migration.tree.lookup path = some text) (scannable : Scannable runtime text) :
    ∃ next, migration.visit safeDump runtime path = .ok next := by
  unfold Migration.visit
  rw [here, Option.getD_some]
  cases parsed : runtime.parseFrontmatter (readBack text) with
  | error raised =>
      obtain ⟨message, rfl⟩ := scannable raised parsed
      exact ⟨_, rfl⟩
  | ok result =>
      dsimp only
      split
      · exact ⟨_, rfl⟩
      · exact ⟨_, rfl⟩

/-- The loop returns if every file can be scanned. -/
theorem foldlM_returns {paths : List RelPath} (once : paths.Nodup) {migration : Migration}
    (scannable : ∀ path ∈ paths, ∃ text, migration.tree.lookup path = some text ∧
      Scannable runtime text) :
    ∃ last, paths.foldlM (Migration.visit safeDump runtime) migration = .ok last := by
  induction paths generalizing migration with
  | nil => exact ⟨migration, rfl⟩
  | cons path rest ih =>
      obtain ⟨fresh, once⟩ := List.nodup_cons.mp once
      obtain ⟨text, here, good⟩ := scannable path List.mem_cons_self
      have visits : ∃ next, migration.visit safeDump runtime path = .ok next :=
        visit_returns here good
      obtain ⟨next, visited⟩ := visits
      have first := Visited.visit here visited
      have later : ∃ last, rest.foldlM (Migration.visit safeDump runtime) next = .ok last := by
        apply ih once
        intro other member
        obtain ⟨found, there, foundGood⟩ := scannable other (List.mem_cons_of_mem _ member)
        refine ⟨found, ?_, foundGood⟩
        rw [first.files, if_neg, there]
        rintro same
        rw [List.mem_singleton.mp same] at member
        exact fresh member
      obtain ⟨last, done⟩ := later
      exact ⟨last, by rw [List.foldlM_cons, visited]; exact done⟩

theorem nodup_bundleFiles (tree : Tree) : tree.bundleFiles.Nodup :=
  tree.keys_nodup.filter _

theorem lookup_of_mem_bundleFiles {tree : Tree} {path : RelPath}
    (member : path ∈ tree.bundleFiles) : ∃ text, tree.lookup path = some text := by
  have key : path ∈ tree := AList.mem_keys.mpr (List.mem_of_mem_filter member)
  exact Option.isSome_iff_exists.mp (AList.lookup_isSome.mpr key)

/-- A migration that returns has visited the scanned files. -/
theorem visited_of_applyStatusAutofill {tree : Tree} {migration : Migration}
    (applied : applyStatusAutofill safeDump runtime tree = .ok migration) :
    Visited safeDump runtime (.start tree) tree.bundleFiles migration :=
  visited_of_foldlM (nodup_bundleFiles tree) (fun _ => lookup_of_mem_bundleFiles) applied

end Runs

end DataOlympus
