import DataOlympus.Control.Except
import DataOlympus.Document.Parse
import Mathlib.Data.List.Dedup

/-!
# Building the index

`Index.build` walks the tree, parses every document once, refuses two documents
with one id, and then binds the extracted fields into the database, which refuses
text that cannot be encoded.  `build_ok_iff` says exactly when a build succeeds.
The rows are listed in the order of the tree; nothing below depends on it.
-/

namespace DataOlympus

open Lines

/-- The settings the build reads. -/
structure IndexConfig where
  /-- `memory_inbox_prefix()`. -/
  inboxPrefix : Text
  /-- `KB_STATUS_AUTOFILL`. -/
  statusAutofill : Bool
  /-- `_classify_by_path(rel)`: tier and category of a path. -/
  classifyByPath : RelPath → Text × Text

/-- The settings of a default deployment, with a taxonomy that has no rule. -/
def IndexConfig.default : IndexConfig where
  inboxPrefix := "memory/inbox/".toList
  statusAutofill := true
  classifyByPath _ := ("meta".toList, "meta".toList)

/-- One row of the `docs` table with its `fts` columns. -/
structure DocRow where
  id : PyStr
  path : RelPath
  tier : PyStr
  category : PyStr
  status : PyStr
  docType : PyStr
  appliesWhen : PyStr
  description : PyStr
  title : PyStr
  tags : PyStr
  contentMarkdown : Text
  body : Text
  gitRemoteUrl : Option PyStr
  validFrom : Option Date
  validUntil : Option Date
  lastVerified : Option Date
  recheckBy : Option Date
  verificationSource : PyStr
  isInbox : Bool

/-- The kinds of lifecycle edges. -/
inductive Relation where
  | supersedes
  | supersededBy
  | contradicts
  | derivedFrom
  deriving DecidableEq

/-- One row of the `edges` table. -/
structure Edge where
  source : PyStr
  relation : Relation
  target : PyStr

/-- A built index, with the counters of dropped blocks. -/
structure Index where
  rows : List DocRow
  edges : List Edge
  malformedFrontmatter : Nat
  malformedValidity : Nat

/-- Why a build is abandoned. -/
inductive BuildError where
  /-- A directory named like a document was read. -/
  | isADirectory (below : RelPath)
  | parse (path : RelPath) (raised : Raised)
  | duplicateId (conflicts : List (PyStr × List RelPath))
  /-- SQLite refused a text. -/
  | unencodable

/-- `_ParsedFile`. -/
structure ParsedFile where
  rel : RelPath
  docId : PyStr
  doc : ParsedDoc
  rawText : Text
  malformedFrontmatter : Bool

namespace ParsedDoc

/-- `doc.id or _derive_id_from_path(rel)`. -/
def idAt (doc : ParsedDoc) (path : RelPath) : PyStr :=
  if doc.id.isEmpty then PyStr.ofText path.deriveId else doc.id

end ParsedDoc

namespace ParsedFile

variable (config : IndexConfig)

/-- The status column, with the virtual autofill of a missing status. -/
def indexedStatus (file : ParsedFile) : PyStr :=
  if config.statusAutofill && file.doc.status.isEmpty && !file.rel.isReserved then
    PyStr.lit "active"
  else file.doc.status

/-- The row inserted for a document. -/
def row (file : ParsedFile) : DocRow where
  id := file.docId
  path := file.rel
  tier :=
    if file.doc.tier.isEmpty then PyStr.ofText (config.classifyByPath file.rel).1
    else file.doc.tier
  category :=
    if file.doc.category.isEmpty then PyStr.ofText (config.classifyByPath file.rel).2
    else file.doc.category
  status := file.indexedStatus config
  docType := file.doc.docType
  appliesWhen := PyStr.join (PyStr.lit " ") file.doc.appliesWhen
  description := file.doc.description
  title := file.doc.title
  tags := PyStr.join (PyStr.lit " ") file.doc.tags
  contentMarkdown := file.rawText
  body := file.doc.body
  gitRemoteUrl := file.doc.gitRemoteUrl
  validFrom := file.doc.validFrom
  validUntil := file.doc.validUntil
  lastVerified := file.doc.lastVerified
  recheckBy := file.doc.recheckBy
  verificationSource := file.doc.verificationSource
  isInbox := file.rel.isInbox config.inboxPrefix

/-- The edges recorded for a document, verbatim. -/
def edges (file : ParsedFile) : List Edge :=
  file.doc.supersedes.map (Edge.mk file.docId .supersedes) ++
    file.doc.supersededBy.toList.map (Edge.mk file.docId .supersededBy) ++
    file.doc.contradicts.map (Edge.mk file.docId .contradicts) ++
    file.doc.derivedFrom.map (Edge.mk file.docId .derivedFrom)

end ParsedFile

namespace DocRow

/-- Every text bound for the row can be encoded. -/
def storable (row : DocRow) : Bool :=
  [row.id, row.tier, row.category, row.status, row.docType, row.appliesWhen,
    row.description, row.title, row.tags, row.verificationSource].all PyStr.encodable &&
    row.gitRemoteUrl.all PyStr.encodable

/-- The in-force predicate on the columns of one row. -/
def inForce (row : DocRow) (today : Date) : Bool :=
  isInForce row.status row.validFrom row.validUntil today row.isInbox

end DocRow

/-- Both ends of the edge can be encoded. -/
def Edge.storable (edge : Edge) : Bool :=
  edge.source.encodable && edge.target.encodable

/-- The insertions for a document succeed. -/
def ParsedFile.storable (config : IndexConfig) (file : ParsedFile) : Bool :=
  (file.row config).storable && file.edges.all Edge.storable

/-- The database filled from the parsed files, and its counters. -/
def Index.ofFiles (config : IndexConfig) (files : List ParsedFile) : Index where
  rows := files.map (ParsedFile.row config)
  edges := files.flatMap ParsedFile.edges
  malformedFrontmatter := files.countP ParsedFile.malformedFrontmatter
  malformedValidity := files.countP fun file => file.doc.validityMalformed

/-- The entries of `conflicts`: ids that more than one file resolves to. -/
def conflicts (files : List ParsedFile) : List (PyStr × List RelPath) :=
  (files.map ParsedFile.docId).dedup.filterMap fun id =>
    let paths := (files.filter fun file => file.docId = id).map ParsedFile.rel
    if 1 < paths.length then some (id, paths) else none

theorem conflicts_eq_nil_iff (files : List ParsedFile) :
    conflicts files = [] ↔ (files.map ParsedFile.docId).Nodup := by
  have occurrences : ∀ id,
      (files.filter fun file => file.docId = id).length =
        (files.map ParsedFile.docId).count id := by
    intro id
    rw [List.count_eq_countP, List.countP_map, List.countP_eq_length_filter]
    congr 1
    apply List.filter_congr
    intro file _
    exact (beq_eq_decide file.docId id).symm
  rw [conflicts, List.filterMap_eq_nil_iff, List.nodup_iff_count_le_one]
  constructor
  · intro noneRaised id
    by_cases member : id ∈ files.map ParsedFile.docId
    · have quiet := noneRaised id (List.mem_dedup.mpr member)
      simpa [occurrences] using quiet
    · simp [List.count_eq_zero_of_not_mem member]
  · intro once id _
    simpa [occurrences] using once id

namespace Runtime

variable (runtime : Runtime)

/-- Read and parse one file. -/
def parseFile (path : RelPath) (committed : Text) : Except BuildError ParsedFile :=
  ((runtime.parseTextChecked (readBack committed)).mapError (.parse path)).map
    fun result => {
      rel := path
      docId := result.1.idAt path
      doc := result.1
      rawText := readBack committed
      malformedFrontmatter := result.2 }

@[simp]
theorem parseFile_rel {path : RelPath} {committed : Text} {file : ParsedFile}
    (parsed : runtime.parseFile path committed = .ok file) : file.rel = path := by
  rcases Except.map_eq_ok_iff.mp parsed with ⟨result, -, rfl⟩
  rfl

/-- Parse every document of the tree. -/
def parseTree (tree : Tree) : Except BuildError (List ParsedFile) :=
  (tree.entries.filter fun file => file.1.indexable).mapM fun file =>
    runtime.parseFile file.1 file.2

variable (config : IndexConfig)

/-- `Index.build` on the files of a tree. -/
def build (tree : Tree) : Except BuildError Index :=
  match tree.keys.find? RelPath.markdownDirectory with
  | some below => .error (.isADirectory below)
  | none => do
      let parsed ← runtime.parseTree tree
      if conflicts parsed ≠ [] then
        .error (.duplicateId (conflicts parsed))
      else if !parsed.all (ParsedFile.storable config) then
        .error .unencodable
      else
        return Index.ofFiles config parsed

/-- The document at `path` of the tree, as the build parses it. -/
def DocumentAt (tree : Tree) (path : RelPath) (file : ParsedFile) : Prop :=
  path.indexable = true ∧ ∃ committed, tree.lookup path = some committed ∧
    runtime.parseFile path committed = .ok file

/-- No two documents of the tree have one id. -/
def DistinctIds (tree : Tree) : Prop :=
  ∀ path other file otherFile, runtime.DocumentAt tree path file →
    runtime.DocumentAt tree other otherFile → file.docId = otherFile.docId →
    path = other

/-- The build can read and store the file at `path`. -/
def Storable (path : RelPath) (committed : Text) : Prop :=
  ∃ file, runtime.parseFile path committed = .ok file ∧ file.storable config = true

theorem mem_parseTree_iff {tree : Tree} {files : List ParsedFile}
    (parsed : runtime.parseTree tree = .ok files) {file : ParsedFile} :
    file ∈ files ↔ runtime.DocumentAt tree file.rel file := by
  constructor
  · intro member
    rcases Except.exists_of_mem_mapM parsed member with ⟨⟨path, committed⟩, kept, done⟩
    rcases List.mem_filter.mp kept with ⟨committedHere, indexed⟩
    have same : file.rel = path := runtime.parseFile_rel done
    subst path
    exact ⟨indexed, committed, AList.mem_lookup_iff.mpr committedHere, done⟩
  · rintro ⟨indexed, committed, committedHere, done⟩
    have kept : (⟨file.rel, committed⟩ : Sigma fun _ : RelPath => Text) ∈
        tree.entries.filter fun entry => entry.1.indexable :=
      List.mem_filter.mpr ⟨AList.mem_lookup_iff.mp committedHere, indexed⟩
    rcases Except.mem_mapM_of_mem parsed kept with ⟨found, foundIn, foundOk⟩
    have same : found = file := Except.ok.inj (foundOk.symm.trans done)
    exact same ▸ foundIn

/-- The paths of the parsed files do not repeat. -/
theorem rel_nodup_of_parseTree {tree : Tree} {files : List ParsedFile}
    (parsed : runtime.parseTree tree = .ok files) :
    (files.map ParsedFile.rel).Nodup := by
  have paths : files.map ParsedFile.rel =
      (tree.entries.filter fun file => file.1.indexable).map Sigma.fst :=
    Except.map_eq_map_of_mapM parsed fun _ _ done => runtime.parseFile_rel done
  rw [paths]
  exact tree.keys_nodup.sublist (List.filter_sublist.map Sigma.fst)

/-- Ids do not repeat in the list of parsed files exactly when they do not repeat
in the tree. -/
theorem docId_nodup_iff {tree : Tree} {files : List ParsedFile}
    (parsed : runtime.parseTree tree = .ok files) :
    (files.map ParsedFile.docId).Nodup ↔ runtime.DistinctIds tree := by
  have relNodup := runtime.rel_nodup_of_parseTree parsed
  have filesNodup : files.Nodup := relNodup.of_map
  constructor
  · intro nodup path other file otherFile here there same
    have inFiles : ∀ {p f}, runtime.DocumentAt tree p f → f ∈ files ∧ f.rel = p := by
      rintro p f ⟨indexed, committed, committedHere, done⟩
      have rel := runtime.parseFile_rel done
      subst p
      exact ⟨(runtime.mem_parseTree_iff parsed).mpr ⟨indexed, committed, committedHere, done⟩,
        rfl⟩
    rcases inFiles here with ⟨hereIn, rfl⟩
    rcases inFiles there with ⟨thereIn, rfl⟩
    exact congrArg ParsedFile.rel (List.inj_on_of_nodup_map nodup hereIn thereIn same)
  · intro distinct
    refine (List.nodup_map_iff_inj_on filesNodup).mpr ?_
    intro file fileIn other otherIn same
    have samePath := distinct _ _ _ _ ((runtime.mem_parseTree_iff parsed).mp fileIn)
      ((runtime.mem_parseTree_iff parsed).mp otherIn) same
    exact List.inj_on_of_nodup_map relNodup fileIn otherIn samePath

/-- A build succeeds exactly when no directory is named like a document, every
document can be parsed and stored, and no id occurs twice. -/
theorem build_ok_iff {tree : Tree} :
    (∃ index, runtime.build config tree = .ok index) ↔
      (∀ path ∈ tree, path.markdownDirectory = false) ∧
      (∀ path committed, tree.lookup path = some committed → path.indexable = true →
        runtime.Storable config path committed) ∧
      runtime.DistinctIds tree := by
  have noDirectory : tree.keys.find? RelPath.markdownDirectory = none ↔
      ∀ path ∈ tree, path.markdownDirectory = false := by
    simp [List.find?_eq_none, AList.mem_keys]
  unfold build
  constructor
  · rintro ⟨index, built⟩
    cases found : tree.keys.find? RelPath.markdownDirectory with
    | some below => simp [found] at built
    | none =>
        simp only [found] at built
        rcases Except.bind_eq_ok_iff.mp built with ⟨files, parsed, inserted⟩
        split_ifs at inserted with repeated unencodable
        refine ⟨noDirectory.mp found, ?_, ?_⟩
        · intro path committed committedHere indexed
          have kept : (⟨path, committed⟩ : Sigma fun _ : RelPath => Text) ∈
              tree.entries.filter fun entry => entry.1.indexable :=
            List.mem_filter.mpr ⟨AList.mem_lookup_iff.mp committedHere, indexed⟩
          rcases Except.mem_mapM_of_mem parsed kept with ⟨file, fileIn, done⟩
          have stored : files.all (ParsedFile.storable config) = true := by
            simpa using unencodable
          exact ⟨file, done, List.all_eq_true.mp stored file fileIn⟩
        · exact (runtime.docId_nodup_iff parsed).mp
            ((conflicts_eq_nil_iff files).mp (not_not.mp repeated))
  · rintro ⟨noneBelow, storable, distinct⟩
    rw [noDirectory.mpr noneBelow]
    have each : ∀ entry ∈ tree.entries.filter fun file => file.1.indexable,
        ∃ file, runtime.parseFile entry.1 entry.2 = .ok file := by
      intro entry kept
      rcases List.mem_filter.mp kept with ⟨committedHere, indexed⟩
      rcases storable entry.1 entry.2 (AList.mem_lookup_iff.mpr committedHere) indexed with
        ⟨file, done, -⟩
      exact ⟨file, done⟩
    rcases Except.exists_mapM_ok_iff.mpr each with ⟨files, parsed⟩
    have quiet : conflicts files = [] :=
      (conflicts_eq_nil_iff files).mpr ((runtime.docId_nodup_iff parsed).mpr distinct)
    have stored : files.all (ParsedFile.storable config) = true := by
      refine List.all_eq_true.mpr ?_
      intro file fileIn
      rcases (runtime.mem_parseTree_iff parsed).mp fileIn with
        ⟨indexed, committed, committedHere, done⟩
      rcases storable file.rel committed committedHere indexed with ⟨found, foundOk, foundStored⟩
      have same : found = file := Except.ok.inj (foundOk.symm.trans done)
      exact same ▸ foundStored
    refine ⟨Index.ofFiles config files, Except.bind_eq_ok_iff.mpr ⟨files, parsed, ?_⟩⟩
    rw [if_neg (not_not.mpr quiet), if_neg (by simpa using stored)]
    rfl

/-- A tree whose ids are distinct raises no duplicate-id error, whatever else may stop
the build. -/
theorem build_ne_duplicateId {tree : Tree} (distinct : runtime.DistinctIds tree)
    (repeated : List (PyStr × List RelPath)) :
    runtime.build config tree ≠ .error (.duplicateId repeated) := by
  intro raised
  unfold build at raised
  cases below : tree.keys.find? RelPath.markdownDirectory with
  | some directory => simp [below] at raised
  | none =>
      simp only [below] at raised
      rcases Except.bind_eq_error_iff.mp raised with loop | ⟨files, parsed, inserted⟩
      · rcases Except.exists_of_mapM_error loop with ⟨file, -, failed⟩
        unfold parseFile at failed
        cases checked : runtime.parseTextChecked (readBack file.2) with
        | error failure => simp [checked, Except.mapError, Except.map] at failed
        | ok result => simp [checked, Except.mapError, Except.map] at failed
      · have quiet : conflicts files = [] :=
          (conflicts_eq_nil_iff files).mpr ((runtime.docId_nodup_iff parsed).mpr distinct)
        rw [if_neg (not_not.mpr quiet)] at inserted
        split_ifs at inserted with unencodable
        · cases inserted
        · cases inserted

/-- A built index holds the rows of the parsed documents, whose ids are distinct. -/
theorem exists_files_of_build {tree : Tree} {index : Index}
    (built : runtime.build config tree = .ok index) :
    ∃ files, runtime.parseTree tree = .ok files ∧ index = Index.ofFiles config files ∧
      runtime.DistinctIds tree := by
  have distinct := ((runtime.build_ok_iff config).mp ⟨index, built⟩).2.2
  unfold build at built
  cases found : tree.keys.find? RelPath.markdownDirectory with
  | some below => simp [found] at built
  | none =>
      simp only [found] at built
      rcases Except.bind_eq_ok_iff.mp built with ⟨files, parsed, inserted⟩
      split_ifs at inserted
      cases inserted
      exact ⟨files, parsed, rfl, distinct⟩

/-- The ids of the rows of a built index do not repeat. -/
theorem row_id_nodup_of_build {tree : Tree} {index : Index}
    (built : runtime.build config tree = .ok index) :
    (index.rows.map DocRow.id).Nodup := by
  rcases runtime.exists_files_of_build config built with ⟨files, parsed, rfl, distinct⟩
  have ids : (Index.ofFiles config files).rows.map DocRow.id =
      files.map ParsedFile.docId := by
    rw [Index.ofFiles, List.map_map]
    rfl
  rw [ids]
  exact (runtime.docId_nodup_iff parsed).mpr distinct

end Runtime

end DataOlympus
