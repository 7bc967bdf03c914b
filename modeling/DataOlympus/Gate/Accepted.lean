import DataOlympus.Gate.Validate
import DataOlympus.Index.Storable

/-!
# Accepted writes and the next build

A write that the gate accepts replaces one file of a tree that the index could
build.  The gate looks at the enumerated fields and at the ids of the committed
tree; this module says what is left to chance.
-/

namespace DataOlympus

open Lines

namespace Runtime

variable (runtime : Runtime)

/-- The id the index gives a document is the effective id of the front matter it
finds in it. -/
theorem parseFile_docId {path : RelPath} {committed : Text} {file : ParsedFile}
    {entries : Mapping} (parsed : runtime.parseFile path committed = .ok file)
    (found : runtime.lenientFrontmatter (readBack committed) = .ok entries) :
    file.docId = effectiveDocId entries path := by
  rcases Except.map_eq_ok_iff.mp parsed with ⟨result, raw, rfl⟩
  rcases runtime.parseTextChecked_ok found with ⟨body, flag, checked⟩
  rw [Except.mapError_eq_ok_iff, checked] at raw
  rcases Except.map_eq_ok_iff.mp raw with ⟨doc, docOk, rfl⟩
  rcases runtime.parsedDoc_eq_ok_iff.mp docOk with ⟨validity, read⟩
  rw [effectiveDocId_eq, ← read.id]
  rfl

/-- A file that parses has front matter, if only an empty one. -/
theorem exists_frontmatter {path : RelPath} {committed : Text} {file : ParsedFile}
    (parsed : runtime.parseFile path committed = .ok file) :
    ∃ entries, runtime.lenientFrontmatter (readBack committed) = .ok entries := by
  cases found : runtime.lenientFrontmatter (readBack committed) with
  | ok entries => exact ⟨entries, rfl⟩
  | error raised =>
      rcases Except.map_eq_ok_iff.mp parsed with ⟨result, raw, -⟩
      rw [Except.mapError_eq_ok_iff, runtime.parseTextChecked_error found] at raw
      cases raw

/-- `id` is the effective id of the document committed at `path`, as the index reads
it. -/
def HoldsId (tree : Tree) (path : RelPath) (id : PyStr) : Prop :=
  path.indexable = true ∧ ∃ committed entries, tree.lookup path = some committed ∧
    runtime.lenientFrontmatter (readBack committed) = .ok entries ∧
    effectiveDocId entries path = id

/-- No id is held by two documents of the tree. -/
def UniqueIds (tree : Tree) : Prop :=
  ∀ path other id, runtime.HoldsId tree path id → runtime.HoldsId tree other id →
    path = other

/-- A parsed file has the id that its document holds. -/
theorem holdsId_of_documentAt {tree : Tree} {path : RelPath} {file : ParsedFile}
    (document : runtime.DocumentAt tree path file) : runtime.HoldsId tree path file.docId := by
  rcases document with ⟨indexed, committed, here, parsed⟩
  rcases runtime.exists_frontmatter parsed with ⟨entries, found⟩
  exact ⟨indexed, committed, entries, here, found, (runtime.parseFile_docId parsed found).symm⟩

/-- Where no id is held twice, no two parsed files have one id. -/
theorem UniqueIds.distinctIds {runtime : Runtime} {tree : Tree}
    (once : runtime.UniqueIds tree) : runtime.DistinctIds tree := by
  intro path other file otherFile document otherDocument same
  have holds := runtime.holdsId_of_documentAt document
  have otherHolds := runtime.holdsId_of_documentAt otherDocument
  rw [← same] at otherHolds
  exact once _ _ _ holds otherHolds

/-- In a tree whose documents all parse, the ids of the parsed files are distinct
exactly when no id is held twice. -/
theorem distinctIds_iff {config : IndexConfig} {tree : Tree}
    (storable : ∀ path committed, tree.lookup path = some committed →
      path.indexable = true → runtime.Storable config path committed) :
    runtime.DistinctIds tree ↔ runtime.UniqueIds tree := by
  have documentAt : ∀ {path id}, runtime.HoldsId tree path id →
      ∃ file, runtime.DocumentAt tree path file ∧ file.docId = id := by
    rintro path id ⟨indexed, committed, entries, here, found, rfl⟩
    rcases storable path committed here indexed with ⟨file, parsed, -⟩
    exact ⟨file, ⟨indexed, committed, here, parsed⟩, runtime.parseFile_docId parsed found⟩
  constructor
  · intro distinct path other id holds otherHolds
    rcases documentAt holds with ⟨file, document, idHere⟩
    rcases documentAt otherHolds with ⟨otherFile, otherDocument, idThere⟩
    exact distinct _ _ _ _ document otherDocument (idHere.trans idThere.symm)
  · exact UniqueIds.distinctIds

/-- No other document of the tree holds the id that the index will derive from the
postimage. -/
def FreeId (tree : Tree) (path : RelPath) (postimage : Text) : Prop :=
  ∀ entries, runtime.lenientFrontmatter (readBack postimage) = .ok entries →
    ∀ other, other ≠ path → ¬runtime.HoldsId tree other (effectiveDocId entries path)

theorem holdsId_write_of_ne {tree : Tree} {path other : RelPath} (postimage : Text)
    (different : other ≠ path) (id : PyStr) :
    runtime.HoldsId (tree.write path postimage) other id ↔ runtime.HoldsId tree other id := by
  simp only [HoldsId, Tree.lookup_write_of_ne tree postimage different]

theorem holdsId_write_self {tree : Tree} {path : RelPath} {postimage : Text} {id : PyStr} :
    runtime.HoldsId (tree.write path postimage) path id ↔
      path.indexable = true ∧ ∃ entries,
        runtime.lenientFrontmatter (readBack postimage) = .ok entries ∧
        effectiveDocId entries path = id := by
  simp [HoldsId]

variable (config : IndexConfig)

/-- After one write the build succeeds exactly when the path is no directory of
documents, the written document can be stored, and its id is free. -/
theorem build_write_iff {tree : Tree} {path : RelPath} {postimage : Text}
    (built : ∃ index, runtime.build config tree = .ok index) :
    (∃ index, runtime.build config (tree.write path postimage) = .ok index) ↔
      path.markdownDirectory = false ∧
        (path.indexable = true →
          runtime.Storable config path postimage ∧ runtime.FreeId tree path postimage) := by
  rcases (runtime.build_ok_iff config).mp built with ⟨noDirectory, storable, distinct⟩
  have once := (runtime.distinctIds_iff storable).mp distinct
  rw [runtime.build_ok_iff]
  constructor
  · rintro ⟨noDirectoryAfter, storableAfter, distinctAfter⟩
    have onceAfter := (runtime.distinctIds_iff storableAfter).mp distinctAfter
    refine ⟨noDirectoryAfter path ((AList.mem_insert tree).mpr (.inl rfl)), ?_⟩
    intro indexed
    refine ⟨storableAfter path postimage (Tree.lookup_write tree path postimage) indexed, ?_⟩
    intro entries found other different held
    apply different
    exact onceAfter _ _ _ ((runtime.holdsId_write_of_ne postimage different _).mpr held)
      (runtime.holdsId_write_self.mpr ⟨indexed, entries, found, rfl⟩)
  · rintro ⟨noDirectoryHere, document⟩
    have storableAfter : ∀ other committed,
        (tree.write path postimage).lookup other = some committed →
          other.indexable = true → runtime.Storable config other committed := by
      intro other committed here indexed
      by_cases same : other = path
      · subst other
        rw [Tree.lookup_write, Option.some.injEq] at here
        subst committed
        exact (document indexed).1
      · rw [Tree.lookup_write_of_ne tree postimage same] at here
        exact storable other committed here indexed
    refine ⟨?_, storableAfter, (runtime.distinctIds_iff storableAfter).mpr ?_⟩
    · intro other member
      rcases (AList.mem_insert tree).mp member with rfl | old
      · exact noDirectoryHere
      · exact noDirectory other old
    · intro first second id firstHolds secondHolds
      by_cases firstHere : first = path
      · by_cases secondHere : second = path
        · exact firstHere.trans secondHere.symm
        · subst first
          rcases runtime.holdsId_write_self.mp firstHolds with ⟨indexed, entries, found, rfl⟩
          have old := (runtime.holdsId_write_of_ne postimage secondHere _).mp secondHolds
          exact absurd old ((document indexed).2 entries found second secondHere)
      · have firstOld := (runtime.holdsId_write_of_ne postimage firstHere _).mp firstHolds
        by_cases secondHere : second = path
        · subst second
          rcases runtime.holdsId_write_self.mp secondHolds with ⟨indexed, entries, found, rfl⟩
          exact absurd firstOld ((document indexed).2 entries found first firstHere)
        · exact once _ _ _ firstOld
            ((runtime.holdsId_write_of_ne postimage secondHere _).mp secondHolds)

end Runtime

/-! ## What acceptance guarantees -/

namespace Runtime

variable (runtime : Runtime)

/-- A tree as the worktree of a session whose branch ends in it. -/
def worktreeOf (tree : Tree) : Worktree where
  isFile := tree.isFile
  snapshot := runtime.snapshotOf tree

theorem mem_snapshotOf {tree : Tree} {snapshot : Snapshot}
    (read : runtime.snapshotOf tree = some snapshot) {path : RelPath} {committed : Text}
    {entries : Mapping} (here : tree.lookup path = some committed)
    (indexed : path.indexable = true)
    (found : runtime.lenientFrontmatter committed = .ok entries) :
    (path, entries) ∈ snapshot := by
  unfold snapshotOf at read
  cases loop : (tree.entries.filter fun file => file.1.indexable).mapM fun file =>
      (runtime.lenientFrontmatter file.2).map fun entries => (file.1, entries) with
  | error raised => simp [loop] at read
  | ok files =>
      simp only [loop, Option.some.injEq] at read
      subst files
      have kept : (⟨path, committed⟩ : Sigma fun _ : RelPath => Text) ∈
          tree.entries.filter fun file => file.1.indexable :=
        List.mem_filter.mpr ⟨AList.mem_lookup_iff.mp here, indexed⟩
      rcases Except.mem_mapM_of_mem loop kept with ⟨file, fileIn, done⟩
      rw [found] at done
      cases done
      exact fileIn

/-- A tree whose documents all have front matter can be read by a snapshot. -/
theorem exists_snapshotOf {tree : Tree}
    (read : ∀ path committed, tree.lookup path = some committed → path.indexable = true →
      ∃ entries, runtime.lenientFrontmatter committed = .ok entries) :
    ∃ snapshot, runtime.snapshotOf tree = some snapshot := by
  have each : ∀ file ∈ tree.entries.filter fun file => file.1.indexable,
      ∃ result, (runtime.lenientFrontmatter file.2).map (fun entries => (file.1, entries)) =
        .ok result := by
    intro file kept
    rcases List.mem_filter.mp kept with ⟨here, indexed⟩
    rcases read file.1 file.2 (AList.mem_lookup_iff.mpr here) indexed with ⟨entries, found⟩
    exact ⟨(file.1, entries), by rw [found]; rfl⟩
  rcases Except.exists_mapM_ok_iff.mpr each with ⟨snapshot, loop⟩
  exact ⟨snapshot, by rw [snapshotOf, loop]⟩

/-- Acceptance against a snapshot leaves the effective id to no other path of it. -/
theorem not_mem_of_duplicateIdErrors {entries : Mapping} {targetPath : RelPath}
    {idMap : Option (List (PyStr × RelPath))} {tree : Worktree} {snapshot : Snapshot}
    (silent : duplicateIdErrors entries targetPath idMap (some tree) = [])
    (read : tree.snapshot = some snapshot) {other : RelPath} {found : Mapping}
    (member : (other, found) ∈ snapshot) (different : other ≠ targetPath) :
    effectiveDocId found other ≠ effectiveDocId entries targetPath := by
  intro same
  simp only [duplicateIdErrors, effectiveDocId_ne_nil, Bool.false_eq_true, if_false] at silent
  have noCollision : collisionPath (effectiveDocId entries targetPath) targetPath idMap
      (some tree) = none := by
    cases collision : collisionPath (effectiveDocId entries targetPath) targetPath idMap
        (some tree) with
    | none => rfl
    | some path => simp [collision] at silent
  simp only [collisionPath, Option.or_eq_none_iff, Option.bind_some, read,
    Snapshot.otherOwner, Option.map_eq_none_iff] at noCollision
  have owner : (other, effectiveDocId found other) ∈ snapshot.effectiveIds :=
    List.mem_map.mpr ⟨(other, found), member, rfl⟩
  have quiet := List.find?_eq_none.mp noCollision.2 _ owner
  simp [same, different] at quiet

/-- A field that passes the vocabulary check can be stored. -/
theorem vocabularyStorable_of_accepted {entries : Mapping} {targetPath : RelPath}
    (notReserved : targetPath.isReserved = false)
    (silent : runtime.vocabularyErrors entries targetPath = .ok []) :
    runtime.vocabularyStorable entries = true := by
  have checked := (runtime.vocabularyErrors_eq_nil_iff).mp silent notReserved
  have each : ∀ field ∈ enumFields, runtime.storableField entries field.1 = true := by
    intro field member
    have known := runtime.enumErrors_eq_nil (checked field member)
    unfold storableField
    unfold Mapping.present at known
    cases found : entries.get field.1 with
    | none => rfl
    | some value =>
        rw [found] at known
        cases value with
        | null => rfl
        | str s =>
            simp only [reduceCtorEq, false_or, Option.some.injEq, Value.str.injEq] at known
            rcases known with ⟨name, -, rfl⟩
            exact PyStr.encodable_lit name
        | _ => simp at known
  unfold vocabularyStorable
  simp only [List.all_cons, List.all_nil, Bool.and_true, Bool.and_eq_true]
  simp only [enumFields, List.forall_mem_cons] at each
  exact ⟨each.1, each.2.1, each.2.2.1⟩

/-- Newline translation changes no block of the tree. -/
def StableTree (tree : Tree) : Prop :=
  ∀ path committed, tree.lookup path = some committed → path.indexable = true →
    StableBlock committed

/-- Where newline translation changes no block, the gate and the index agree on the
ids, and acceptance means that the id is free. -/
theorem freeId_of_accepted {config : IndexConfig} {tree : Tree} {path : RelPath}
    {postimage body : Text} {entries : Mapping} {idMap : Option (List (PyStr × RelPath))}
    (storable : ∀ other committed, tree.lookup other = some committed →
      other.indexable = true → runtime.Storable config other committed)
    (stable : StableBlock postimage) (stableTree : StableTree tree)
    (parsed : runtime.parseFrontmatter postimage = .ok (entries, body))
    (silent : duplicateIdErrors entries path idMap (some (runtime.worktreeOf tree)) = []) :
    runtime.FreeId tree path postimage := by
  have readable : ∀ other committed, tree.lookup other = some committed →
      other.indexable = true → ∃ found, runtime.lenientFrontmatter committed = .ok found := by
    intro other committed here indexed
    rcases (runtime.storable_iff config).mp (storable other committed here indexed) with
      ⟨found, foundOk, -⟩
    rw [(stableTree other committed here indexed).lenientFrontmatter] at foundOk
    exact ⟨found, foundOk⟩
  rcases runtime.exists_snapshotOf readable with ⟨snapshot, read⟩
  intro indexEntries foundHere other different
  rintro ⟨indexed, committed, found, here, foundOk, same⟩
  rw [stable.lenientFrontmatter, runtime.lenientFrontmatter_of_parseFrontmatter parsed,
    Except.ok.injEq] at foundHere
  subst indexEntries
  rw [(stableTree other committed here indexed).lenientFrontmatter] at foundOk
  exact not_mem_of_duplicateIdErrors silent read
    (runtime.mem_snapshotOf read here indexed foundOk) different same

/-- An accepted write leaves a tree the index can build exactly when the path is no
directory of documents, the fields no gate looks at can be stored, so can the
enumerated fields where the gate did not see what the index reads, and the id is free
where newline translation changes a block. -/
theorem accepted_write_keeps_index_iff (config : GateConfig) {tree : Tree}
    {path : RelPath} {postimage : Text} {idMap : Option (List (PyStr × RelPath))}
    (built : ∃ index, runtime.build config.toIndexConfig tree = .ok index)
    (accepted : runtime.Accepts config path postimage idMap
      (some (runtime.worktreeOf tree)) []) :
    (∃ index, runtime.build config.toIndexConfig (tree.write path postimage) = .ok index) ↔
      path.markdownDirectory = false ∧
        (path.indexable = true → ∃ entries,
          runtime.lenientFrontmatter (readBack postimage) = .ok entries ∧
          runtime.uncheckedStorable entries = true ∧
          (StableBlock postimage ∧ path.isReserved = false ∨
            runtime.vocabularyStorable entries = true) ∧
          (StableBlock postimage ∧ StableTree tree ∨
            runtime.FreeId tree path postimage)) := by
  rcases (runtime.accepts_iff config).mp accepted with
    ⟨gateEntries, body, parsed, vocabulary, -, duplicate, -⟩
  have storableTree := ((runtime.build_ok_iff _).mp built).2.1
  rw [runtime.build_write_iff _ built]
  refine and_congr_right fun _ => forall_congr' fun indexed => ?_
  rw [runtime.storable_iff]
  constructor
  · rintro ⟨⟨entries, found, unchecked, checked⟩, free⟩
    exact ⟨entries, found, unchecked, .inr checked, .inr free⟩
  · rintro ⟨entries, found, unchecked, checked, free⟩
    refine ⟨⟨entries, found, unchecked, ?_⟩, ?_⟩
    · rcases checked with ⟨stable, notReserved⟩ | checked
      · rw [stable.lenientFrontmatter, runtime.lenientFrontmatter_of_parseFrontmatter parsed,
          Except.ok.injEq] at found
        subst entries
        exact runtime.vocabularyStorable_of_accepted notReserved vocabulary
      · exact checked
    · rcases free with ⟨stable, stableTree⟩ | free
      · exact runtime.freeId_of_accepted storableTree stable stableTree parsed duplicate
      · exact free

end Runtime

/-- The block of a draft whose title is written as `scalar`. -/
def draftBlock (scalar : String) : Text :=
  "status: draft\ntitle: ".toList ++ scalar.toList

/-- A draft whose title is written as `scalar`. -/
def draft (scalar : String) : Text :=
  "---\n".toList ++ draftBlock scalar ++ "\n---\n".toList

/-- The loader on that draft, when `scalar` denotes `title`. -/
def draftLoader (scalar : String) (title : PyStr) : Runtime :=
  Runtime.ofBlocks [(draftBlock scalar,
    .dict [(.str (PyStr.lit "status"), .str (PyStr.lit "draft")),
      (.str (PyStr.lit "title"), .str title)])]

/-- A draft whose title can be encoded is accepted, and the index is built with
it. -/
theorem accepted_draft_keeps_index :
    ∃ index, (draftLoader "Ask" (PyStr.lit "Ask")).build IndexConfig.default
      (Tree.write ∅ rulePath (draft "Ask")) = .ok index := by
  have empty : ∃ index, (draftLoader "Ask" (PyStr.lit "Ask")).build
      GateConfig.default.toIndexConfig ∅ = .ok index := ⟨_, rfl⟩
  have accepted : (draftLoader "Ask" (PyStr.lit "Ask")).Accepts GateConfig.default rulePath
      (draft "Ask") none (some ((draftLoader "Ask" (PyStr.lit "Ask")).worktreeOf ∅)) [] := rfl
  refine ((draftLoader "Ask" (PyStr.lit "Ask")).accepted_write_keeps_index_iff
    GateConfig.default empty accepted).mpr ⟨by decide, fun _ => ⟨_, rfl, by decide, ?_, ?_⟩⟩
  · exact .inl ⟨by decide, by decide⟩
  · refine .inl ⟨by decide, ?_⟩
    intro path committed impossible
    simp at impossible

/-- A draft titled with the escape of a lone surrogate is accepted, and no build
succeeds after it. -/
theorem surrogate_title_breaks_index :
    let runtime := draftLoader "\"\\uD800\"" [.surrogate 0]
    (∃ index, runtime.build IndexConfig.default ∅ = .ok index) ∧
      runtime.Accepts GateConfig.default rulePath (draft "\"\\uD800\"") none
        (some (runtime.worktreeOf ∅)) [] ∧
      runtime.build IndexConfig.default
        (Tree.write ∅ rulePath (draft "\"\\uD800\"")) = .error .unencodable :=
  ⟨⟨_, rfl⟩, rfl, rfl⟩

end DataOlympus
