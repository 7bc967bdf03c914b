import DataOlympus.Publish.Session

/-!
# Targets of relationships

An accepted commit adds a target of `supersedes`, `superseded_by` or `derived_from` only if
a document of the tree it makes has that id, and adds no malformed value.  Reserved files
are exempt.
-/

namespace DataOlympus

open Lines Replay

namespace Runtime

variable (runtime : Runtime)

/-- The front matter of the committed version of a document, empty where there is none. -/
def committedFrontmatter (tree : Tree) (path : RelPath) : Mapping :=
  match tree.lookup path with
  | none => []
  | some text =>
      match runtime.lenientFrontmatter text with
      | .error _ => []
      | .ok entries => entries

/-- `id` is the effective id of the document at `path`, as the gate reads it. -/
def HasEffectiveId (tree : Tree) (path : RelPath) (id : PyStr) : Prop :=
  ∃ text entries, tree.lookup path = some text ∧ path.indexable = true ∧
    runtime.lenientFrontmatter text = .ok entries ∧ effectiveDocId entries path = id

/-- A malformed value stands for a committed one, to which it is equal unless that has a mapping
with several containers behind NaN keys.  The field adds no target that is not the id of a
document. -/
def Resolves (field : RelationshipField) (entries before : Mapping) (after : Tree) : Prop :=
  ∀ value, entries.present field.name = some value →
    match field.targets value with
    | none => ∃ old, before.present field.name = some old ∧
        (old.FewNans 1 → Value.Same value old)
    | some targets => ∀ target ∈ targets,
        target ∈ ((before.present field.name).bind field.targets).getD [] ∨
          ∃ path, runtime.HasEffectiveId after path target

variable {runtime}

/-! ## What a snapshot holds -/

section

variable {tree : Tree} {snapshot : Snapshot} {path : RelPath}

/-- A snapshot holds what is committed. -/
theorem exists_of_mem_snapshotOf (read : runtime.snapshotOf tree = some snapshot)
    {entries : Mapping} (member : (path, entries) ∈ snapshot) :
    ∃ text, tree.lookup path = some text ∧ path.indexable = true ∧
      runtime.lenientFrontmatter text = .ok entries := by
  unfold snapshotOf at read
  cases loop : (tree.entries.filter fun file => file.1.indexable).mapM fun file =>
      (runtime.lenientFrontmatter file.2).map fun entries => (file.1, entries) with
  | error raised => simp [loop] at read
  | ok files =>
      simp only [loop, Option.some.injEq] at read
      subst files
      obtain ⟨file, kept, done⟩ := Except.exists_of_mem_mapM loop member
      obtain ⟨found, foundOk, same⟩ := Except.map_eq_ok_iff.mp done
      cases same
      obtain ⟨here, indexed⟩ := List.mem_filter.mp kept
      exact ⟨file.2, AList.mem_lookup_iff.mpr here, indexed, foundOk⟩

/-- What the gate takes for the committed version is it, or nothing. -/
theorem present_of_preimage (read : runtime.snapshotOf tree = some snapshot) {field : String}
    {old : Value} (found : ((snapshot.lookup path).getD []).present field = some old) :
    (runtime.committedFrontmatter tree path).present field = some old := by
  cases here : snapshot.lookup path with
  | none =>
      rw [here] at found
      cases found
  | some entries =>
      rw [here, Option.getD_some] at found
      obtain ⟨before, after, split, -⟩ := List.lookup_eq_some_iff.mp here
      have member : (path, entries) ∈ snapshot := by
        rw [split]
        exact List.mem_append_right _ List.mem_cons_self
      obtain ⟨text, committed, -, parsed⟩ := exists_of_mem_snapshotOf read member
      rw [committedFrontmatter, committed]
      simp only [parsed]
      exact found

end

end Runtime

/-! ## What a commit makes -/

/-- The transaction names no file that is not written. -/
theorem Batch.mem_files_of_mem_transaction {batch : Batch} {file : RelPath × Text}
    (member : file ∈ batch.transaction) : file ∈ batch.files := by
  cases batch with
  | document targetPath postimage => cases member
  | bundle files => exact member

/-- The other files of a commit are in its transaction. -/
theorem Batch.mem_transaction_of_ne {batch : Batch} {path : RelPath} {postimage : Text}
    (member : (path, postimage) ∈ batch.files) {file : RelPath × Text}
    (fileIn : file ∈ batch.files) (other : file.1 ≠ path) : file ∈ batch.transaction := by
  cases batch with
  | document targetPath written =>
      cases List.mem_singleton.mp member
      cases List.mem_singleton.mp fileIn
      exact absurd rfl other
  | bundle files => exact fileIn

namespace Runtime

section

variable {runtime : Runtime} {config : GateConfig} {tree : Tree} {snapshot : Snapshot}
  {batch : Batch} {path : RelPath} {postimage : Text} {entries : Mapping}

/-- The ids the gate expects are those of the tree that the commit makes. -/
theorem exists_of_mem_resultMembership (read : runtime.snapshotOf tree = some snapshot)
    (once : (batch.files.map Prod.fst).Nodup) (member : (path, postimage) ∈ batch.files)
    (parsed : runtime.lenientFrontmatter postimage = .ok entries) {ids : List PyStr}
    (expected : runtime.resultMembership snapshot path entries batch.transaction = .ok ids)
    {id : PyStr} (present : id ∈ ids) :
    ∃ other, runtime.HasEffectiveId (insertAll tree batch.files) other id := by
  obtain ⟨written, loop, rest⟩ := Except.bind_eq_ok_iff.mp expected
  cases rest
  rcases List.mem_append.mp present with kept | added
  · obtain ⟨owner, keptIn, rfl⟩ := List.mem_map.mp kept
    obtain ⟨ownerIn, untouched⟩ := List.mem_filter.mp keptIn
    obtain ⟨⟨other, found⟩, foundIn, rfl⟩ := List.mem_map.mp ownerIn
    obtain ⟨text, committed, indexed, here⟩ := exists_of_mem_snapshotOf read foundIn
    rw [List.all_eq_true] at untouched
    have notWritten : other ∉ batch.files.map Prod.fst := by
      intro rewritten
      obtain ⟨file, fileIn, rfl⟩ := List.mem_map.mp rewritten
      by_cases own : file.1 = path
      · exact absurd own.symm (of_decide_eq_true (untouched _ List.mem_cons_self))
      · obtain ⟨write, writeIn, done⟩ := Except.mem_mapM_of_mem loop
          (Batch.mem_transaction_of_ne member fileIn own)
        obtain ⟨found, -, rfl⟩ := Except.map_eq_ok_iff.mp done
        have further : (file.1, found) ∈ written.filter fun file => file.1 ≠ path :=
          List.mem_filter.mpr ⟨writeIn, decide_eq_true own⟩
        exact absurd rfl (of_decide_eq_true (untouched _ (List.mem_cons_of_mem _ further)))
    refine ⟨other, text, found, ?_, indexed, here, rfl⟩
    rw [lookup_insertAll_of_not_mem _ notWritten, committed]
  · obtain ⟨⟨other, found⟩, addedIn, rfl⟩ := List.mem_map.mp added
    obtain ⟨writeIn, indexed⟩ := List.mem_filter.mp addedIn
    rcases List.mem_cons.mp writeIn with own | further
    · cases own
      exact ⟨path, postimage, entries, lookup_insertAll_of_mem _ once member, indexed, parsed, rfl⟩
    · obtain ⟨file, fileIn, done⟩ := Except.exists_of_mem_mapM loop (List.mem_filter.mp further).1
      obtain ⟨entries, here, same⟩ := Except.map_eq_ok_iff.mp done
      cases same
      have inFiles := Batch.mem_files_of_mem_transaction fileIn
      exact ⟨file.1, file.2, _, lookup_insertAll_of_mem _ once inFiles, indexed, here, rfl⟩

/-- A field without errors resolves when all the targets it adds are ids. -/
theorem resolves_of_relationshipErrors {field : RelationshipField} {before preimage : Mapping}
    {after : Tree}
    (committed : ∀ old, preimage.present field.name = some old →
      before.present field.name = some old)
    (silent : (relationshipErrors config field entries preimage).1 = [])
    (found : ∀ edge ∈ (relationshipErrors config field entries preimage).2,
      ∃ path, runtime.HasEffectiveId after path edge.2) :
    runtime.Resolves field entries before after := by
  intro value present
  simp only [relationshipErrors, present] at silent found
  cases shape : field.targets value with
  | none =>
      simp only [shape] at silent
      split at silent
      · rename_i same
        obtain ⟨old, here, equal⟩ := (Option.any_eq_true _ _).mp same
        exact ⟨old, committed old here, fun few => (GateConfig.strictEqual_iff few).mp equal⟩
      · cases silent
  | some targets =>
      simp only [shape] at found
      intro target member
      by_cases known : target ∈ ((preimage.present field.name).bind field.targets).getD []
      · left
        cases here : preimage.present field.name with
        | none =>
            rw [here] at known
            cases known
        | some old => rwa [committed old here, ← here]
      · right
        apply found (field, target)
        apply List.mem_map.mpr
        exact ⟨target, List.mem_filter.mpr ⟨member, decide_eq_true known⟩, rfl⟩

/-- A field on which the relationship check is silent resolves. -/
theorem resolves_of_supersessionErrors (once : (batch.files.map Prod.fst).Nodup)
    (member : (path, postimage) ∈ batch.files)
    (parsed : runtime.lenientFrontmatter postimage = .ok entries)
    (silent : runtime.supersessionErrors config entries path (runtime.snapshotOf tree)
      batch.transaction = .ok []) {field : RelationshipField}
    (known : field ∈ relationshipFields) :
    runtime.Resolves field entries (runtime.committedFrontmatter tree path)
      (insertAll tree batch.files) := by
  unfold supersessionErrors at silent
  split at silent
  · rename_i none
    intro value present
    have absent := List.filter_eq_nil_iff.mp none field known
    rw [present] at absent
    exact absurd rfl absent
  split at silent
  · cases silent
  · rename_i snapshot read
    let preimage := (snapshot.lookup path).getD []
    let found := relationshipFields.map fun field =>
      relationshipErrors config field entries preimage
    have here : relationshipErrors config field entries preimage ∈ found :=
      List.mem_map.mpr ⟨field, known, rfl⟩
    have committed : ∀ old, preimage.present field.name = some old →
        (runtime.committedFrontmatter tree path).present field.name = some old :=
      fun old => present_of_preimage read
    dsimp only at silent
    split at silent
    · rename_i nothing
      have noErrors := List.flatMap_eq_nil_iff.mp (Except.ok.inj silent) _ here
      have nothingNew := List.flatMap_eq_nil_iff.mp (List.isEmpty_iff.mp nothing) _ here
      apply resolves_of_relationshipErrors committed noErrors
      intro edge edgeIn
      rw [nothingNew] at edgeIn
      cases edgeIn
    · obtain ⟨ids, expected, rest⟩ := Except.bind_eq_ok_iff.mp silent
      obtain ⟨errors, unresolved⟩ := List.append_eq_nil_iff.mp (Except.ok.inj rest)
      have noErrors := List.flatMap_eq_nil_iff.mp errors _ here
      apply resolves_of_relationshipErrors committed noErrors
      intro edge edgeIn
      have added := List.mem_flatMap.mpr ⟨_, here, edgeIn⟩
      have expectedId := List.filter_eq_nil_iff.mp (List.map_eq_nil_iff.mp unresolved) edge added
      rw [decide_eq_true_eq, not_not] at expectedId
      exact exists_of_mem_resultMembership read once member parsed expected expectedId

/-- Every target that an accepted commit adds to a document that is not reserved is the id
of a document of the tree it makes, and a malformed value is the committed one, unless a mapping
in that has several containers behind NaN keys. -/
theorem accepted_targets_resolve {idMap : Option (List (PyStr × RelPath))} {worktree : Worktree}
    (reads : worktree.snapshot = runtime.snapshotOf tree)
    (accepted : runtime.BatchAccepted config idMap worktree batch)
    (member : (path, postimage) ∈ batch.files) (notReserved : path.isReserved = false) :
    ∃ entries body, runtime.parseFrontmatter postimage = .ok (entries, body) ∧
      ∀ field ∈ relationshipFields, runtime.Resolves field entries
        (runtime.committedFrontmatter tree path) (insertAll tree batch.files) := by
  obtain ⟨entries, body, parsed, -, -, -, relations⟩ :=
    (runtime.accepts_iff config).mp (accepted.accepted _ member)
  refine ⟨entries, body, parsed, ?_⟩
  intro field known
  simp only [relationErrors, notReserved, Bool.false_eq_true, if_false, reads] at relations
  have found := runtime.lenientFrontmatter_of_parseFrontmatter parsed
  exact resolves_of_supersessionErrors accepted.once member found relations known

end

end Runtime

/-! ## Two documents and an index -/

/-- The block of a draft that refers to `target`. -/
def referringBlock (target : String) : Text :=
  "status: draft\nsupersedes: ".toList ++ target.toList

/-- A draft that refers to `target`. -/
def referring (target : String) : Text :=
  "---\n".toList ++ referringBlock target ++ "\n---\n".toList

/-- The loader on such drafts. -/
def referringLoader (target : String) : Runtime :=
  Runtime.ofBlocks [(referringBlock target,
    .dict [(.str (PyStr.lit "status"), .str (PyStr.lit "draft")),
      (.str (PyStr.lit "supersedes"), .str (PyStr.lit target))])]

/-- A draft that supersedes a memory of the same bundle. -/
def referringBundle : Batch :=
  .bundle [(rulePath, referring "memory-inbox-note"), (inboxPath, "A note.".toList)]

/-- A draft may refer to a memory that is created with it. -/
theorem bundle_target_resolves :
    ∃ entries body, (referringLoader "memory-inbox-note").parseFrontmatter
        (referring "memory-inbox-note") = .ok (entries, body) ∧
      ∀ field ∈ relationshipFields, (referringLoader "memory-inbox-note").Resolves field entries
        ((referringLoader "memory-inbox-note").committedFrontmatter ∅ rulePath)
        (insertAll ∅ referringBundle.files) := by
  have accepted : (referringLoader "memory-inbox-note").BatchAccepted GateConfig.default none
      ((referringLoader "memory-inbox-note").worktreeOf ∅) referringBundle := by
    constructor
    · decide
    · intro files same
      cases same
      exact ⟨_, rfl, by decide⟩
    · intro file member
      rcases List.mem_cons.mp member with rfl | last
      · rfl
      · cases List.mem_singleton.mp last
        rfl
  exact Runtime.accepted_targets_resolve rfl accepted List.mem_cons_self (by decide)

/-- The index of a directory. -/
def indexPath : RelPath :=
  ⟨["decisions".toList, "index.md".toList], by decide, by decide⟩

/-- A reserved file may refer to anything. -/
theorem reserved_target_is_not_checked :
    ¬ ∀ (runtime : Runtime) (config : GateConfig) (tree : Tree) (batch : Batch)
      (idMap : Option (List (PyStr × RelPath))) (worktree : Worktree) (path : RelPath)
      (postimage : Text), worktree.snapshot = runtime.snapshotOf tree →
      runtime.BatchAccepted config idMap worktree batch → (path, postimage) ∈ batch.files →
      ∃ entries body, runtime.parseFrontmatter postimage = .ok (entries, body) ∧
        ∀ field ∈ relationshipFields, runtime.Resolves field entries
          (runtime.committedFrontmatter tree path) (insertAll tree batch.files) := by
  intro always
  have accepted : (referringLoader "ghost").BatchAccepted GateConfig.default none
      ((referringLoader "ghost").worktreeOf ∅) (.document indexPath (referring "ghost")) := by
    constructor
    · decide
    · intro files same
      cases same
    · intro file member
      cases List.mem_singleton.mp member
      rfl
  obtain ⟨entries, body, parsed, resolves⟩ := always _ _ ∅ _ _ _ indexPath (referring "ghost") rfl
    accepted List.mem_cons_self
  cases parsed
  have resolved := resolves _ List.mem_cons_self (.str (PyStr.lit "ghost")) rfl
  have targets : RelationshipField.targets ⟨"supersedes", .unresolvedSupersedesTarget,
      .malformedSupersedes, true⟩ (.str (PyStr.lit "ghost")) = some [PyStr.lit "ghost"] := by
    decide
  simp only [targets, List.mem_singleton, forall_eq] at resolved
  obtain known | ⟨path, text, entries, here, -, parsed, id⟩ := resolved
  · cases known
  · by_cases same : path = indexPath
    · subst same
      cases here
      cases parsed
      exact absurd id (by decide)
    · rw [Batch.files, insertAll, insertAll, AList.lookup_insert_ne same] at here
      cases here

end DataOlympus
