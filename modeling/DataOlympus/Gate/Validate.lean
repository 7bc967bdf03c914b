import DataOlympus.Index.Build
import DataOlympus.Python.Aliases

/-!
# The content-validation gate

`validate_postimage` rejects a postimage whose front matter does not parse, whose
enumerated fields are out of vocabulary, which is a new document without a status,
whose effective id belongs to another path, or which introduces a relationship
target that the commit being made does not contain.  The gate reads the postimage
in memory, and the committed tree without newline translation.
-/

namespace DataOlympus

open Lines

/-- The machine-readable codes of the gate. -/
inductive ErrorCode where
  | invalidFrontmatter
  | invalidEnum
  | missingStatus
  | duplicateId
  | unresolvedSupersedesTarget
  | malformedSupersedes
  | unresolvedSupersededByTarget
  | malformedSupersededBy
  | unresolvedDerivedFromTarget
  | malformedDerivedFrom
  | unresolvedTargetUnverifiable
  deriving DecidableEq

namespace ErrorCode

/-- The code as it stands in a response. -/
def text : ErrorCode → String
  | invalidFrontmatter => "invalid_frontmatter"
  | invalidEnum => "invalid_enum"
  | missingStatus => "missing_status"
  | duplicateId => "duplicate_id"
  | unresolvedSupersedesTarget => "unresolved_supersedes_target"
  | malformedSupersedes => "malformed_supersedes"
  | unresolvedSupersededByTarget => "unresolved_superseded_by_target"
  | malformedSupersededBy => "malformed_superseded_by"
  | unresolvedDerivedFromTarget => "unresolved_derived_from_target"
  | malformedDerivedFrom => "malformed_derived_from"
  | unresolvedTargetUnverifiable => "unresolved_target_unverifiable"

/-- `SNAPSHOT_DEPENDENT_CODES`. -/
def snapshotDependent : ErrorCode → Bool
  | invalidFrontmatter => false
  | invalidEnum => false
  | duplicateId => false
  | _ => true

end ErrorCode

structure ValidationError where
  field : String
  code : ErrorCode
  message : PyStr
  deriving DecidableEq

/-- What the secret scanner reports about a text. -/
structure SecretMatch where
  patternName : Text
  line : Nat

/-- The settings the gates read. -/
structure GateConfig extends IndexConfig where
  /-- `scan_postimage_for_secrets`, with the patterns of the deployment. -/
  scanSecrets : PyStr → Option SecretMatch
  /-- The objects of a value of a postimage and of one of the committed version, where the
  loader made a container of them that is shared. -/
  aliased : (value other : Value) → Option (AliasedPair value other) := fun _ _ => none

/-- A default deployment whose scanner finds nothing. -/
def GateConfig.default : GateConfig where
  toIndexConfig := IndexConfig.default
  scanSecrets _ := none

/-- The front matter of every concept file of one commit, by path. -/
abbrev Snapshot : Type := List (RelPath × Mapping)

/-- The session worktree: its files, and its committed tree unless that cannot be
read. -/
structure Worktree where
  isFile : RelPath → Bool
  snapshot : Option Snapshot

/-- The text of `sorted(allowed)`. -/
def sortedText (names : List String) : PyStr :=
  PyStr.lit "[" ++
    PyStr.join (PyStr.lit ", ")
      (names.map fun name => PyStr.lit "'" ++ PyStr.lit name ++ PyStr.lit "'") ++
    PyStr.lit "]"

/-- The enumerated fields with their vocabularies in sorted order. -/
def enumFields : List (String × List String) :=
  [("type", ["decision", "memory", "project", "reference", "standard", "workflow"]),
    ("status", ["accepted", "active", "approved", "deprecated", "draft", "proposed",
      "rejected", "superseded"]),
    ("tier", ["T1", "T2", "T3", "T4", "meta"])]

/-- `_effective_doc_id(fm, target_path)`. -/
def effectiveDocId (entries : Mapping) (targetPath : RelPath) : PyStr :=
  match entries.get "id" with
  | some (.str raw) =>
      if raw ≠ [] ∧ CodePoint.scalar ':' ∉ raw then raw
      else PyStr.ofText targetPath.deriveId
  | _ => PyStr.ofText targetPath.deriveId

/-- The gate and the index derive one id from one front matter. -/
theorem effectiveDocId_eq (entries : Mapping) (targetPath : RelPath) :
    effectiveDocId entries targetPath =
      if entries.explicitId.isEmpty then PyStr.ofText targetPath.deriveId
      else entries.explicitId := by
  unfold effectiveDocId Mapping.explicitId
  cases entries.get "id" with
  | none => rfl
  | some value =>
      cases value with
      | str raw =>
          by_cases colon : CodePoint.scalar ':' ∈ raw
          · simp [colon]
          · by_cases empty : raw = []
            · simp [empty]
            · simp [colon, empty]
      | _ => rfl

/-- An effective id is never empty. -/
theorem effectiveDocId_ne_nil {entries : Mapping} {targetPath : RelPath} :
    (effectiveDocId entries targetPath).isEmpty = false := by
  rw [effectiveDocId_eq]
  split_ifs with explicit
  · simp [RelPath.deriveId_ne_nil]
  · simpa using explicit

/-- `path_to_effective_id()`. -/
def Snapshot.effectiveIds (snapshot : Snapshot) : List (RelPath × PyStr) :=
  snapshot.map fun file => (file.1, effectiveDocId file.2 file.1)

/-- A relationship field with its two codes, and whether it may be a list. -/
structure RelationshipField where
  name : String
  unresolved : ErrorCode
  malformed : ErrorCode
  listOrScalar : Bool

/-- `_RELATIONSHIP_FIELDS`. -/
def relationshipFields : List RelationshipField :=
  [⟨"supersedes", .unresolvedSupersedesTarget, .malformedSupersedes, true⟩,
    ⟨"superseded_by", .unresolvedSupersededByTarget, .malformedSupersededBy, false⟩,
    ⟨"derived_from", .unresolvedDerivedFromTarget, .malformedDerivedFrom, true⟩]

/-- The strings of a list, if it holds nothing else. -/
def stringItems : List Value → Option (List PyStr)
  | [] => some []
  | .str s :: rest => (stringItems rest).map (s :: ·)
  | _ :: _ => none

/-- `_relationship_targets(field, value)`: the targets, or `none` for a malformed
value. -/
def RelationshipField.targets (field : RelationshipField) (value : Value) :
    Option (List PyStr) :=
  let items :=
    match value with
    | .str s => some [s]
    | .list values => if field.listOrScalar then stringItems values else none
    | _ => none
  items.bind fun targets => if targets.any PyStr.blank then none else some targets

/-- `_target_path_exists(target_path)`. -/
def targetPathExists (targetPath : RelPath) (idMap : Option (List (PyStr × RelPath)))
    (worktree : Option Worktree) : Bool :=
  (idMap.any fun entries => entries.any fun entry => entry.2 = targetPath) ||
    worktree.any fun tree => tree.isFile targetPath

/-- The check for a new document without a status. -/
def missingStatusErrors (config : GateConfig) (entries : Mapping) (targetPath : RelPath)
    (idMap : Option (List (PyStr × RelPath))) (worktree : Option Worktree) :
    List ValidationError :=
  if !targetPath.isReserved && !targetPath.isInbox config.inboxPrefix &&
      (entries.present "status").isNone && !targetPathExists targetPath idMap worktree then
    [{
      field := "status"
      code := .missingStatus
      message := PyStr.lit "new document '" ++ PyStr.ofText targetPath.text ++
        PyStr.lit ("' is missing required field 'status' (SPEC.md section 4.2); " ++
          "editing an existing status-less document is still allowed during migration") }]
  else []

/-- Another path of the committed tree with the id. -/
def Snapshot.otherOwner (snapshot : Snapshot) (effectiveId : PyStr)
    (targetPath : RelPath) : Option RelPath :=
  (snapshot.effectiveIds.find? fun owner =>
    owner.2 = effectiveId && owner.1 ≠ targetPath).map Prod.fst

/-- The path another document holds the id under: first the live index, then the
committed tree. -/
def collisionPath (effectiveId : PyStr) (targetPath : RelPath)
    (idMap : Option (List (PyStr × RelPath))) (worktree : Option Worktree) :
    Option RelPath :=
  let indexed := (idMap.bind fun entries => entries.lookup effectiveId).filter
    fun other => other ≠ targetPath
  let committed : Option Snapshot := worktree.bind Worktree.snapshot
  indexed.or (committed.bind fun snapshot =>
    Snapshot.otherOwner snapshot effectiveId targetPath)

/-- The duplicate-id check. -/
def duplicateIdErrors (entries : Mapping) (targetPath : RelPath)
    (idMap : Option (List (PyStr × RelPath))) (worktree : Option Worktree) :
    List ValidationError :=
  let effectiveId := effectiveDocId entries targetPath
  if effectiveId.isEmpty then []
  else
    match collisionPath effectiveId targetPath idMap worktree with
    | none => []
    | some other => [{
        field := "id"
        code := .duplicateId
        message := PyStr.lit "id '" ++ effectiveId ++ PyStr.lit "' already used by '" ++
          PyStr.ofText other.text ++ PyStr.lit "'" }]

/-- `_safe_target(target)`. -/
def safeTarget (config : GateConfig) (target : PyStr) : PyStr :=
  match config.scanSecrets target with
  | none => PyStr.lit "'" ++ target ++ PyStr.lit "'"
  | some found =>
      PyStr.lit "[redacted: secret pattern '" ++ PyStr.ofText found.patternName ++
        PyStr.lit "']"

/-- `_strict_equal(post, pre)` on the objects that the loader made. -/
def GateConfig.strictEqual (config : GateConfig) (post pre : Value) : Bool :=
  match config.aliased post pre with
  | none => post.strictEqual pre
  | some pair => strictEqualObjects pair.objects pair.left pair.right

/-- Without several containers behind NaN keys the comparison is exact. -/
theorem GateConfig.strictEqual_iff {config : GateConfig} {post pre : Value}
    (few : pre.FewNans 1) : config.strictEqual post pre = true ↔ Value.Same post pre := by
  unfold strictEqual
  split
  · exact Value.strictEqual_iff
  · rename_i pair _
    exact strictEqualObjects_iff pair.loaded pair.readsLeft pair.readsRight few

/-- What one relationship field adds: errors, and targets to resolve. -/
def relationshipErrors (config : GateConfig) (field : RelationshipField)
    (entries preimage : Mapping) :
    List ValidationError × List (RelationshipField × PyStr) :=
  match entries.present field.name with
  | none => ([], [])
  | some post =>
      let pre := preimage.present field.name
      match field.targets post with
      | none =>
          if pre.any fun before => config.strictEqual post before then ([], [])
          else
            let expected :=
              if field.listOrScalar then
                PyStr.lit "a concept id string or a list of concept id strings"
              else PyStr.lit "a single concept id string"
            ([{
              field := field.name
              code := field.malformed
              message := PyStr.lit field.malformed.text ++ PyStr.lit ": '" ++
                PyStr.lit field.name ++ PyStr.lit "' must be " ++ expected }], [])
      | some targets =>
          let known := (pre.bind field.targets).getD []
          ([], (targets.filter fun target => target ∉ known).map fun target =>
            (field, target))

namespace Runtime

variable (runtime : Runtime)

/-- `CommitSnapshot` of a committed tree.  Every exception of the parse is an
unavailable snapshot, except the `ValueError` of a broken block. -/
def snapshotOf (tree : Tree) : Option Snapshot :=
  let files := tree.entries.filter fun file => file.1.indexable
  match files.mapM fun file =>
      (runtime.lenientFrontmatter file.2).map fun entries => (file.1, entries) with
  | .ok snapshot => some snapshot
  | .error _ => none

variable (config : GateConfig)

/-- The check of one enumerated field. -/
def enumErrors (entries : Mapping) (field : String) (allowed : List String) :
    Except Raised (List ValidationError) :=
  match entries.present field with
  | none => .ok []
  | some value =>
      if value.unhashable then .error .unhashable
      else if allowed.any fun name => value.isStr (PyStr.lit name) then .ok []
      else do
        let shown ← runtime.str value
        return [{
          field := field
          code := .invalidEnum
          message := PyStr.lit "invalid " ++ PyStr.lit field ++ PyStr.lit " '" ++ shown ++
            PyStr.lit "' (allowed: " ++ sortedText allowed ++ PyStr.lit ")" }]

/-- `_result_membership(…)`: the ids present in the commit being made. -/
def resultMembership (snapshot : Snapshot) (targetPath : RelPath)
    (entries : Mapping) (transaction : List (RelPath × Text)) :
    Except Raised (List PyStr) := do
  let written ← transaction.mapM fun file =>
    (runtime.lenientFrontmatter file.2).map fun found => (file.1, found)
  let writes := (targetPath, entries) :: written.filter fun file => file.1 ≠ targetPath
  let kept := snapshot.effectiveIds.filter fun owner =>
    writes.all fun file => file.1 ≠ owner.1
  let added := (writes.filter fun file => file.1.indexable).map fun file =>
    effectiveDocId file.2 file.1
  return kept.map Prod.snd ++ added

/-- `_supersession_errors(…)`. -/
def supersessionErrors (entries : Mapping) (targetPath : RelPath)
    (snapshot : Option Snapshot) (transaction : List (RelPath × Text)) :
    Except Raised (List ValidationError) :=
  match relationshipFields.filter fun field => (entries.present field.name).isSome with
  | [] => .ok []
  | first :: _ =>
      match snapshot with
      | none => .ok [{
          field := first.name
          code := .unresolvedTargetUnverifiable
          message := PyStr.lit ("unresolved_target_unverifiable: the committed tree could " ++
            "not be read, so relationship targets cannot be verified; retry") }]
      | some committed => do
          let preimage := (committed.lookup targetPath).getD []
          let found := relationshipFields.map fun field =>
            relationshipErrors config field entries preimage
          let errors := found.flatMap Prod.fst
          let added := found.flatMap Prod.snd
          if added.isEmpty then return errors
          else
            let membership ← runtime.resultMembership committed targetPath entries transaction
            return errors ++ (added.filter fun edge => edge.2 ∉ membership).map fun edge => {
              field := edge.1.name
              code := edge.1.unresolved
              message := PyStr.lit edge.1.unresolved.text ++ PyStr.lit ": '" ++
                PyStr.lit edge.1.name ++ PyStr.lit "' references " ++
                safeTarget config edge.2 ++
                PyStr.lit ", which is not a committed document; approve or create it first" }

/-- The vocabulary check, from which reserved files are exempt. -/
def vocabularyErrors (entries : Mapping) (targetPath : RelPath) :
    Except Raised (List ValidationError) :=
  if targetPath.isReserved then .ok []
  else (enumFields.mapM fun field => runtime.enumErrors entries field.1 field.2).map
    List.flatten

/-- The relationship check, made only where the committed tree is known. -/
def relationErrors (entries : Mapping) (targetPath : RelPath)
    (worktree : Option Worktree) (transaction : List (RelPath × Text)) :
    Except Raised (List ValidationError) :=
  match worktree with
  | none => .ok []
  | some tree =>
      if targetPath.isReserved then .ok []
      else runtime.supersessionErrors config entries targetPath tree.snapshot transaction

/-- `validate_postimage(…)`: the errors found.  The postimage is accepted when there
is none. -/
def validatePostimage (targetPath : RelPath) (postimage : Text)
    (idMap : Option (List (PyStr × RelPath))) (worktree : Option Worktree)
    (transaction : List (RelPath × Text)) : Except Raised (List ValidationError) :=
  match runtime.parseFrontmatter postimage with
  | .error (.valueError message) => .ok [{
      field := "frontmatter"
      code := .invalidFrontmatter
      message := message }]
  | .error raised => .error raised
  | .ok (entries, _) => do
      let vocabulary ← runtime.vocabularyErrors entries targetPath
      let relations ← runtime.relationErrors config entries targetPath worktree transaction
      return vocabulary ++ missingStatusErrors config entries targetPath idMap worktree ++
        duplicateIdErrors entries targetPath idMap worktree ++ relations

/-- The gate accepts the postimage. -/
def Accepts (targetPath : RelPath) (postimage : Text)
    (idMap : Option (List (PyStr × RelPath))) (worktree : Option Worktree)
    (transaction : List (RelPath × Text)) : Prop :=
  runtime.validatePostimage config targetPath postimage idMap worktree transaction = .ok []

theorem vocabularyErrors_eq_nil_iff {entries : Mapping} {targetPath : RelPath} :
    runtime.vocabularyErrors entries targetPath = .ok [] ↔
      (targetPath.isReserved = false → ∀ field ∈ enumFields,
        runtime.enumErrors entries field.1 field.2 = .ok []) := by
  unfold vocabularyErrors
  cases targetPath.isReserved with
  | true => simp
  | false =>
      rw [if_neg Bool.false_ne_true, Except.map_eq_ok_iff]
      simp only [List.flatten_eq_nil_iff, forall_const]
      constructor
      · intro found field member
        rcases Except.exists_mapM_ok_all_iff.mp found field member with
          ⟨errors, errorsOk, rfl⟩
        exact errorsOk
      · intro silent
        exact Except.exists_mapM_ok_all_iff.mpr fun field member =>
          ⟨[], silent field member, rfl⟩

/-- The gate accepts exactly the postimages with front matter on which every one of
its checks is silent. -/
theorem accepts_iff {targetPath : RelPath} {postimage : Text}
    {idMap : Option (List (PyStr × RelPath))} {worktree : Option Worktree}
    {transaction : List (RelPath × Text)} :
    runtime.Accepts config targetPath postimage idMap worktree transaction ↔
      ∃ entries body, runtime.parseFrontmatter postimage = .ok (entries, body) ∧
        runtime.vocabularyErrors entries targetPath = .ok [] ∧
        missingStatusErrors config entries targetPath idMap worktree = [] ∧
        duplicateIdErrors entries targetPath idMap worktree = [] ∧
        runtime.relationErrors config entries targetPath worktree transaction = .ok [] := by
  unfold Accepts validatePostimage
  cases parsed : runtime.parseFrontmatter postimage with
  | error raised => cases raised <;> simp
  | ok result =>
      simp only [Except.bind_eq_ok_iff, Except.ok.injEq]
      constructor
      · rintro ⟨vocabulary, vocabularyOk, relations, relationsOk, silent⟩
        have parts := Except.ok.inj silent
        simp only [List.append_eq_nil_iff] at parts
        rcases parts with ⟨⟨⟨rfl, missing⟩, duplicate⟩, rfl⟩
        exact ⟨result.1, result.2, rfl, vocabularyOk, missing, duplicate, relationsOk⟩
      · rintro ⟨entries, body, rfl, vocabularyOk, missing, duplicate, relationsOk⟩
        refine ⟨[], vocabularyOk, [], relationsOk, ?_⟩
        rw [missing, duplicate]
        rfl

/-- An error that does not depend on the committed tree, found without that tree in a
postimage whose front matter and vocabulary are fine, is a duplicate id in the live index. -/
theorem duplicateIdErrors_ne_nil {targetPath : RelPath} {postimage body : Text}
    {idMap : Option (List (PyStr × RelPath))} {transaction : List (RelPath × Text)}
    {errors : List ValidationError} {entries : Mapping}
    (validated : runtime.validatePostimage config targetPath postimage idMap none transaction =
      .ok errors)
    (independent : (errors.any fun error => !error.code.snapshotDependent) = true)
    (parsed : runtime.parseFrontmatter postimage = .ok (entries, body))
    (vocabulary : runtime.vocabularyErrors entries targetPath = .ok []) :
    duplicateIdErrors entries targetPath idMap none ≠ [] := by
  intro noDuplicate
  rw [validatePostimage, parsed] at validated
  rcases Except.bind_eq_ok_iff.mp validated with ⟨found, foundOk, rest⟩
  cases foundOk.symm.trans vocabulary
  rcases Except.bind_eq_ok_iff.mp rest with ⟨relations, relationsOk, collected⟩
  cases relationsOk
  cases collected
  have onlyMissing : ∀ error ∈ missingStatusErrors config entries targetPath idMap none,
      error.code.snapshotDependent = true := by
    intro error member
    unfold missingStatusErrors at member
    split_ifs at member
    · rw [List.mem_singleton] at member
      subst error
      rfl
    · cases member
  simp only [noDuplicate, List.nil_append, List.append_nil, List.any_eq_true,
    Bool.not_eq_true'] at independent
  rcases independent with ⟨error, member, notDependent⟩
  exact Bool.false_ne_true (notDependent.symm.trans (onlyMissing error member))

/-- An id that the live index holds under another path stays a duplicate with the committed
tree. -/
theorem duplicateIdErrors_ne_nil_of_index {entries : Mapping} {targetPath : RelPath}
    {idMap : Option (List (PyStr × RelPath))}
    (duplicate : duplicateIdErrors entries targetPath idMap none ≠ [])
    (worktree : Option Worktree) : duplicateIdErrors entries targetPath idMap worktree ≠ [] := by
  unfold duplicateIdErrors at duplicate ⊢
  dsimp only at duplicate ⊢
  rw [effectiveDocId_ne_nil, if_neg Bool.false_ne_true] at duplicate ⊢
  unfold collisionPath at duplicate ⊢
  dsimp only at duplicate ⊢
  cases indexed : (idMap.bind fun owners =>
      owners.lookup (effectiveDocId entries targetPath)).filter fun other =>
        other ≠ targetPath with
  | none =>
      rw [indexed] at duplicate
      exact absurd rfl duplicate
  | some other => simp

/-- A field that passes its check is absent or holds a word of its vocabulary. -/
theorem enumErrors_eq_nil {entries : Mapping} {field : String} {allowed : List String}
    (silent : runtime.enumErrors entries field allowed = .ok []) :
    entries.present field = none ∨
      ∃ name ∈ allowed, entries.present field = some (.str (PyStr.lit name)) := by
  unfold enumErrors at silent
  cases found : entries.present field with
  | none => exact .inl rfl
  | some value =>
      simp only [found] at silent
      split_ifs at silent with unhashable known
      · rcases List.any_eq_true.mp known with ⟨name, member, isName⟩
        refine .inr ⟨name, member, ?_⟩
        cases value <;> simp_all [Value.isStr]
      · rcases Except.bind_eq_ok_iff.mp silent with ⟨shown, -, impossible⟩
        cases impossible

end Runtime

end DataOlympus
