import DataOlympus.Publish.Approval

/-!
# The base check

A caller can name the content that its proposal replaces by a blob id, by a content hash or by
a commit.  A write is made only against the content that every marker names.
-/

namespace DataOlympus

open Lines ThreeWay

/-- A marker that is given is not empty. -/
theorem ne_nil_of_given {marker : Option Text} {caller : Text}
    (found : given marker = some caller) : caller ≠ [] := by
  obtain ⟨-, visible⟩ := Option.filter_eq_some_iff.mp found
  rintro rfl
  cases visible

/-- The id of a file is this text, which is not empty. -/
theorem elim_eq_iff_map {id : Text → Text} {content : Option Text} {caller : Text}
    (visible : caller ≠ []) : content.elim [] id = caller ↔ content.map id = some caller := by
  cases content with
  | none => simp [visible.symm]
  | some text => simp

namespace QueuedProposal

variable (proposal : QueuedProposal)

/-- A marker is supplied that is enforced. -/
def marked : Bool :=
  (given proposal.baseBlobSha).isSome || (given proposal.targetFileHash).isSome ||
    isEnforceableBaseCommit proposal.baseCommit

/-- Each marker names this content of the target. -/
structure Names (hashing : Hashing) (atRevision : Text → Option Files)
    (content : Option Text) : Prop where
  blobSha : ∀ sha, given proposal.baseBlobSha = some sha →
    content.map hashing.blobSha = some sha
  fileHash : ∀ hash, given proposal.targetFileHash = some hash →
    content.map hashing.sha256 = some hash
  commit : isEnforceableBaseCommit proposal.baseCommit = true →
    ∃ files, atRevision proposal.baseCommit = some files ∧
      files proposal.targetPath = content

variable {proposal}

theorem marked_eq_false_iff : proposal.marked = false ↔
    given proposal.baseBlobSha = none ∧ given proposal.targetFileHash = none ∧
      isEnforceableBaseCommit proposal.baseCommit = false := by
  unfold marked
  simp only [Bool.or_eq_false_iff, Option.isSome_eq_false_iff, Option.isNone_iff_eq_none,
    and_assoc]

/-- Without a marker nothing is named. -/
theorem names_of_unmarked (unmarked : proposal.marked = false) (hashing : Hashing)
    (atRevision : Text → Option Files) (content : Option Text) :
    proposal.Names hashing atRevision content := by
  obtain ⟨noSha, noHash, advisory⟩ := marked_eq_false_iff.mp unmarked
  constructor
  · intro sha found
    cases noSha.symm.trans found
  · intro hash found
    cases noHash.symm.trans found
  · intro enforced
    cases advisory.symm.trans enforced

/-- A marked proposal names one content. -/
theorem Names.unique {hashing : Hashing} {atRevision : Text → Option Files}
    {content other : Option Text} (distinct : hashing.sha256.Injective)
    (marked : proposal.marked = true) (here : proposal.Names hashing atRevision content)
    (there : proposal.Names hashing atRevision other) : content = other := by
  cases sha : given proposal.baseBlobSha with
  | some caller =>
      exact Option.map_injective hashing.blobSha_injective
        ((here.blobSha caller sha).trans (there.blobSha caller sha).symm)
  | none =>
      cases hash : given proposal.targetFileHash with
      | some caller =>
          exact Option.map_injective distinct
            ((here.fileHash caller hash).trans (there.fileHash caller hash).symm)
      | none =>
          have enforced : isEnforceableBaseCommit proposal.baseCommit = true := by
            simpa [QueuedProposal.marked, sha, hash] using marked
          obtain ⟨files, found, same⟩ := here.commit enforced
          obtain ⟨again, found', same'⟩ := there.commit enforced
          cases Option.some.inj (found.symm.trans found')
          exact same.symm.trans same'

end QueuedProposal

/-! ## The check -/

theorem checkMarker_iff {name current : Text} {marker : Option Text} :
    checkMarker name marker current = .ok () ↔
      ∀ caller, given marker = some caller → current = caller := by
  rw [checkMarker]
  cases given marker with
  | none => simp
  | some caller =>
      simp only [Option.some.injEq, forall_eq']
      split <;> rename_i same <;> simp [same]

theorem checkBaseCommit_iff {hashing : Hashing} {atRevision : Text → Option Files}
    {current : Option Text} {targetPath baseCommit : Text} :
    checkBaseCommit hashing atRevision current targetPath baseCommit = .ok () ↔
      (isEnforceableBaseCommit baseCommit = true →
        ∃ files, atRevision baseCommit = some files ∧ files targetPath = current) := by
  rw [checkBaseCommit]
  split
  · rename_i enforced
    cases atRevision baseCommit with
    | none => simp [enforced]
    | some files =>
        simp only [enforced, Option.some.injEq, exists_eq_left', forall_const,
          hashing.blobOf_eq_iff]
        split <;> rename_i same <;> simp [same]
  · rename_i advisory
    simp [advisory]

/-- The base check accepts exactly if every marker names the current content of the target. -/
theorem checkCas_iff_names {hashing : Hashing} {atRevision : Text → Option Files}
    {files : Files} {proposal : QueuedProposal} :
    checkCas hashing atRevision files proposal = .ok () ↔
      proposal.Names hashing atRevision (files proposal.targetPath) := by
  have sha := @checkMarker_iff "base_blob_sha".toList
    (hashing.blobOf (files proposal.targetPath)) proposal.baseBlobSha
  have hash := @checkMarker_iff "target_file_hash".toList
    ((files proposal.targetPath).elim [] hashing.sha256) proposal.targetFileHash
  have commit := @checkBaseCommit_iff hashing atRevision (files proposal.targetPath)
    proposal.targetPath proposal.baseCommit
  unfold checkCas
  simp only [Except.bind_eq_ok_iff]
  constructor
  · rintro ⟨⟨⟩, first, ⟨⟩, second, third⟩
    constructor
    · intro caller found
      exact (elim_eq_iff_map (ne_nil_of_given found)).mp (sha.mp first caller found)
    · intro caller found
      exact (elim_eq_iff_map (ne_nil_of_given found)).mp (hash.mp second caller found)
    · exact commit.mp third
  · intro names
    refine ⟨(), sha.mpr ?_, (), hash.mpr ?_, commit.mpr names.commit⟩
    · intro caller found
      exact (elim_eq_iff_map (ne_nil_of_given found)).mpr (names.blobSha caller found)
    · intro caller found
      exact (elim_eq_iff_map (ne_nil_of_given found)).mpr (names.fileHash caller found)

/-! ## The write -/

namespace SessionWorktree

variable (merge : Merge (Option Text)) (hashing : Hashing) (worktree : SessionWorktree)
  (early late : Files → Bool) (proposal : QueuedProposal)

/-- The files of the branch on the trunk as it is: those that it has where there is no
`origin`, and none where a claim is at risk, where the trunk cannot be read, or where the
branch does not rebase. -/
def upToDate : Option Files :=
  if worktree.atRisk then none
  else
    match worktree.remote with
    | .missing => some worktree.head
    | .unlisted | .unreachable => none
    | .fetched upstream => replay merge worktree.own upstream

/-- The files that a commit sits on: those of the refreshed branch or, for a proposal without
markers, those of a branch that could not be refreshed. -/
inductive Base : Files → Prop
  | refreshed (files : Files) (done : worktree.upToDate merge = some files) : Base files
  | unrefreshed (failed : worktree.upToDate merge = none)
      (unmarked : proposal.marked = false) : Base worktree.head

/-- A write is committed only on files in which every marker names the current content of its
target, so that a caller whose markers name an older content has read the current one.  Without
markers the check rejects nothing, and with one a failed refresh rejects the write. -/
structure ReplacesNamed : Prop where
  committed : ∀ after,
    worktree.commitInWorktree merge hashing early late proposal = .committed after →
      ∃ files, worktree.Base merge proposal files ∧
        after = Function.update files proposal.targetPath (some proposal.postimage) ∧
        proposal.Names hashing worktree.atRevision (files proposal.targetPath) ∧
        (proposal.marked = true → ∀ read,
          proposal.Names hashing worktree.atRevision read → read = files proposal.targetPath)
  accepts : ∀ files, checkCas hashing worktree.atRevision files proposal = .ok () ↔
    proposal.Names hashing worktree.atRevision (files proposal.targetPath)
  unmarked : proposal.marked = false →
    (∀ files, checkCas hashing worktree.atRevision files proposal = .ok ()) ∧
    worktree.commitInWorktree merge hashing early late proposal ≠ .unrefreshed ∧
    ∀ reason, worktree.commitInWorktree merge hashing early late proposal ≠
      .rejectedStaleBase reason
  unrefreshed : proposal.marked = true → worktree.upToDate merge = none →
    worktree.commitInWorktree merge hashing early late proposal = .unrefreshed

/-- `git remote` fails where there is an `origin`, and the refresh is not deferred. -/
def Unlisted : Prop :=
  worktree.atRisk = false ∧ worktree.remote = .unlisted

variable {merge hashing worktree early late proposal}

/-- What is committed passed the base check on the files that the commit sits on. -/
theorem commitOn_eq_committed {files after : Files}
    (ends : worktree.commitOn hashing early late proposal files = .committed after) :
    checkCas hashing worktree.atRevision files proposal = .ok () ∧
      after = Function.update files proposal.targetPath (some proposal.postimage) := by
  unfold commitOn at ends
  split at ends
  · split at ends
    · cases ends
    · rename_i passed
      split at ends
      · cases ends
        exact ⟨passed, rfl⟩
      · cases ends
  · cases ends

/-- The refresh answers as it should, but where `git remote` fails. -/
theorem refreshBase_eq (listed : ¬worktree.Unlisted) :
    worktree.refreshBase merge = worktree.upToDate merge := by
  unfold refreshBase upToDate
  cases risk : worktree.atRisk with
  | true => rfl
  | false =>
      cases remote : worktree.remote with
      | unlisted => exact absurd ⟨risk, remote⟩ listed
      | _ => rfl

theorem upToDate_of_unlisted (unlisted : worktree.Unlisted) : worktree.upToDate merge = none := by
  rw [upToDate, unlisted.1, unlisted.2]
  rfl

theorem refreshBase_of_unlisted (unlisted : worktree.Unlisted) :
    worktree.refreshBase merge = some worktree.head := by
  rw [refreshBase, unlisted.1, unlisted.2]
  rfl

/-- No commit on given files ends for want of a refresh. -/
theorem commitOn_ne_unrefreshed (files : Files) :
    worktree.commitOn hashing early late proposal files ≠ .unrefreshed := by
  unfold commitOn
  split
  · split
    · simp
    · split <;> simp
  · simp

theorem commitInWorktree_eq_committed (fits : worktree.Unlisted → proposal.marked = false)
    {after : Files}
    (ends : worktree.commitInWorktree merge hashing early late proposal = .committed after) :
    ∃ files, worktree.Base merge proposal files ∧
      worktree.commitOn hashing early late proposal files = .committed after := by
  unfold commitInWorktree at ends
  dsimp only at ends
  by_cases unlisted : worktree.Unlisted
  · rw [refreshBase_of_unlisted unlisted] at ends
    exact ⟨worktree.head, .unrefreshed (upToDate_of_unlisted unlisted) (fits unlisted), ends⟩
  · rw [refreshBase_eq unlisted] at ends
    split at ends
    · rename_i files done
      exact ⟨files, .refreshed files done, ends⟩
    · rename_i failed
      split at ends
      · cases ends
      · rename_i unmarked
        exact ⟨worktree.head, .unrefreshed failed (Bool.eq_false_iff.mpr unmarked), ends⟩

/-- Without a marker the base is not what a write is rejected for. -/
theorem commitInWorktree_of_unmarked (unmarked : proposal.marked = false) :
    worktree.commitInWorktree merge hashing early late proposal ≠ .unrefreshed ∧
      ∀ reason, worktree.commitInWorktree merge hashing early late proposal ≠
        .rejectedStaleBase reason := by
  have accepts : ∀ files, checkCas hashing worktree.atRevision files proposal = .ok () :=
    fun files => checkCas_iff_names.mpr (QueuedProposal.names_of_unmarked unmarked _ _ _)
  have onFiles : ∀ files, worktree.commitOn hashing early late proposal files ≠ .unrefreshed ∧
      ∀ reason, worktree.commitOn hashing early late proposal files ≠
        .rejectedStaleBase reason := by
    intro files
    unfold commitOn
    rw [accepts files]
    split
    · dsimp only
      split <;> simp
    · simp
  unfold commitInWorktree
  dsimp only
  split
  · exact onFiles _
  · split
    · rename_i marked
      cases unmarked.symm.trans marked
    · exact onFiles _

/-- With one, a branch that could not be refreshed is what it is rejected for. -/
theorem commitInWorktree_of_unrefreshed (marked : proposal.marked = true)
    (failed : worktree.refreshBase merge = none) :
    worktree.commitInWorktree merge hashing early late proposal = .unrefreshed := by
  unfold commitInWorktree
  rw [failed]
  exact if_pos marked

end SessionWorktree

/-- A proposal that names the draft by its blob id. -/
def queuedEdit : QueuedProposal :=
  { (demotionFor "b.md".toList rfl).proposal with
    baseBlobSha := some ('b' :: "1".toList), baseCommit := [] }

/-- The worktree of the draft, where `git remote` fails. -/
def unlistedWorktree : SessionWorktree :=
  { (approvalIn "b.md".toList rfl []).worktree with remote := .unlisted }

end DataOlympus
