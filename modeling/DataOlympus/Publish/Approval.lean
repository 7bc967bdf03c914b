import DataOlympus.Merge.ThreeWay
import DataOlympus.Publish.Demotion

/-!
# The approval of a demoted commit

A demoted commit is proposed again with the commit before it as the base.  An approval
refreshes the branch of the session, which may still carry the commit, and compares the
target there with that base before it commits the proposal.
-/

namespace DataOlympus

open Lines ThreeWay

/-- The files of a commit. -/
abbrev Files : Type :=
  Text → Option Text

/-- The trunk as a refresh finds it. -/
inductive Remote where
  /-- There is no `origin`. -/
  | missing
  /-- There is an `origin`, but `git remote` fails and lists nothing, which reads as no `origin`. -/
  | unlisted
  /-- A command runs out of time, or the fetch fails. -/
  | unreachable
  | fetched (upstream : Files)

/-- The worktree of a session. -/
structure SessionWorktree where
  head : Files
  /-- The commits that a rebase picks. -/
  own : List (Change Text (Option Text))
  remote : Remote
  /-- An unresolved claim may have its commit on the branch. -/
  atRisk : Bool
  /-- The files at a revision, if it names a commit. -/
  atRevision : Text → Option Files

/-- The ids of contents. -/
structure Hashing where
  blobSha : Text → Text
  sha256 : Text → Text
  blobSha_ne_nil : ∀ content, blobSha content ≠ []
  blobSha_injective : blobSha.Injective

/-- How a commit in a worktree ends. -/
inductive CommitOutcome where
  /-- The base could not be refreshed. -/
  | unrefreshed
  | rejectedStaleBase (reason : Text)
  /-- Another gate rejects. -/
  | rejected
  | committed (files : Files)

/-- The marker, unless it is falsy. -/
def given (marker : Option Text) : Option Text :=
  marker.filter fun text => !text.isEmpty

/-- `_is_enforceable_base_commit(base_commit)`. -/
def isEnforceableBaseCommit (baseCommit : Text) : Bool :=
  !baseCommit.isEmpty && (strip baseCommit).map Char.toUpper ≠ "HEAD".toList

/-- An id in a reason. -/
def orAbsent (id : Text) : Text :=
  if id.isEmpty then "<absent>".toList else id

section CheckCas

variable (hashing : Hashing)

/-- The blob id of a file, or the empty text. -/
def Hashing.blobOf (content : Option Text) : Text :=
  content.elim [] hashing.blobSha

/-- One marker of the caller against the current file. -/
def checkMarker (name : Text) (marker : Option Text) (current : Text) : Except Text Unit :=
  match given marker with
  | none => .ok ()
  | some caller =>
      if current = caller then .ok ()
      else .error (name ++ " mismatch: caller=".toList ++ caller ++ " current=".toList ++
        orAbsent current)

/-- The file at the base commit against the current file. -/
def checkBaseCommit (atRevision : Text → Option Files) (current : Option Text)
    (targetPath baseCommit : Text) : Except Text Unit :=
  if isEnforceableBaseCommit baseCommit then
    match atRevision baseCommit with
    | none => .error ("base_commit unknown/unreachable: ".toList ++ baseCommit)
    | some files =>
        let baseBlob := hashing.blobOf (files targetPath)
        let currentBlob := hashing.blobOf current
        if baseBlob = currentBlob then .ok ()
        else .error ("base_commit mismatch: content at ".toList ++ baseCommit ++
          " (blob=".toList ++ orAbsent baseBlob ++ ") differs from current (blob=".toList ++
          orAbsent currentBlob ++ ")".toList)
  else .ok ()

/-- `check_cas(…)` where the worktree has these files. -/
def checkCas (atRevision : Text → Option Files) (files : Files) (proposal : QueuedProposal) :
    Except Text Unit := do
  let current := files proposal.targetPath
  checkMarker "base_blob_sha".toList proposal.baseBlobSha (hashing.blobOf current)
  checkMarker "target_file_hash".toList proposal.targetFileHash
    (current.elim [] hashing.sha256)
  checkBaseCommit hashing atRevision current proposal.targetPath proposal.baseCommit

end CheckCas

namespace SessionWorktree

variable (merge : Merge (Option Text)) (hashing : Hashing) (worktree : SessionWorktree)

/-- `refresh_base(…)`: the files of the refreshed branch, unless it raises.  The exit status of
`git remote` is not looked at, so that one that fails reads as no `origin`. -/
def refreshBase : Option Files :=
  if worktree.atRisk then none
  else
    match worktree.remote with
    | .missing | .unlisted => some worktree.head
    | .unreachable => none
    | .fetched upstream => replay merge worktree.own upstream

/-- What follows the refresh.  The gates before and after the base check are given by what
they admit. -/
def commitOn (early late : Files → Bool) (proposal : QueuedProposal) (files : Files) :
    CommitOutcome :=
  if early files then
    match checkCas hashing worktree.atRevision files proposal with
    | .error reason => .rejectedStaleBase reason
    | .ok _ =>
        if late files then
          .committed (Function.update files proposal.targetPath (some proposal.postimage))
        else .rejected
  else .rejected

/-- `_commit_in_worktree(…)`, up to the commit. -/
def commitInWorktree (early late : Files → Bool) (proposal : QueuedProposal) : CommitOutcome :=
  let casEnforceable := (given proposal.baseBlobSha).isSome ||
    (given proposal.targetFileHash).isSome || isEnforceableBaseCommit proposal.baseCommit
  match worktree.refreshBase merge with
  | some files => worktree.commitOn hashing early late proposal files
  | none =>
      if casEnforceable then .unrefreshed
      else worktree.commitOn hashing early late proposal worktree.head

end SessionWorktree

/-! ## The base of a demoted commit -/

/-- The parent of a commit is a base that is enforced. -/
theorem isEnforceableBaseCommit_parent (sha : Sha) :
    isEnforceableBaseCommit (sha ++ ['^']) = true := by
  have caret : '^' ∈ (strip (sha ++ ['^'])).map Char.toUpper :=
    List.mem_map.mpr ⟨'^', mem_strip_of_visible rfl (List.mem_append_right _ List.mem_cons_self),
      rfl⟩
  have named : (strip (sha ++ ['^'])).map Char.toUpper ≠ "HEAD".toList := by
    intro head
    rw [head] at caret
    exact absurd caret (by decide)
  have some_text : (sha ++ ['^']).isEmpty = false := by
    cases sha <;> rfl
  rw [isEnforceableBaseCommit, some_text, Bool.not_false, Bool.true_and]
  exact decide_eq_true named

/-- Equal blob ids are the ids of equal files. -/
theorem Hashing.blobOf_eq_iff (hashing : Hashing) {content other : Option Text} :
    hashing.blobOf content = hashing.blobOf other ↔ content = other := by
  constructor
  · intro same
    cases content with
    | none =>
        cases other with
        | none => rfl
        | some text => exact absurd same.symm (hashing.blobSha_ne_nil text)
    | some text =>
        cases other with
        | none => exact absurd same (hashing.blobSha_ne_nil text)
        | some _ => exact congrArg some (hashing.blobSha_injective same)
  · rintro rfl
    rfl

/-- A demoted proposal passes the base check exactly if the commit before it is there and had
the target as it is now. -/
theorem checkCas_proposal_iff {hashing : Hashing} {atRevision : Text → Option Files}
    {files : Files} {commit : SessionCommit} {entry : PushEntry} {path postimage : Text}
    {now : Time} :
    checkCas hashing atRevision files (commit.proposal entry path postimage now) = .ok () ↔
      ∃ base, atRevision (commit.sha ++ ['^']) = some base ∧ base path = files path := by
  have markers : checkCas hashing atRevision files (commit.proposal entry path postimage now) =
      checkBaseCommit hashing atRevision (files path) path (commit.sha ++ ['^']) :=
    rfl
  rw [markers, checkBaseCommit, if_pos (isEnforceableBaseCommit_parent _)]
  cases atRevision (commit.sha ++ ['^']) with
  | none => simp
  | some base =>
      simp only [Option.some.injEq, exists_eq_left', hashing.blobOf_eq_iff]
      split <;> rename_i same <;> simp [same]

/-- A commit that was demoted because its branch did not rebase, and one of the entries made
from it. -/
structure ConflictDemotion (merge : Merge (Option Text)) where
  commit : SessionCommit
  change : Change Text (Option Text)
  changes : ∀ file, file ∈ commit.changed ↔
    change.after file.1 = some file.2 ∧ change.before file.1 ≠ some file.2
  /-- The commits of the branch that were to be rebased. -/
  own : List (Change Text (Option Text))
  carried : change ∈ own
  upstream : Files
  conflict : replay merge own upstream = none
  entry : PushEntry
  path : Text
  postimage : Text
  enqueuedAt : Time
  listed : path ∈ commit.filesChangedInCommit
  read : commit.fileAtCommit path = some postimage

namespace ConflictDemotion

variable {merge : Merge (Option Text)} (demotion : ConflictDemotion merge)

/-- The pending entry. -/
def proposal : QueuedProposal :=
  demotion.commit.proposal demotion.entry demotion.path demotion.postimage demotion.enqueuedAt

/-- A worktree in which the entry is approved while upstream has the target as it had it at
the demotion. -/
structure Approval where
  worktree : SessionWorktree
  stored : ∀ files, worktree.atRevision demotion.proposal.baseCommit = some files →
    files = demotion.change.before
  unmoved : ∀ upstream, worktree.remote = .fetched upstream →
    upstream demotion.path = demotion.upstream demotion.path

end ConflictDemotion

namespace ConflictDemotion.Approval

variable {merge : Merge (Option Text)} {demotion : ConflictDemotion merge}
  (approval : demotion.Approval) (hashing : Hashing)

/-- The base check accepts, and what the other gates admit is committed. -/
def Commits : Prop :=
  ∃ files : Files, ∀ early late : Files → Bool,
    approval.worktree.commitInWorktree merge hashing early late demotion.proposal =
      if early files then
        if late files then
          .committed (Function.update files demotion.path (some demotion.postimage))
        else .rejected
      else .rejected

/-- The branch can be refreshed, and its changes of the target lead from what upstream had at
the demotion back to what the target was before the demoted commit. -/
def BaseStands : Prop :=
  approval.worktree.atRisk = false ∧
    (approval.worktree.atRevision demotion.proposal.baseCommit).isSome = true ∧
      match approval.worktree.remote with
      | .missing | .unlisted =>
          approval.worktree.head demotion.path = demotion.change.before demotion.path
      | .unreachable => False
      | .fetched upstream =>
          (∀ change ∈ approval.worktree.own, ∀ path ∈ change.keys,
            (replayAt merge path approval.worktree.own (upstream path)).isSome = true) ∧
          replayAt merge demotion.path approval.worktree.own (demotion.upstream demotion.path) =
            some (demotion.change.before demotion.path)

variable {approval} {hashing}

/-- The approval commits exactly if the refresh gives files that pass the base check. -/
theorem commits_iff_refreshed : approval.Commits hashing ↔
    ∃ files, approval.worktree.refreshBase merge = some files ∧
      checkCas hashing approval.worktree.atRevision files demotion.proposal = .ok () := by
  unfold Commits SessionWorktree.commitInWorktree
  have enforceable : isEnforceableBaseCommit demotion.proposal.baseCommit = true :=
    isEnforceableBaseCommit_parent _
  simp only [enforceable, Bool.or_true, if_true]
  cases approval.worktree.refreshBase merge with
  | none =>
      constructor
      · rintro ⟨files, ends⟩
        cases ends (fun _ => false) (fun _ => false)
      · rintro ⟨files, impossible, -⟩
        cases impossible
  | some files =>
      simp only [Option.some.injEq, exists_eq_left']
      constructor
      · rintro ⟨other, ends⟩
        have committed := ends (fun _ => true) (fun _ => true)
        simp only [SessionWorktree.commitOn, if_true] at committed
        split at committed
        · cases committed
        · assumption
      · intro passed
        refine ⟨files, ?_⟩
        intro early late
        rw [SessionWorktree.commitOn, passed]
        rfl

/-- The base check accepts files that have the target as it was before the demoted commit. -/
theorem passes_iff (files : Files) :
    checkCas hashing approval.worktree.atRevision files demotion.proposal = .ok () ↔
      (approval.worktree.atRevision demotion.proposal.baseCommit).isSome = true ∧
        files demotion.path = demotion.change.before demotion.path := by
  unfold proposal
  rw [checkCas_proposal_iff, Option.isSome_iff_exists]
  constructor
  · rintro ⟨base, found, same⟩
    rw [approval.stored base found] at same
    exact ⟨⟨base, found⟩, same.symm⟩
  · rintro ⟨⟨base, found⟩, same⟩
    refine ⟨base, found, ?_⟩
    rw [approval.stored base found, same]

/-- An approval in a branch that has no commit of its own commits exactly if the conflict
lay elsewhere: upstream had the target as it was before the demoted commit. -/
theorem commits_iff_of_fresh {upstream : Files} (fresh : approval.worktree.own = [])
    (fetched : approval.worktree.remote = .fetched upstream)
    (safe : approval.worktree.atRisk = false)
    (stored : (approval.worktree.atRevision demotion.proposal.baseCommit).isSome = true) :
    approval.Commits hashing ↔
      demotion.upstream demotion.path = demotion.change.before demotion.path := by
  have refreshed : approval.worktree.refreshBase merge = some upstream := by
    simp [SessionWorktree.refreshBase, safe, fetched, fresh, replay]
  simp only [commits_iff_refreshed, refreshed, Option.some.injEq, exists_eq_left', passes_iff,
    stored, true_and, approval.unmoved upstream fetched]

/-- While the branch has the commits that did not rebase, and upstream has the files that they
change as it had them, the approval is rejected. -/
theorem not_commits_of_carried {upstream : Files} {later : List (Change Text (Option Text))}
    (carried : approval.worktree.own = demotion.own ++ later)
    (fetched : approval.worktree.remote = .fetched upstream)
    (agree : ∀ change ∈ demotion.own, ∀ path ∈ change.keys,
      upstream path = demotion.upstream path) :
    ¬approval.Commits hashing := by
  rw [commits_iff_refreshed]
  rintro ⟨files, refreshed, -⟩
  unfold SessionWorktree.refreshBase at refreshed
  split at refreshed
  · cases refreshed
  · rw [fetched, carried] at refreshed
    exact not_exists_replay_of_agree demotion.conflict agree ⟨files, refreshed⟩

end ConflictDemotion.Approval

/-- The approval of an entry of a demoted commit commits exactly if the base stands. -/
theorem approval_commits_iff (merge : Merge (Option Text)) (demotion : ConflictDemotion merge)
    (approval : demotion.Approval) (hashing : Hashing) :
    approval.Commits hashing ↔ approval.BaseStands := by
  rw [ConflictDemotion.Approval.commits_iff_refreshed]
  simp only [ConflictDemotion.Approval.passes_iff, ConflictDemotion.Approval.BaseStands,
    SessionWorktree.refreshBase]
  cases approval.worktree.atRisk with
  | true => simp
  | false =>
      cases remote : approval.worktree.remote with
      | missing => simp
      | unlisted => simp
      | unreachable => simp
      | fetched upstream =>
          have target := approval.unmoved upstream remote
          simp only [Bool.false_eq_true, if_false, true_and]
          constructor
          · rintro ⟨files, done, stored, same⟩
            have whole := replay_eq_some_iff.mp done demotion.path
            rw [target, same] at whole
            exact ⟨stored, exists_replay_iff.mp ⟨files, done⟩, whole⟩
          · rintro ⟨stored, clean, whole⟩
            obtain ⟨files, done⟩ := exists_replay_iff.mpr clean
            have here := replay_eq_some_iff.mp done demotion.path
            rw [target, whole] at here
            exact ⟨files, done, stored, (Option.some.inj here).symm⟩

section Conflicts

/-- The change that adds or modifies these files. -/
def changeOf (changed : Python.Dict Text Text) (before : Files) : Change Text (Option Text) where
  before := before
  after path := (changed.get path).or (before path)
  keys := changed.items.map Prod.fst
  elsewhere path absent := by
    have unlisted : changed.get path = none := by
      cases found : changed.get path with
      | none => rfl
      | some content =>
          have member := Python.Dict.get_eq_some_iff.mp found
          exact absurd (List.mem_map_of_mem member) absent
    rw [unlisted, Option.none_or]

theorem mem_items_iff_changeOf (changed : Python.Dict Text Text) {before : Files}
    (new : ∀ file ∈ changed.items, before file.1 ≠ some file.2) (file : Text × Text) :
    file ∈ changed.items ↔ (changeOf changed before).after file.1 = some file.2 ∧
      (changeOf changed before).before file.1 ≠ some file.2 := by
  rw [← Python.Dict.get_eq_some_iff]
  simp only [changeOf]
  cases found : changed.get file.1 with
  | none => simp
  | some content =>
      simp only [Option.some_or]
      constructor
      · intro same
        exact ⟨same, new _ (Python.Dict.get_eq_some_iff.mp (found.trans same))⟩
      · exact And.left

/-- The files before the commits below. -/
def draftFiles : Files :=
  (⟨[("a.md".toList, "1".toList), ("b.md".toList, "1".toList)], by decide⟩ :
    Python.Dict Text Text).get

/-- Upstream with another text of one file. -/
def upstreamWith (path : Text) : Files :=
  Function.update draftFiles path (some "2".toList)

/-- The change of a commit of both files. -/
def twoEdits : Change Text (Option Text) :=
  changeOf ⟨twoFiles.changed, twoFiles.once⟩ draftFiles

/-- Its demotion where upstream has another text of one file, and the entry of the first
file. -/
def demotionFor (path : Text)
    (conflict : replay Merge.strict [twoEdits] (upstreamWith path) = none) :
    ConflictDemotion Merge.strict where
  commit := twoFiles
  change := twoEdits
  changes := by
    have new : ∀ file ∈ twoFiles.changed, draftFiles file.1 ≠ some file.2 := by
      decide
    exact mem_items_iff_changeOf ⟨twoFiles.changed, twoFiles.once⟩ new
  own := [twoEdits]
  carried := List.mem_cons_self
  upstream := upstreamWith path
  conflict := conflict
  entry := queuedCommit
  path := "a.md".toList
  postimage := "A".toList
  enqueuedAt := 0
  listed := by decide
  read := by decide

/-- The approval where nothing moved, in a branch with these commits. -/
def approvalIn (path : Text)
    (conflict : replay Merge.strict [twoEdits] (upstreamWith path) = none)
    (own : List (Change Text (Option Text))) : (demotionFor path conflict).Approval where
  worktree := ⟨draftFiles, own, .fetched (upstreamWith path), false, fun _ => some draftFiles⟩
  stored files found := (Option.some.inj found).symm
  unmoved upstream fetched := by
    cases fetched
    rfl

/-- Texts as their own ids. -/
def plainHashing : Hashing where
  blobSha content := 'b' :: content
  sha256 content := content
  blobSha_ne_nil content := List.cons_ne_nil 'b' content
  blobSha_injective _ _ same := (List.cons.inj same).2

/-- A file that upstream changed as well can be approved neither on the branch that has the
commit nor on a fresh one. -/
theorem conflicting_edit_is_rejected :
    ¬(approvalIn "a.md".toList rfl [twoEdits]).Commits plainHashing ∧
      ¬(approvalIn "a.md".toList rfl []).Commits plainHashing := by
  constructor
  · apply ConflictDemotion.Approval.not_commits_of_carried (List.append_nil _).symm rfl
    intro change _ path _
    rfl
  · rw [ConflictDemotion.Approval.commits_iff_of_fresh rfl rfl rfl rfl]
    decide

/-- A file that only shared its commit with the conflict can be approved on a fresh branch. -/
example : (approvalIn "b.md".toList rfl []).Commits plainHashing :=
  (ConflictDemotion.Approval.commits_iff_of_fresh rfl rfl rfl rfl).mpr (by decide)

end Conflicts

end DataOlympus
