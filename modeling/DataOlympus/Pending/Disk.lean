import DataOlympus.Control.Except
import DataOlympus.Document.Path
import DataOlympus.Python.Clock
import DataOlympus.Transition.Plan

/-!
# The files of the pending queue

An entry is a file `<pending_id>.json`, renamed to `<pending_id>.claimed` while a
resolver holds it and rewritten through `<pending_id>.restoring` on its way back.  A
target path is locked by one lock file.  Every operation reads these files first and then
performs a list of file operations, each of which is atomic: a rename, a link, an
unlink, or a replacement by a complete temporary file.
-/

namespace DataOlympus

open Lines Transition

/-- `uuid.uuid4().hex` of an entry. -/
abbrev PendingId : Type := Nat

/-- `uuid.uuid4().hex` of a claim. -/
abbrev ClaimToken : Type := Nat

inductive ProposalType where
  | memory
  | edit
  deriving DecidableEq

/-- What `enqueue` writes into an entry. -/
structure PendingProposal where
  proposalType : ProposalType
  targetPath : RelPath
  postimage : Text
  baseCommit : Text
  baseBlobSha : Option Text
  targetFileHash : Option Text
  metadata : Mapping
  enqueuedAt : Time

/-- The `claim` of a sidecar. -/
structure ClaimStamp where
  claimToken : ClaimToken
  claimedAt : Time
  deriving DecidableEq

/-- The `write_context` of a sidecar. -/
structure WriteContext where
  sessionRef : Text
  preWriteRefSha : Text
  deriving DecidableEq

/-- The `write_outcome` of a sidecar. -/
inductive WriteOutcome where
  | committed (commitSha : Text)
  | failed (reason : Text)
  | unknown (reason : Text)
  deriving DecidableEq

/-- The JSON document of an entry.  `reconcile` is the time of the last sweep that left
the claim uncertain. -/
structure PendingEntry where
  proposal : PendingProposal
  claim : Option ClaimStamp
  effectivePostimageSha256 : Option Text
  writeContext : Option WriteContext
  writeOutcome : Option WriteOutcome
  reconcile : Option Time

namespace PendingEntry

/-- The entry as it is enqueued. -/
def queued (proposal : PendingProposal) : PendingEntry :=
  ⟨proposal, none, none, none, none, none⟩

/-- `entry["target_path"]`. -/
def targetPath (entry : PendingEntry) : RelPath :=
  entry.proposal.targetPath

/-- `entry.get("claim", {}).get("claim_token")`. -/
def claimToken (entry : PendingEntry) : Option ClaimToken :=
  entry.claim.map ClaimStamp.claimToken

/-- The entry without the fields that a claim adds. -/
def stripped (entry : PendingEntry) : PendingEntry :=
  queued entry.proposal

@[simp]
theorem targetPath_queued (proposal : PendingProposal) :
    (queued proposal).targetPath = proposal.targetPath :=
  rfl

@[simp]
theorem claimToken_queued (proposal : PendingProposal) : (queued proposal).claimToken = none :=
  rfl

@[simp]
theorem targetPath_stripped (entry : PendingEntry) :
    entry.stripped.targetPath = entry.targetPath :=
  rfl

end PendingEntry

/-- Who holds a path: an entry, or a commit that goes past the queue. -/
inductive LockHolder where
  | pending (id : PendingId)
  | autoCommit (owner : Text)
  deriving DecidableEq

/-- A lock file. -/
structure LockRecord where
  holder : LockHolder
  acquiredAt : Time
  deriving DecidableEq

/-- The files under the pending root. -/
structure Disk where
  /-- `<pending_id>.json` -/
  live : PendingId → Option PendingEntry
  /-- `<pending_id>.claimed` -/
  claimed : PendingId → Option PendingEntry
  /-- `<pending_id>.restoring` -/
  restoring : PendingId → Option PendingEntry
  lock : RelPath → Option LockRecord

/-- An atomic file operation. -/
inductive FileAction where
  | linkLock (path : RelPath) (record : LockRecord)
  | unlinkLock (path : RelPath)
  | writeLive (id : PendingId) (entry : PendingEntry)
  /-- `<pending_id>.json` becomes `<pending_id>.claimed`. -/
  | renameLive (id : PendingId)
  | writeClaimed (id : PendingId) (entry : PendingEntry)
  | removeClaimed (id : PendingId)
  /-- `<pending_id>.claimed` becomes `<pending_id>.json`. -/
  | renameClaimed (id : PendingId)
  | writeRestoring (id : PendingId) (entry : PendingEntry)
  /-- `<pending_id>.restoring` becomes `<pending_id>.json`. -/
  | renameRestoring (id : PendingId)

namespace Disk

/-- A queue that was never used. -/
def empty : Disk :=
  ⟨fun _ => none, fun _ => none, fun _ => none, fun _ => none⟩

/-- One file operation.  A rename of a missing file, and a link onto an existing one,
change nothing. -/
def apply (disk : Disk) : FileAction → Disk
  | .linkLock path record =>
      { disk with
        lock := Function.update disk.lock path ((disk.lock path).or (some record)) }
  | .unlinkLock path => { disk with lock := Function.update disk.lock path none }
  | .writeLive id entry => { disk with live := Function.update disk.live id (some entry) }
  | .renameLive id =>
      { disk with
        live := Function.update disk.live id none
        claimed := Function.update disk.claimed id ((disk.live id).or (disk.claimed id)) }
  | .writeClaimed id entry =>
      { disk with claimed := Function.update disk.claimed id (some entry) }
  | .removeClaimed id => { disk with claimed := Function.update disk.claimed id none }
  | .renameClaimed id =>
      { disk with
        live := Function.update disk.live id ((disk.claimed id).or (disk.live id))
        claimed := Function.update disk.claimed id none }
  | .writeRestoring id entry =>
      { disk with restoring := Function.update disk.restoring id (some entry) }
  | .renameRestoring id =>
      { disk with
        live := Function.update disk.live id ((disk.restoring id).or (disk.live id))
        restoring := Function.update disk.restoring id none }

/-- An entry is on disk under one of its two names. -/
def Holds (disk : Disk) (id : PendingId) (entry : PendingEntry) : Prop :=
  disk.live id = some entry ∨ disk.claimed id = some entry

/-- The lock of a path names an entry. -/
def LockNames (disk : Disk) (path : RelPath) (id : PendingId) : Prop :=
  ∃ acquiredAt, disk.lock path = some ⟨.pending id, acquiredAt⟩

end Disk

/-- Why an operation of the queue raises. -/
inductive PendingError where
  | pathLockBusy
  | pendingNotFound
  | claimFenced
  deriving DecidableEq

/-- The file operations to perform, or the exception raised before the first of them. -/
abbrev FilePlan : Type := Except PendingError (List FileAction)

namespace Disk

/-- `_acquire_lock(target_path, pending_id)`. -/
def acquireLock (disk : Disk) (path : RelPath) (record : LockRecord) : FilePlan :=
  match disk.lock path with
  | some _ => .error .pathLockBusy
  | none => .ok [.linkLock path record]

/-- `_release_lock(target_path, expected_acquired_at=...)`. -/
def releaseLock (disk : Disk) (path : RelPath) (expectedAcquiredAt : Time) :
    List FileAction :=
  match disk.lock path with
  | some record => if record.acquiredAt = expectedAcquiredAt then [.unlinkLock path] else []
  | none => []

/-- `_release_lock_owned_by(target_path, pending_id)`. -/
def releaseLockOwnedBy (disk : Disk) (path : RelPath) (id : PendingId) : List FileAction :=
  match disk.lock path with
  | some record => if record.holder = .pending id then [.unlinkLock path] else []
  | none => []

/-- `enqueue(...)`, with the fresh id. -/
def enqueue (disk : Disk) (id : PendingId) (proposal : PendingProposal) (acquiredAt : Time) :
    FilePlan :=
  (disk.acquireLock proposal.targetPath ⟨.pending id, acquiredAt⟩).map fun acquire =>
    acquire ++ [.writeLive id (.queued proposal)]

/-- `enqueue(...)` where the entry cannot be written: the lock is released again. -/
def enqueueUnwritten (disk : Disk) (id : PendingId) (path : RelPath) (acquiredAt : Time) :
    FilePlan :=
  (disk.acquireLock path ⟨.pending id, acquiredAt⟩).map fun acquire =>
    acquire ++ [.unlinkLock path]

/-- The entry that `_claim` writes. -/
def stamp (entry : PendingEntry) (token : ClaimToken) (claimedAt : Time) : PendingEntry :=
  { entry with claim := some ⟨token, claimedAt⟩ }

/-- `_claim(pending_id)`, with the fresh token. -/
def claim (disk : Disk) (id : PendingId) (token : ClaimToken) (claimedAt : Time) :
    FilePlan :=
  match disk.live id with
  | none => .error .pendingNotFound
  | some entry => .ok [.renameLive id, .writeClaimed id (stamp entry token claimedAt)]

/-- `_finish_claim(pending_id, target_path)`. -/
def finishClaim (disk : Disk) (id : PendingId) (path : RelPath) : List FileAction :=
  .removeClaimed id :: disk.releaseLockOwnedBy path id

/-- `approve(pending_id)`, and `reject(pending_id)`: claim and finish. -/
def consume (disk : Disk) (id : PendingId) (token : ClaimToken) (claimedAt : Time) :
    FilePlan :=
  match disk.live id with
  | none => .error .pendingNotFound
  | some entry =>
      (disk.claim id token claimedAt).map fun claimed =>
        claimed ++ disk.finishClaim id entry.targetPath

/-- `claim_for_resolve(pending_id)`, with the digest of the edited text. -/
def claimForResolve (disk : Disk) (id : PendingId) (token : ClaimToken) (claimedAt : Time)
    (editedSha256 : Option Text) : FilePlan :=
  match disk.live id, editedSha256 with
  | some entry, some digest =>
      (disk.claim id token claimedAt).map fun claimed =>
        claimed ++ [.writeClaimed id
          { stamp entry token claimedAt with effectivePostimageSha256 := some digest }]
  | _, _ => disk.claim id token claimedAt

/-- `_read_claim(pending_id)` and `_check_token(entry, claim_token)`; a call without a
token is not fenced. -/
def checkToken (disk : Disk) (id : PendingId) (token : Option ClaimToken) :
    Except PendingError PendingEntry :=
  match disk.claimed id with
  | none => .error .claimFenced
  | some entry =>
      if token = none ∨ token = entry.claimToken then .ok entry else .error .claimFenced

/-- `record_write_context(pending_id)`. -/
def recordWriteContext (disk : Disk) (id : PendingId) (token : Option ClaimToken)
    (context : WriteContext) : FilePlan :=
  (disk.checkToken id token).map fun entry =>
    [.writeClaimed id { entry with writeContext := some context }]

/-- `record_outcome(pending_id)`. -/
def recordOutcome (disk : Disk) (id : PendingId) (token : Option ClaimToken)
    (outcome : WriteOutcome) : FilePlan :=
  (disk.checkToken id token).map fun entry =>
    [.writeClaimed id { entry with writeOutcome := some outcome }]

/-- `finalize_resolve(pending_id, target_path)`; without a token the claim is not even
read. -/
def finalizeResolve (disk : Disk) (id : PendingId) (path : RelPath)
    (token : Option ClaimToken) : FilePlan :=
  match token with
  | none => .ok (disk.finishClaim id path)
  | some _ => (disk.checkToken id token).map fun _ => disk.finishClaim id path

/-- `restore_resolve(pending_id)`. -/
def restoreResolve (disk : Disk) (id : PendingId) (token : Option ClaimToken) : FilePlan :=
  match token with
  | none => .ok [.renameClaimed id]
  | some _ =>
      (disk.checkToken id token).map fun entry =>
        [.writeRestoring id entry.stripped, .renameRestoring id, .removeClaimed id]

/-- The record of a claim that a sweep finds old enough to look at. -/
def dueClaim (disk : Disk) (id : PendingId) (minAge now : Time) : Option PendingEntry :=
  (disk.claimed id).filter fun entry =>
    decide (minAge ≤ now - (entry.claim.map ClaimStamp.claimedAt).getD 0)

/-- `_reconcile_one(pending_id)`, within the sweep of `reconcile_claims`.  `found` is the
answer of the commit search; a search that is absent or raises answers nothing. -/
def reconcileOne (disk : Disk) (id : PendingId) (minAge now : Time) (found : Option Bool) :
    FilePlan :=
  match disk.dueClaim id minAge now with
  | none => .ok []
  | some entry =>
      match entry.writeOutcome with
      | some (.committed _) => disk.finalizeResolve id entry.targetPath entry.claimToken
      | some (.failed _) => disk.restoreResolve id entry.claimToken
      | _ =>
          if found = some true then
            disk.finalizeResolve id entry.targetPath entry.claimToken
          else .ok [.writeClaimed id { entry with reconcile := some now }]

/-- `gc_orphan_locks` at one lock file. -/
def gcOrphanLock (disk : Disk) (path : RelPath) : List FileAction :=
  match disk.lock path with
  | some ⟨.pending holder, _⟩ =>
      if (disk.live holder).isSome ∨ (disk.claimed holder).isSome then []
      else [.unlinkLock path]
  | _ => []

/-- `reclaim_stale_auto_commit_locks` at one lock file. -/
def reclaimStaleAutoCommitLock (disk : Disk) (path : RelPath) (maxAge now : Time) :
    List FileAction :=
  match disk.lock path with
  | some ⟨.autoCommit _, acquiredAt⟩ =>
      if now - acquiredAt ≤ maxAge then [] else disk.releaseLock path acquiredAt
  | _ => []

theorem acquireLock_eq_ok_iff {disk : Disk} {path : RelPath} {record : LockRecord}
    {actions : List FileAction} :
    disk.acquireLock path record = .ok actions ↔
      disk.lock path = none ∧ actions = [.linkLock path record] := by
  unfold acquireLock
  cases disk.lock path with
  | none => simp [eq_comm]
  | some held => simp

theorem mem_releaseLock_iff {disk : Disk} {path : RelPath} {expectedAcquiredAt : Time}
    {action : FileAction} :
    action ∈ disk.releaseLock path expectedAcquiredAt ↔
      action = .unlinkLock path ∧
        ∃ holder, disk.lock path = some ⟨holder, expectedAcquiredAt⟩ := by
  unfold releaseLock
  cases held : disk.lock path with
  | none => simp
  | some record =>
      rcases record with ⟨holder, acquiredAt⟩
      by_cases same : acquiredAt = expectedAcquiredAt
      · simp [same]
      · simp [same]

/-- The lock of a path is removed only where it names the entry. -/
theorem releaseLockOwnedBy_cases (disk : Disk) (path : RelPath) (id : PendingId) :
    disk.LockNames path id ∧ disk.releaseLockOwnedBy path id = [.unlinkLock path] ∨
      ¬ disk.LockNames path id ∧ disk.releaseLockOwnedBy path id = [] := by
  unfold releaseLockOwnedBy LockNames
  cases held : disk.lock path with
  | none => simp
  | some record =>
      rcases record with ⟨holder, acquiredAt⟩
      by_cases same : holder = .pending id
      · simp [same]
      · simp [same]

theorem enqueue_eq_ok_iff {disk : Disk} {id : PendingId} {proposal : PendingProposal}
    {acquiredAt : Time} {actions : List FileAction} :
    disk.enqueue id proposal acquiredAt = .ok actions ↔
      disk.lock proposal.targetPath = none ∧
        actions = [.linkLock proposal.targetPath ⟨.pending id, acquiredAt⟩,
          .writeLive id (.queued proposal)] := by
  rw [enqueue, Except.map_eq_ok_iff]
  simp only [acquireLock_eq_ok_iff]
  constructor
  · rintro ⟨acquire, ⟨free, rfl⟩, rfl⟩
    exact ⟨free, rfl⟩
  · rintro ⟨free, rfl⟩
    exact ⟨_, ⟨free, rfl⟩, rfl⟩

theorem enqueueUnwritten_eq_ok_iff {disk : Disk} {id : PendingId} {path : RelPath}
    {acquiredAt : Time} {actions : List FileAction} :
    disk.enqueueUnwritten id path acquiredAt = .ok actions ↔
      disk.lock path = none ∧
        actions = [.linkLock path ⟨.pending id, acquiredAt⟩, .unlinkLock path] := by
  rw [enqueueUnwritten, Except.map_eq_ok_iff]
  simp only [acquireLock_eq_ok_iff]
  constructor
  · rintro ⟨acquire, ⟨free, rfl⟩, rfl⟩
    exact ⟨free, rfl⟩
  · rintro ⟨free, rfl⟩
    exact ⟨_, ⟨free, rfl⟩, rfl⟩

theorem consume_eq_ok_iff {disk : Disk} {id : PendingId} {token : ClaimToken}
    {claimedAt : Time} {actions : List FileAction} :
    disk.consume id token claimedAt = .ok actions ↔
      ∃ entry, disk.live id = some entry ∧
        actions = .renameLive id :: .writeClaimed id (stamp entry token claimedAt) ::
          .removeClaimed id :: disk.releaseLockOwnedBy entry.targetPath id := by
  unfold consume claim
  cases disk.live id with
  | none => simp
  | some entry => simp [Except.map, finishClaim, eq_comm]

/-- A claim stamps the entry, and then adds the digest of an edit. -/
theorem claimForResolve_eq_ok_iff {disk : Disk} {id : PendingId} {token : ClaimToken}
    {claimedAt : Time} {editedSha256 : Option Text} {actions : List FileAction} :
    disk.claimForResolve id token claimedAt editedSha256 = .ok actions ↔
      ∃ entry, disk.live id = some entry ∧
        actions = .renameLive id :: .writeClaimed id (stamp entry token claimedAt) ::
          editedSha256.toList.map fun digest => .writeClaimed id
            { stamp entry token claimedAt with effectivePostimageSha256 := some digest } := by
  unfold claimForResolve claim
  cases disk.live id with
  | none => simp
  | some entry =>
      cases editedSha256 with
      | none => simp [eq_comm]
      | some digest => simp [Except.map, eq_comm]

theorem checkToken_eq_ok_iff {disk : Disk} {id : PendingId} {token : Option ClaimToken}
    {entry : PendingEntry} :
    disk.checkToken id token = .ok entry ↔
      disk.claimed id = some entry ∧ (token = none ∨ token = entry.claimToken) := by
  unfold checkToken
  cases disk.claimed id with
  | none => simp
  | some found =>
      by_cases passes : token = none ∨ token = found.claimToken
      · simp only [if_pos passes, Except.ok.injEq, Option.some.injEq]
        constructor
        · rintro rfl
          exact ⟨rfl, passes⟩
        · exact fun same => same.1
      · simp only [if_neg passes, reduceCtorEq, Option.some.injEq, false_iff, not_and]
        rintro rfl
        exact passes

theorem recordWriteContext_eq_ok_iff {disk : Disk} {id : PendingId}
    {token : Option ClaimToken} {context : WriteContext} {actions : List FileAction} :
    disk.recordWriteContext id token context = .ok actions ↔
      ∃ entry, disk.checkToken id token = .ok entry ∧
        actions = [.writeClaimed id { entry with writeContext := some context }] := by
  rw [recordWriteContext, Except.map_eq_ok_iff]
  simp only [eq_comm]

theorem recordOutcome_eq_ok_iff {disk : Disk} {id : PendingId}
    {token : Option ClaimToken} {outcome : WriteOutcome} {actions : List FileAction} :
    disk.recordOutcome id token outcome = .ok actions ↔
      ∃ entry, disk.checkToken id token = .ok entry ∧
        actions = [.writeClaimed id { entry with writeOutcome := some outcome }] := by
  rw [recordOutcome, Except.map_eq_ok_iff]
  simp only [eq_comm]

/-- The caller of a completion is the holder of the claim on disk, or gives no token. -/
def PassesFence (disk : Disk) (id : PendingId) (token : Option ClaimToken) : Prop :=
  token = none ∨ ∃ entry, disk.claimed id = some entry ∧ token = entry.claimToken

theorem finalizeResolve_eq_ok_iff {disk : Disk} {id : PendingId} {path : RelPath}
    {token : Option ClaimToken} {actions : List FileAction} :
    disk.finalizeResolve id path token = .ok actions ↔
      disk.PassesFence id token ∧
        actions = .removeClaimed id :: disk.releaseLockOwnedBy path id := by
  cases token with
  | none => simp [finalizeResolve, PassesFence, finishClaim, eq_comm]
  | some token =>
      simp only [finalizeResolve, Except.map_eq_ok_iff, checkToken_eq_ok_iff, PassesFence,
        finishClaim, reduceCtorEq, false_or, exists_and_right, @eq_comm _ actions]

/-- An unfenced restore renames; a fenced one writes the entry anew. -/
theorem restoreResolve_eq_ok_iff {disk : Disk} {id : PendingId}
    {token : Option ClaimToken} {actions : List FileAction} :
    disk.restoreResolve id token = .ok actions ↔
      token = none ∧ actions = [.renameClaimed id] ∨
        ∃ entry, token ≠ none ∧ disk.claimed id = some entry ∧ token = entry.claimToken ∧
          actions = [.writeRestoring id entry.stripped, .renameRestoring id,
            .removeClaimed id] := by
  cases token with
  | none => simp [restoreResolve, eq_comm]
  | some token =>
      simp only [restoreResolve, Except.map_eq_ok_iff, checkToken_eq_ok_iff, reduceCtorEq,
        false_or, false_and, ne_eq, not_false_eq_true, true_and, and_assoc,
        @eq_comm _ actions]

/-- What a sweep knows of a claim: its write is recorded as committed, or its outcome is
open and the search finds the commit. -/
def evident (entry : PendingEntry) (found : Option Bool) : Bool :=
  match entry.writeOutcome with
  | some (.committed _) => true
  | some (.failed _) => false
  | _ => decide (found = some true)

/-- A sweep leaves a claim alone, finalizes it on evidence, restores a recorded failure
or marks the claim uncertain. -/
theorem reconcileOne_cases {disk : Disk} {id : PendingId} {minAge now : Time}
    {found : Option Bool} {actions : List FileAction}
    (swept : disk.reconcileOne id minAge now found = .ok actions) :
    actions = [] ∨
      ∃ entry, disk.dueClaim id minAge now = some entry ∧
        (evident entry found ∧
            disk.finalizeResolve id entry.targetPath entry.claimToken = .ok actions ∨
          (∃ reason, entry.writeOutcome = some (.failed reason)) ∧
            disk.restoreResolve id entry.claimToken = .ok actions ∨
          actions = [.writeClaimed id { entry with reconcile := some now }]) := by
  unfold reconcileOne at swept
  cases due : disk.dueClaim id minAge now with
  | none =>
      simp only [due] at swept
      cases swept
      exact .inl rfl
  | some entry =>
      right
      use entry, rfl
      simp only [due] at swept
      unfold evident
      cases outcome : entry.writeOutcome with
      | none =>
          simp only [outcome] at swept ⊢
          by_cases located : found = some true
          · rw [if_pos located] at swept
            exact .inl ⟨decide_eq_true located, swept⟩
          · rw [if_neg located] at swept
            cases swept
            exact .inr (.inr rfl)
      | some recorded =>
          cases recorded with
          | committed commitSha =>
              simp only [outcome] at swept ⊢
              exact .inl ⟨trivial, swept⟩
          | failed reason =>
              simp only [outcome] at swept ⊢
              exact .inr (.inl ⟨⟨reason, rfl⟩, swept⟩)
          | unknown reason =>
              simp only [outcome] at swept ⊢
              by_cases located : found = some true
              · rw [if_pos located] at swept
                exact .inl ⟨decide_eq_true located, swept⟩
              · rw [if_neg located] at swept
                cases swept
                exact .inr (.inr rfl)

theorem reconcileOne_of_evident {disk : Disk} {id : PendingId} {minAge now : Time}
    {found : Option Bool} {entry : PendingEntry}
    (due : disk.dueClaim id minAge now = some entry) (known : evident entry found) :
    disk.reconcileOne id minAge now found =
      disk.finalizeResolve id entry.targetPath entry.claimToken := by
  unfold evident at known
  unfold reconcileOne
  cases outcome : entry.writeOutcome with
  | none =>
      simp only [outcome, decide_eq_true_eq] at known
      simp [due, outcome, known]
  | some recorded =>
      cases recorded with
      | committed commitSha => simp [due, outcome]
      | failed reason => simp [outcome] at known
      | unknown reason =>
          simp only [outcome, decide_eq_true_eq] at known
          simp [due, outcome, known]

theorem claimed_of_dueClaim {disk : Disk} {id : PendingId} {minAge now : Time}
    {entry : PendingEntry} (due : disk.dueClaim id minAge now = some entry) :
    disk.claimed id = some entry :=
  (Option.filter_eq_some_iff.mp due).1

/-- An entry is on disk under some name. -/
theorem holds_iff_isSome {disk : Disk} {id : PendingId} :
    (∃ entry, disk.Holds id entry) ↔ (disk.live id).isSome ∨ (disk.claimed id).isSome := by
  simp only [Holds, exists_or, Option.isSome_iff_exists]

theorem mem_gcOrphanLock_iff {disk : Disk} {path : RelPath} {action : FileAction} :
    action ∈ disk.gcOrphanLock path ↔
      action = .unlinkLock path ∧
        ∃ id, disk.LockNames path id ∧ ∀ entry, ¬ disk.Holds id entry := by
  unfold gcOrphanLock LockNames
  simp only [← not_exists, holds_iff_isSome]
  cases held : disk.lock path with
  | none => simp
  | some record =>
      rcases record with ⟨holder, acquiredAt⟩
      cases holder with
      | autoCommit owner => simp
      | pending id =>
          constructor
          · intro member
            by_cases present : (disk.live id).isSome ∨ (disk.claimed id).isSome
            · simp only [if_pos present, List.not_mem_nil] at member
            · simp only [if_neg present, List.mem_singleton] at member
              exact ⟨member, id, ⟨acquiredAt, rfl⟩, present⟩
          · rintro ⟨rfl, other, ⟨since, same⟩, absent⟩
            cases same
            simp only [if_neg absent, List.mem_singleton]

theorem mem_reclaimStaleAutoCommitLock_iff {disk : Disk} {path : RelPath}
    {maxAge now : Time} {action : FileAction} :
    action ∈ disk.reclaimStaleAutoCommitLock path maxAge now ↔
      action = .unlinkLock path ∧
        ∃ owner acquiredAt, disk.lock path = some ⟨.autoCommit owner, acquiredAt⟩ ∧
          maxAge < now - acquiredAt := by
  unfold reclaimStaleAutoCommitLock
  cases held : disk.lock path with
  | none => simp
  | some record =>
      rcases record with ⟨holder, acquiredAt⟩
      cases holder with
      | pending id => simp
      | autoCommit owner =>
          by_cases young : now - acquiredAt ≤ maxAge
          · simp [young]
          · simp [releaseLock, held, young, lt_of_not_ge young]

end Disk

end DataOlympus
