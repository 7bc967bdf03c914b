import DataOlympus.Control.Except
import DataOlympus.Pending.Disk

/-!
# Runs of the pending queue

The operations of the queue run one at a time, under the write serializer, and each may
be cut short between two file operations.  Beside the files, a state remembers every lock
that was ever linked and every claim token that was ever written.
-/

namespace DataOlympus

open Lines Transition

/-- The file operations of a plan; an exception leaves none. -/
def FilePlan.actions : FilePlan → List FileAction
  | .ok actions => actions
  | .error _ => []

theorem FilePlan.mem_actions_iff {plan : FilePlan} {action : FileAction} :
    action ∈ plan.actions ↔ ∃ actions, plan = .ok actions ∧ action ∈ actions := by
  cases plan with
  | error raised => simp [actions]
  | ok actions => simp [FilePlan.actions]

/-- An operation of the queue, with what it draws from the clock, from `uuid4` and from
the commit search.  The sweeps are given by what they do at one entry or one lock. -/
inductive QueueOp where
  | enqueue (id : PendingId) (proposal : PendingProposal) (now : Time)
  | enqueueUnwritten (id : PendingId) (path : RelPath) (now : Time)
  /-- `path_lock` is entered. -/
  | lockPath (path : RelPath) (owner : Text) (now : Time)
  /-- `path_lock` is left. -/
  | unlockPath (path : RelPath) (owner : Text) (acquiredAt : Time)
  | approve (id : PendingId) (token : ClaimToken) (now : Time)
  | reject (id : PendingId) (token : ClaimToken) (now : Time)
  | claimForResolve (id : PendingId) (token : ClaimToken) (now : Time)
      (editedSha256 : Option Text)
  | recordWriteContext (id : PendingId) (token : Option ClaimToken) (context : WriteContext)
  | recordOutcome (id : PendingId) (token : Option ClaimToken) (outcome : WriteOutcome)
  | finalizeResolve (id : PendingId) (path : RelPath) (token : Option ClaimToken)
  | restoreResolve (id : PendingId) (token : Option ClaimToken)
  | reconcileOne (id : PendingId) (minAge now : Time) (found : Option Bool)
  | gcOrphanLock (path : RelPath)
  | reclaimStaleAutoCommitLock (path : RelPath) (maxAge now : Time)

namespace QueueOp

/-- What the operation does on the files it finds. -/
def run (disk : Disk) : QueueOp → FilePlan
  | enqueue id proposal now => disk.enqueue id proposal now
  | enqueueUnwritten id path now => disk.enqueueUnwritten id path now
  | lockPath path owner now => disk.acquireLock path ⟨.autoCommit owner, now⟩
  | unlockPath path _ acquiredAt => .ok (disk.releaseLock path acquiredAt)
  | approve id token now => disk.consume id token now
  | reject id token now => disk.consume id token now
  | claimForResolve id token now editedSha256 =>
      disk.claimForResolve id token now editedSha256
  | recordWriteContext id token context => disk.recordWriteContext id token context
  | recordOutcome id token outcome => disk.recordOutcome id token outcome
  | finalizeResolve id path token => disk.finalizeResolve id path token
  | restoreResolve id token => disk.restoreResolve id token
  | reconcileOne id minAge now found => disk.reconcileOne id minAge now found
  | gcOrphanLock path => .ok (disk.gcOrphanLock path)
  | reclaimStaleAutoCommitLock path maxAge now =>
      .ok (disk.reclaimStaleAutoCommitLock path maxAge now)

/-- The file operations to perform. -/
def plan (disk : Disk) (op : QueueOp) : List FileAction :=
  (op.run disk).actions

/-- The lock that the operation takes. -/
def lockTaken : QueueOp → Option (RelPath × LockRecord)
  | enqueue id proposal now => some (proposal.targetPath, ⟨.pending id, now⟩)
  | enqueueUnwritten id path now => some (path, ⟨.pending id, now⟩)
  | lockPath path owner now => some (path, ⟨.autoCommit owner, now⟩)
  | _ => none

/-- The claim token that the operation mints. -/
def tokenMinted : QueueOp → Option ClaimToken
  | approve _ token _ => some token
  | reject _ token _ => some token
  | claimForResolve _ token _ _ => some token
  | _ => none

end QueueOp

/-- The files, with every lock that was ever linked and every token ever written. -/
structure QueueState where
  disk : Disk
  acquired : List (RelPath × LockRecord)
  tokens : List ClaimToken

namespace FileAction

/-- The lock that the action links. -/
def lockLinked : FileAction → Option (RelPath × LockRecord)
  | linkLock path record => some (path, record)
  | _ => none

/-- The token of the claim that the action writes. -/
def tokenWritten : FileAction → Option ClaimToken
  | writeClaimed _ entry => entry.claimToken
  | _ => none

end FileAction

namespace QueueState

/-- A queue that was never used. -/
def start : QueueState :=
  ⟨.empty, [], []⟩

/-- One file operation. -/
def apply (state : QueueState) (action : FileAction) : QueueState :=
  ⟨state.disk.apply action, action.lockLinked.toList ++ state.acquired,
    action.tokenWritten.toList ++ state.tokens⟩

@[simp]
theorem disk_apply (state : QueueState) (action : FileAction) :
    (state.apply action).disk = state.disk.apply action :=
  rfl

@[simp]
theorem acquired_apply (state : QueueState) (action : FileAction) :
    (state.apply action).acquired = action.lockLinked.toList ++ state.acquired :=
  rfl

@[simp]
theorem tokens_apply (state : QueueState) (action : FileAction) :
    (state.apply action).tokens = action.tokenWritten.toList ++ state.tokens :=
  rfl

@[simp]
theorem disk_execute (state : QueueState) (actions : List FileAction) :
    (execute apply state actions).disk = execute Disk.apply state.disk actions := by
  induction actions generalizing state with
  | nil => rfl
  | cons action rest ih => simp [ih]

/-- What was acquired and written is never forgotten. -/
theorem subset_execute (state : QueueState) (actions : List FileAction) :
    state.acquired ⊆ (execute apply state actions).acquired ∧
      state.tokens ⊆ (execute apply state actions).tokens := by
  induction actions generalizing state with
  | nil => exact ⟨List.Subset.refl _, List.Subset.refl _⟩
  | cons action rest ih =>
      rcases ih (state.apply action) with ⟨acquired, tokens⟩
      constructor
      · exact List.Subset.trans (List.subset_append_right _ _) acquired
      · exact List.Subset.trans (List.subset_append_right _ _) tokens

/-- A new lock is later than all before, and a new entry has a new id. -/
def NewLock (state : QueueState) (record : LockRecord) : Prop :=
  ∀ lock ∈ state.acquired, lock.2.acquiredAt < record.acquiredAt ∧
    ∀ id, record.holder = .pending id → lock.2.holder ≠ .pending id

end QueueState

namespace QueueOp

/-- Locks and tokens are new, and `path_lock` releases what it acquired. -/
structure Admissible (state : QueueState) (op : QueueOp) : Prop where
  lock_new : ∀ lock, op.lockTaken = some lock → state.NewLock lock.2
  token_new : ∀ token, op.tokenMinted = some token → token ∉ state.tokens
  held : ∀ path owner acquiredAt, op = unlockPath path owner acquiredAt →
    (path, ⟨.autoCommit owner, acquiredAt⟩) ∈ state.acquired

end QueueOp

/-- One operation, possibly cut short. -/
def QueueStep : System QueueState (Attempt QueueOp FileAction) :=
  (System.interrupted QueueState.apply fun state op => op.plan state.disk).restrict
    fun state attempt => attempt.operation.Admissible state

namespace QueueOp

/-- An operation that takes no lock, mints no token and leaves no `path_lock` is always
admissible. -/
theorem admissible_of_none {state : QueueState} {op : QueueOp} (noLock : op.lockTaken = none)
    (noToken : op.tokenMinted = none)
    (notLeft : ∀ path owner acquiredAt, op ≠ unlockPath path owner acquiredAt) :
    op.Admissible state := by
  constructor
  · intro lock taken
    rw [noLock] at taken
    cases taken
  · intro token minted
    rw [noToken] at minted
    cases minted
  · intro path owner acquiredAt same
    exact absurd same (notLeft path owner acquiredAt)

theorem admissible_enqueue {state : QueueState} {id : PendingId}
    {proposal : PendingProposal} {now : Time}
    (fresh : state.NewLock ⟨.pending id, now⟩) :
    (enqueue id proposal now).Admissible state := by
  constructor
  · rintro lock taken
    cases taken
    exact fresh
  · intro token minted
    cases minted
  · intro path owner acquiredAt same
    cases same

theorem admissible_claimForResolve {state : QueueState} {id : PendingId}
    {token : ClaimToken} {now : Time} {editedSha256 : Option Text}
    (fresh : token ∉ state.tokens) :
    (claimForResolve id token now editedSha256).Admissible state := by
  constructor
  · intro lock taken
    cases taken
  · intro minted same
    cases same
    exact fresh
  · intro path owner acquiredAt same
    cases same

end QueueOp

/-- The first lock is new. -/
theorem newLock_start (record : LockRecord) : QueueState.start.NewLock record := by
  intro lock member
  cases member

/-- A proposed edit of a governed document. -/
def ruleProposal : PendingProposal :=
  ⟨.edit, rulePath, "Never ask.".toList, "HEAD".toList, none, none, [], 0⟩

namespace FilePlan

/-- A rule for the plan of an operation: nothing happens where it raises. -/
theorem actions_cases {motive : List FileAction → Prop} (plan : FilePlan)
    (raised : motive []) (planned : ∀ actions, plan = .ok actions → motive actions) :
    motive plan.actions := by
  cases plan with
  | error error => exact raised
  | ok actions => exact planned actions rfl

end FilePlan

/-- The lock file of a path stays where no action unlinks it. -/
theorem Disk.lock_execute {path : RelPath} {record : LockRecord} {actions : List FileAction}
    (kept : FileAction.unlinkLock path ∉ actions) {disk : Disk}
    (held : disk.lock path = some record) :
    (execute Disk.apply disk actions).lock path = some record := by
  induction actions generalizing disk with
  | nil => exact held
  | cons action rest ih =>
      rw [List.mem_cons, not_or] at kept
      apply ih kept.2
      cases action with
      | linkLock other taken =>
          by_cases same : path = other
          · subst same
            simp [Disk.apply, held]
          · simp [Disk.apply, Function.update_of_ne same, held]
      | unlinkLock other =>
          have different : path ≠ other := by
            rintro rfl
            exact kept.1 rfl
          simp [Disk.apply, Function.update_of_ne different, held]
      | _ => exact held

/-- No action of the list links a lock. -/
def LinksNothing (actions : List FileAction) : Prop :=
  ∀ action ∈ actions, action.lockLinked = none

theorem linksNothing_releaseLockOwnedBy (disk : Disk) (path : RelPath) (id : PendingId) :
    LinksNothing (disk.releaseLockOwnedBy path id) := by
  intro action member
  rcases disk.releaseLockOwnedBy_cases path id with ⟨-, planned⟩ | ⟨-, planned⟩
  · rw [planned, List.mem_singleton] at member
    cases member
    rfl
  · rw [planned] at member
    cases member

theorem linksNothing_cons {action : FileAction} {rest : List FileAction}
    (first : action.lockLinked = none) (others : LinksNothing rest) :
    LinksNothing (action :: rest) := by
  intro other member
  rcases List.mem_cons.mp member with rfl | later
  · exact first
  · exact others other later

theorem linksNothing_nil : LinksNothing [] := by
  intro action member
  cases member

theorem linksNothing_finalizeResolve {disk : Disk} {id : PendingId} {path : RelPath}
    {token : Option ClaimToken} {actions : List FileAction}
    (planned : disk.finalizeResolve id path token = .ok actions) : LinksNothing actions := by
  rcases Disk.finalizeResolve_eq_ok_iff.mp planned with ⟨-, rfl⟩
  exact linksNothing_cons rfl (linksNothing_releaseLockOwnedBy disk path id)

theorem linksNothing_restoreResolve {disk : Disk} {id : PendingId}
    {token : Option ClaimToken} {actions : List FileAction}
    (planned : disk.restoreResolve id token = .ok actions) : LinksNothing actions := by
  rcases Disk.restoreResolve_eq_ok_iff.mp planned with ⟨-, rfl⟩ | ⟨entry, -, -, -, rfl⟩
  · exact linksNothing_cons rfl linksNothing_nil
  · exact linksNothing_cons rfl (linksNothing_cons rfl (linksNothing_cons rfl linksNothing_nil))

/-- Only an operation that takes a lock links one, and it does so first, on a free path. -/
theorem QueueOp.plan_links (disk : Disk) (op : QueueOp) :
    LinksNothing (op.plan disk) ∨
      ∃ path record rest, op.lockTaken = some (path, record) ∧ disk.lock path = none ∧
        op.plan disk = .linkLock path record :: rest ∧ LinksNothing rest := by
  unfold plan
  apply FilePlan.actions_cases (motive := fun actions => LinksNothing actions ∨
    ∃ path record rest, op.lockTaken = some (path, record) ∧ disk.lock path = none ∧
      actions = .linkLock path record :: rest ∧ LinksNothing rest)
  · exact .inl linksNothing_nil
  · intro actions ran
    cases op with
    | enqueue id proposal now =>
        rcases Disk.enqueue_eq_ok_iff.mp ran with ⟨free, rfl⟩
        exact .inr ⟨_, _, _, rfl, free, rfl, linksNothing_cons rfl linksNothing_nil⟩
    | enqueueUnwritten id path now =>
        rcases Disk.enqueueUnwritten_eq_ok_iff.mp ran with ⟨free, rfl⟩
        exact .inr ⟨_, _, _, rfl, free, rfl, linksNothing_cons rfl linksNothing_nil⟩
    | lockPath path owner now =>
        rcases Disk.acquireLock_eq_ok_iff.mp ran with ⟨free, rfl⟩
        exact .inr ⟨_, _, _, rfl, free, rfl, linksNothing_nil⟩
    | unlockPath path owner acquiredAt =>
        cases ran
        left
        intro action member
        rw [(Disk.mem_releaseLock_iff.mp member).1]
        rfl
    | approve id token now =>
        rcases Disk.consume_eq_ok_iff.mp ran with ⟨entry, -, rfl⟩
        exact .inl (linksNothing_cons rfl (linksNothing_cons rfl (linksNothing_cons rfl
          (linksNothing_releaseLockOwnedBy disk entry.targetPath id))))
    | reject id token now =>
        rcases Disk.consume_eq_ok_iff.mp ran with ⟨entry, -, rfl⟩
        exact .inl (linksNothing_cons rfl (linksNothing_cons rfl (linksNothing_cons rfl
          (linksNothing_releaseLockOwnedBy disk entry.targetPath id))))
    | claimForResolve id token now editedSha256 =>
        rcases Disk.claimForResolve_eq_ok_iff.mp ran with ⟨entry, -, rfl⟩
        left
        apply linksNothing_cons rfl (linksNothing_cons rfl _)
        intro action member
        rcases List.mem_map.mp member with ⟨digest, -, rfl⟩
        rfl
    | recordWriteContext id token context =>
        rcases Disk.recordWriteContext_eq_ok_iff.mp ran with ⟨entry, -, rfl⟩
        exact .inl (linksNothing_cons rfl linksNothing_nil)
    | recordOutcome id token outcome =>
        rcases Disk.recordOutcome_eq_ok_iff.mp ran with ⟨entry, -, rfl⟩
        exact .inl (linksNothing_cons rfl linksNothing_nil)
    | finalizeResolve id path token => exact .inl (linksNothing_finalizeResolve ran)
    | restoreResolve id token => exact .inl (linksNothing_restoreResolve ran)
    | reconcileOne id minAge now found =>
        left
        rcases Disk.reconcileOne_cases ran with
          rfl | ⟨entry, -, ⟨-, finalized⟩ | ⟨-, restored⟩ | rfl⟩
        · exact linksNothing_nil
        · exact linksNothing_finalizeResolve finalized
        · exact linksNothing_restoreResolve restored
        · exact linksNothing_cons rfl linksNothing_nil
    | gcOrphanLock path =>
        cases ran
        left
        intro action member
        rw [(Disk.mem_gcOrphanLock_iff.mp member).1]
        rfl
    | reclaimStaleAutoCommitLock path maxAge now =>
        cases ran
        left
        intro action member
        rw [(Disk.mem_reclaimStaleAutoCommitLock_iff.mp member).1]
        rfl

end DataOlympus
