import DataOlympus.Pending.Queue

/-!
# Who removes a lock

Acquisition times grow and ids are fresh, so an acquisition time names one lock, and an
entry acquires one lock in its life.  An operation therefore removes only the lock it is
releasing.
-/

namespace DataOlympus

open Lines Transition

/-- Every lock on disk was acquired once, at its own time and, for an entry, under its own
id. -/
structure QueueState.Ledger (state : QueueState) : Prop where
  recorded : ∀ path record, state.disk.lock path = some record →
    (path, record) ∈ state.acquired
  timed : ∀ lock ∈ state.acquired, ∀ other ∈ state.acquired,
    lock.2.acquiredAt = other.2.acquiredAt → lock = other
  once : ∀ lock ∈ state.acquired, ∀ other ∈ state.acquired, ∀ id,
    lock.2.holder = .pending id → other.2.holder = .pending id → lock = other

namespace QueueState.Ledger

variable {state : QueueState}

theorem start : QueueState.start.Ledger := by
  constructor
  · intro path record held
    cases held
  · intro lock member
    cases member
  · intro lock member
    cases member

theorem linkLock (ledger : state.Ledger) {path : RelPath} {record : LockRecord}
    (fresh : state.NewLock record) : (state.apply (.linkLock path record)).Ledger := by
  constructor
  · intro other found held
    simp only [QueueState.disk_apply, Disk.apply] at held
    rw [acquired_apply, List.mem_append]
    by_cases same : other = path
    · subst same
      rw [Function.update_self, Option.or_eq_some_iff] at held
      rcases held with before | ⟨-, linked⟩
      · exact .inr (ledger.recorded other found before)
      · cases linked
        exact .inl List.mem_cons_self
    · rw [Function.update_of_ne same] at held
      exact .inr (ledger.recorded other found held)
  · intro lock member other otherMember same
    rcases List.mem_cons.mp member with rfl | before
    · rcases List.mem_cons.mp otherMember with rfl | otherBefore
      · rfl
      · exact absurd same.symm (fresh other otherBefore).1.ne
    · rcases List.mem_cons.mp otherMember with rfl | otherBefore
      · exact absurd same (fresh lock before).1.ne
      · exact ledger.timed lock before other otherBefore same
  · intro lock member other otherMember id holds otherHolds
    rcases List.mem_cons.mp member with rfl | before
    · rcases List.mem_cons.mp otherMember with rfl | otherBefore
      · rfl
      · exact absurd otherHolds ((fresh other otherBefore).2 id holds)
    · rcases List.mem_cons.mp otherMember with rfl | otherBefore
      · exact absurd holds ((fresh lock before).2 id otherHolds)
      · exact ledger.once lock before other otherBefore id holds otherHolds

theorem apply (ledger : state.Ledger) {action : FileAction}
    (noLink : action.lockLinked = none) : (state.apply action).Ledger := by
  have locks : ∀ path record, (state.disk.apply action).lock path = some record →
      state.disk.lock path = some record := by
    intro path record held
    cases action with
    | linkLock other taken => cases noLink
    | unlinkLock other =>
        simp only [Disk.apply] at held
        by_cases same : path = other
        · rw [same, Function.update_self] at held
          cases held
        · rwa [Function.update_of_ne same] at held
    | _ => exact held
  have acquired : (state.apply action).acquired = state.acquired := by
    rw [acquired_apply, noLink]
    rfl
  constructor
  · intro path record held
    rw [acquired]
    exact ledger.recorded path record (locks path record held)
  · rw [acquired]
    exact ledger.timed
  · rw [acquired]
    exact ledger.once

theorem keeps_of_linksNothing (ledger : state.Ledger) {actions : List FileAction}
    (noLink : LinksNothing actions) :
    Keeps QueueState.apply QueueState.Ledger state actions := by
  induction actions generalizing state with
  | nil => exact trivial
  | cons action rest ih =>
      have after := ledger.apply (noLink action List.mem_cons_self)
      exact ⟨after, ih after fun other later => noLink other (List.mem_cons_of_mem _ later)⟩

theorem preserved : QueueStep.Preserves QueueState.Ledger := by
  apply System.interrupted_preserves
  intro state attempt admissible ledger
  rcases attempt.operation.plan_links state.disk with
    noLink | ⟨path, record, rest, taken, -, planned, others⟩
  · exact ledger.keeps_of_linksNothing noLink
  · rw [planned]
    have after : (state.apply (.linkLock path record)).Ledger :=
      ledger.linkLock (admissible.lock_new _ taken)
    exact ⟨after, after.keeps_of_linksNothing others⟩

end QueueState.Ledger

/-- The lock is the one that the operation is releasing: the one that `path_lock`
acquired, the only one that the entry ever acquired, one whose entry is gone, or a commit
lock past its age. -/
def QueueOp.Entitled (state : QueueState) (path : RelPath) (record : LockRecord) :
    QueueOp → Prop
  | unlockPath released owner acquiredAt =>
      path = released ∧ record = ⟨.autoCommit owner, acquiredAt⟩
  | approve id _ _ | reject id _ _ | finalizeResolve id _ _ | reconcileOne id _ _ _ =>
      record.holder = .pending id ∧
        ∀ lock ∈ state.acquired, lock.2.holder = .pending id → lock = (path, record)
  | gcOrphanLock swept =>
      path = swept ∧ ∃ id, record.holder = .pending id ∧
        ∀ entry, ¬ state.disk.Holds id entry
  | reclaimStaleAutoCommitLock swept maxAge now =>
      path = swept ∧ (∃ owner, record.holder = .autoCommit owner) ∧
        maxAge < now - record.acquiredAt
  | _ => False

namespace QueueState.Ledger

variable {state : QueueState} {path : RelPath} {record : LockRecord}

/-- A lock released in the name of an entry is the only one that the entry acquired. -/
theorem releaseLockOwnedBy (ledger : state.Ledger)
    (held : state.disk.lock path = some record) {released : RelPath} {id : PendingId}
    (member : FileAction.unlinkLock path ∈ state.disk.releaseLockOwnedBy released id) :
    record.holder = .pending id ∧
      ∀ lock ∈ state.acquired, lock.2.holder = .pending id → lock = (path, record) := by
  rcases state.disk.releaseLockOwnedBy_cases released id with
    ⟨⟨acquiredAt, named⟩, planned⟩ | ⟨-, planned⟩
  · rw [planned, List.mem_singleton] at member
    cases member
    cases held.symm.trans named
    constructor
    · rfl
    · intro lock acquired holds
      exact ledger.once lock acquired _ (ledger.recorded _ _ held) id holds rfl
  · rw [planned] at member
    cases member

theorem finalizeResolve (ledger : state.Ledger)
    (held : state.disk.lock path = some record) {released : RelPath} {id : PendingId}
    {token : Option ClaimToken} {actions : List FileAction}
    (planned : state.disk.finalizeResolve id released token = .ok actions)
    (member : FileAction.unlinkLock path ∈ actions) :
    record.holder = .pending id ∧
      ∀ lock ∈ state.acquired, lock.2.holder = .pending id → lock = (path, record) := by
  rcases Disk.finalizeResolve_eq_ok_iff.mp planned with ⟨-, rfl⟩
  rw [List.mem_cons] at member
  rcases member with impossible | released
  · cases impossible
  · exact ledger.releaseLockOwnedBy held released

theorem not_mem_restoreResolve {disk : Disk} {id : PendingId} {token : Option ClaimToken}
    {actions : List FileAction} (planned : disk.restoreResolve id token = .ok actions) :
    FileAction.unlinkLock path ∉ actions := by
  rcases Disk.restoreResolve_eq_ok_iff.mp planned with ⟨-, rfl⟩ | ⟨entry, -, -, -, rfl⟩
  · simp
  · simp

/-- An operation unlinks only the lock it is releasing. -/
theorem entitled (ledger : state.Ledger) {op : QueueOp} (admissible : op.Admissible state)
    (held : state.disk.lock path = some record)
    (planned : FileAction.unlinkLock path ∈ op.plan state.disk) :
    op.Entitled state path record := by
  rcases FilePlan.mem_actions_iff.mp planned with ⟨actions, ran, member⟩
  cases op with
  | enqueue id proposal now =>
      rcases Disk.enqueue_eq_ok_iff.mp ran with ⟨-, rfl⟩
      simp at member
  | enqueueUnwritten id target now =>
      rcases Disk.enqueueUnwritten_eq_ok_iff.mp ran with ⟨free, rfl⟩
      simp only [List.mem_cons, reduceCtorEq, FileAction.unlinkLock.injEq, List.not_mem_nil,
        or_false, false_or] at member
      rw [member, free] at held
      cases held
  | lockPath target owner now =>
      rcases Disk.acquireLock_eq_ok_iff.mp ran with ⟨-, rfl⟩
      simp at member
  | unlockPath target owner acquiredAt =>
      cases ran
      rcases Disk.mem_releaseLock_iff.mp member with ⟨same, holder, found⟩
      cases same
      cases held.symm.trans found
      have mine := admissible.held _ _ _ rfl
      have one := ledger.timed _ (ledger.recorded _ _ held) _ mine rfl
      exact ⟨rfl, congrArg Prod.snd one⟩
  | approve id token now =>
      rcases Disk.consume_eq_ok_iff.mp ran with ⟨entry, -, rfl⟩
      simp only [List.mem_cons, reduceCtorEq, false_or] at member
      exact ledger.releaseLockOwnedBy held member
  | reject id token now =>
      rcases Disk.consume_eq_ok_iff.mp ran with ⟨entry, -, rfl⟩
      simp only [List.mem_cons, reduceCtorEq, false_or] at member
      exact ledger.releaseLockOwnedBy held member
  | claimForResolve id token now editedSha256 =>
      rcases Disk.claimForResolve_eq_ok_iff.mp ran with ⟨entry, -, rfl⟩
      simp at member
  | recordWriteContext id token context =>
      rcases Disk.recordWriteContext_eq_ok_iff.mp ran with ⟨entry, -, rfl⟩
      simp at member
  | recordOutcome id token outcome =>
      rcases Disk.recordOutcome_eq_ok_iff.mp ran with ⟨entry, -, rfl⟩
      simp at member
  | finalizeResolve id target token => exact ledger.finalizeResolve held ran member
  | restoreResolve id token => exact absurd member (not_mem_restoreResolve ran)
  | reconcileOne id minAge now found =>
      rcases Disk.reconcileOne_cases ran with
        rfl | ⟨entry, -, ⟨-, finalized⟩ | ⟨-, restored⟩ | rfl⟩
      · cases member
      · exact ledger.finalizeResolve held finalized member
      · exact absurd member (not_mem_restoreResolve restored)
      · simp at member
  | gcOrphanLock target =>
      cases ran
      rcases Disk.mem_gcOrphanLock_iff.mp member with ⟨same, id, ⟨acquiredAt, named⟩, absent⟩
      cases same
      cases held.symm.trans named
      exact ⟨rfl, id, rfl, absent⟩
  | reclaimStaleAutoCommitLock target maxAge now =>
      cases ran
      rcases Disk.mem_reclaimStaleAutoCommitLock_iff.mp member with
        ⟨same, owner, acquiredAt, found, old⟩
      cases same
      cases held.symm.trans found
      exact ⟨rfl, ⟨owner, rfl⟩, old⟩

/-- A step removes only the lock that its operation is releasing. -/
theorem removed (ledger : state.Ledger) {attempt : Attempt QueueOp FileAction}
    {target : QueueState} (step : QueueStep state attempt target)
    (held : state.disk.lock path = some record)
    (gone : target.disk.lock path ≠ some record) :
    attempt.operation.Entitled state path record := by
  rcases step with ⟨admissible, cut, rfl⟩
  apply ledger.entitled admissible held
  by_contra kept
  apply gone
  rw [disk_execute]
  apply Disk.lock_execute _ held
  intro performed
  exact kept (cut.subset performed)

end QueueState.Ledger

end DataOlympus
