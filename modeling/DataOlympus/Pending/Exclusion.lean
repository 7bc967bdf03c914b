import DataOlympus.Pending.Ledger

/-!
# One entry for a path

Every entry on disk, pending or claimed, holds the lock of its target path, hence a path
has one entry at most.  The invariant is lost in one way: `_finish_claim` releases the
lock of an entry whose `.json` is on disk beside the sidecar.  Both names are there after
a restore was cut short between the rename that publishes the entry and the removal of
the sidecar.
-/

namespace DataOlympus

open Lines Transition

namespace Disk

/-- Every entry on disk holds the lock of its path. -/
def Locked (disk : Disk) : Prop :=
  ∀ id entry, disk.Holds id entry → disk.LockNames entry.targetPath id

/-- No path has the entries of two ids. -/
def OneEntryPerPath (disk : Disk) : Prop :=
  ∀ id entry other otherEntry, disk.Holds id entry → disk.Holds other otherEntry →
    entry.targetPath = otherEntry.targetPath → id = other

theorem LockNames.unique {disk : Disk} {path : RelPath} {id other : PendingId}
    (named : disk.LockNames path id) (otherNamed : disk.LockNames path other) :
    id = other := by
  rcases named with ⟨acquiredAt, held⟩
  rcases otherNamed with ⟨otherAcquiredAt, otherHeld⟩
  cases held.symm.trans otherHeld
  rfl

namespace Locked

variable {disk : Disk}

theorem empty : Disk.empty.Locked := by
  rintro id entry (live | claimed)
  · cases live
  · cases claimed

theorem oneEntryPerPath (locked : disk.Locked) : disk.OneEntryPerPath := by
  intro id entry other otherEntry held otherHeld same
  have named := locked id entry held
  rw [same] at named
  exact named.unique (locked other otherEntry otherHeld)

/-- Locks that stay protect the entries that stay, and new ones whose path they name. -/
theorem of_holds {after : Disk} (locked : disk.Locked) (sameLocks : after.lock = disk.lock)
    (held : ∀ id entry, after.Holds id entry →
      disk.Holds id entry ∨ disk.LockNames entry.targetPath id) : after.Locked := by
  intro id entry found
  unfold LockNames
  rw [sameLocks]
  rcases held id entry found with before | named
  · exact locked id entry before
  · exact named

theorem linkLock (locked : disk.Locked) {path : RelPath} {record : LockRecord}
    (free : disk.lock path = none) : (disk.apply (.linkLock path record)).Locked := by
  intro id entry held
  rcases locked id entry held with ⟨acquiredAt, named⟩
  have different : entry.targetPath ≠ path := by
    intro same
    rw [same, free] at named
    cases named
  use acquiredAt
  simpa only [apply, Function.update_of_ne different] using named

theorem unlinkLock (locked : disk.Locked) {path : RelPath}
    (unused : ∀ id entry, disk.Holds id entry → entry.targetPath ≠ path) :
    (disk.apply (.unlinkLock path)).Locked := by
  intro id entry held
  rcases locked id entry held with ⟨acquiredAt, named⟩
  use acquiredAt
  simpa only [apply, Function.update_of_ne (unused id entry held)] using named

theorem writeLive (locked : disk.Locked) {id : PendingId} {entry : PendingEntry}
    (named : disk.LockNames entry.targetPath id) :
    (disk.apply (.writeLive id entry)).Locked := by
  apply locked.of_holds
  · rfl
  rintro other found (live | claimed)
  · by_cases same : other = id
    · subst same
      simp only [apply, Function.update_self] at live
      cases live
      exact .inr named
    · simp only [apply, Function.update_of_ne same] at live
      exact .inl (.inl live)
  · exact .inl (.inr claimed)

theorem renameLive (locked : disk.Locked) (id : PendingId) :
    (disk.apply (.renameLive id)).Locked := by
  apply locked.of_holds
  · rfl
  rintro other found (live | claimed)
  · by_cases same : other = id
    · subst same
      simp [apply] at live
    · simp only [apply, Function.update_of_ne same] at live
      exact .inl (.inl live)
  · by_cases same : other = id
    · subst same
      simp only [apply, Function.update_self, Option.or_eq_some_iff] at claimed
      rcases claimed with live | ⟨-, claimed⟩
      · exact .inl (.inl live)
      · exact .inl (.inr claimed)
    · simp only [apply, Function.update_of_ne same] at claimed
      exact .inl (.inr claimed)

theorem writeClaimed (locked : disk.Locked) {id : PendingId} {entry : PendingEntry}
    (named : disk.LockNames entry.targetPath id) :
    (disk.apply (.writeClaimed id entry)).Locked := by
  apply locked.of_holds
  · rfl
  rintro other found (live | claimed)
  · exact .inl (.inl live)
  · by_cases same : other = id
    · subst same
      simp only [apply, Function.update_self] at claimed
      cases claimed
      exact .inr named
    · simp only [apply, Function.update_of_ne same] at claimed
      exact .inl (.inr claimed)

theorem removeClaimed (locked : disk.Locked) (id : PendingId) :
    (disk.apply (.removeClaimed id)).Locked := by
  apply locked.of_holds
  · rfl
  rintro other found (live | claimed)
  · exact .inl (.inl live)
  · by_cases same : other = id
    · subst same
      simp [apply] at claimed
    · simp only [apply, Function.update_of_ne same] at claimed
      exact .inl (.inr claimed)

theorem renameClaimed (locked : disk.Locked) (id : PendingId) :
    (disk.apply (.renameClaimed id)).Locked := by
  apply locked.of_holds
  · rfl
  rintro other found (live | claimed)
  · by_cases same : other = id
    · subst same
      simp only [apply, Function.update_self, Option.or_eq_some_iff] at live
      rcases live with claimed | ⟨-, live⟩
      · exact .inl (.inr claimed)
      · exact .inl (.inl live)
    · simp only [apply, Function.update_of_ne same] at live
      exact .inl (.inl live)
  · by_cases same : other = id
    · subst same
      simp [apply] at claimed
    · simp only [apply, Function.update_of_ne same] at claimed
      exact .inl (.inr claimed)

/-- The entry is rewritten through its scratch sidecar. -/
theorem republish (locked : disk.Locked) {id : PendingId} {entry : PendingEntry}
    (named : disk.LockNames entry.targetPath id) :
    ((disk.apply (.writeRestoring id entry)).apply (.renameRestoring id)).Locked := by
  apply locked.of_holds
  · rfl
  rintro other found (live | claimed)
  · by_cases same : other = id
    · subst same
      simp only [apply, Function.update_self, Option.some_or] at live
      cases live
      exact .inr named
    · simp only [apply, Function.update_of_ne same] at live
      exact .inl (.inl live)
  · exact .inl (.inr claimed)

/-- A path whose lock names no entry on disk is the path of none. -/
theorem unused (locked : disk.Locked) {path : RelPath}
    (orphaned : ∀ id, disk.LockNames path id → ∀ entry, ¬ disk.Holds id entry) :
    ∀ id entry, disk.Holds id entry → entry.targetPath ≠ path := by
  intro id entry held same
  have named := locked id entry held
  rw [same] at named
  exact orphaned id named entry held

theorem keeps_unlinks (locked : disk.Locked) {actions : List FileAction}
    (unlinks : ∀ action ∈ actions, ∃ path, action = .unlinkLock path ∧
      ∀ id entry, disk.Holds id entry → entry.targetPath ≠ path) :
    Keeps apply Locked disk actions := by
  induction actions generalizing disk with
  | nil => exact trivial
  | cons action rest ih =>
      rcases unlinks action List.mem_cons_self with ⟨path, rfl, unused⟩
      have unlinked := locked.unlinkLock unused
      exact ⟨unlinked, ih unlinked fun other later => unlinks other (List.mem_cons_of_mem _ later)⟩

/-- A claim is finished where its entry is not on disk under its first name. -/
theorem keeps_finishClaim (locked : disk.Locked) {id : PendingId} {path : RelPath}
    (notLive : ∀ entry, disk.live id = some entry → entry.targetPath ≠ path) :
    Keeps apply Locked disk (.removeClaimed id :: disk.releaseLockOwnedBy path id) := by
  have removed := locked.removeClaimed id
  rcases disk.releaseLockOwnedBy_cases path id with ⟨named, planned⟩ | ⟨-, planned⟩
  · rw [planned]
    refine ⟨removed, removed.unlinkLock ?_, trivial⟩
    intro other entry held same
    have otherNamed := removed other entry held
    rw [same] at otherNamed
    cases otherNamed.unique named
    rcases held with live | claimed
    · exact notLive entry live same
    · simp [apply] at claimed
  · rw [planned]
    exact ⟨removed, trivial⟩

theorem keeps_finalizeResolve (locked : disk.Locked) {id : PendingId} {path : RelPath}
    {token : Option ClaimToken} {actions : List FileAction}
    (planned : disk.finalizeResolve id path token = .ok actions)
    (notLive : ∀ entry, disk.live id = some entry → entry.targetPath ≠ path) :
    Keeps apply Locked disk actions := by
  rcases finalizeResolve_eq_ok_iff.mp planned with ⟨-, rfl⟩
  exact locked.keeps_finishClaim notLive

theorem keeps_restoreResolve (locked : disk.Locked) {id : PendingId}
    {token : Option ClaimToken} {actions : List FileAction}
    (planned : disk.restoreResolve id token = .ok actions) :
    Keeps apply Locked disk actions := by
  rcases restoreResolve_eq_ok_iff.mp planned with ⟨-, rfl⟩ | ⟨entry, -, claimed, -, rfl⟩
  · exact ⟨locked.renameClaimed id, trivial⟩
  · have published : ((disk.apply (.writeRestoring id entry.stripped)).apply
        (.renameRestoring id)).Locked := locked.republish (locked id entry (.inr claimed))
    exact ⟨locked, published, published.removeClaimed id, trivial⟩

/-- A claim keeps the lock. -/
theorem claimed (locked : disk.Locked) {id : PendingId} {entry written : PendingEntry}
    (live : disk.live id = some entry) (samePath : written.targetPath = entry.targetPath) :
    ((disk.apply (.renameLive id)).apply (.writeClaimed id written)).Locked := by
  apply (locked.renameLive id).writeClaimed
  rw [samePath]
  exact locked id entry (.inl live)

theorem keeps_consume (locked : disk.Locked) {id : PendingId} {token : ClaimToken}
    {claimedAt : Time} {actions : List FileAction}
    (planned : disk.consume id token claimedAt = .ok actions) :
    Keeps apply Locked disk actions := by
  rcases consume_eq_ok_iff.mp planned with ⟨entry, live, rfl⟩
  have stamped : ((disk.apply (.renameLive id)).apply
      (.writeClaimed id (stamp entry token claimedAt))).Locked := locked.claimed live rfl
  refine ⟨locked.renameLive id, stamped, stamped.keeps_finishClaim ?_⟩
  intro other found
  simp [apply] at found

theorem keeps_claimForResolve (locked : disk.Locked) {id : PendingId} {token : ClaimToken}
    {claimedAt : Time} {editedSha256 : Option Text} {actions : List FileAction}
    (planned : disk.claimForResolve id token claimedAt editedSha256 = .ok actions) :
    Keeps apply Locked disk actions := by
  rcases claimForResolve_eq_ok_iff.mp planned with ⟨entry, live, rfl⟩
  have stamped : ((disk.apply (.renameLive id)).apply
      (.writeClaimed id (stamp entry token claimedAt))).Locked := locked.claimed live rfl
  refine ⟨locked.renameLive id, stamped, ?_⟩
  cases editedSha256 with
  | none => exact trivial
  | some digest => exact ⟨stamped.writeClaimed (locked id entry (.inl live)), trivial⟩

end Locked

end Disk

namespace QueueOp

/-- The operation finalizes the claim of an entry: it is called by the holder of the
claim, or a sweep has evidence of the commit. -/
def Finalizes (disk : Disk) (id : PendingId) (path : RelPath) : QueueOp → Prop
  | finalizeResolve finished target token =>
      finished = id ∧ target = path ∧ disk.PassesFence id token
  | reconcileOne swept minAge now found =>
      swept = id ∧ ∃ entry, disk.dueClaim id minAge now = some entry ∧
        entry.targetPath = path ∧ Disk.evident entry found
  | _ => False

/-- No claim is finalized while its entry is on disk under its first name too. -/
def Settled (disk : Disk) (op : QueueOp) : Prop :=
  ∀ id path, op.Finalizes disk id path →
    ∀ entry, disk.live id = some entry → entry.targetPath ≠ path

theorem settled_of_noFinalize {disk : Disk} {op : QueueOp}
    (noFinalize : ∀ id path, ¬ op.Finalizes disk id path) : op.Settled disk := by
  intro id path finalizes
  exact absurd finalizes (noFinalize id path)

/-- An operation that finalizes no pending entry keeps every entry locked. -/
theorem keeps_locked {state : QueueState} {op : QueueOp} (ledger : state.Ledger)
    (locked : state.disk.Locked) (admissible : op.Admissible state)
    (settled : op.Settled state.disk) :
    Keeps Disk.apply Disk.Locked state.disk (op.plan state.disk) := by
  unfold plan
  apply FilePlan.actions_cases (motive := Keeps Disk.apply Disk.Locked state.disk)
  · exact trivial
  · intro actions ran
    cases op with
    | enqueue id proposal now =>
        rcases Disk.enqueue_eq_ok_iff.mp ran with ⟨free, rfl⟩
        have linked : (state.disk.apply
            (.linkLock proposal.targetPath ⟨.pending id, now⟩)).Locked := locked.linkLock free
        refine ⟨linked, linked.writeLive ⟨now, ?_⟩, trivial⟩
        simp [Disk.apply, free]
    | enqueueUnwritten id path now =>
        rcases Disk.enqueueUnwritten_eq_ok_iff.mp ran with ⟨free, rfl⟩
        have linked : (state.disk.apply (.linkLock path ⟨.pending id, now⟩)).Locked :=
          locked.linkLock free
        refine ⟨linked, linked.unlinkLock ?_, trivial⟩
        -- the path was free, so no entry has it
        rintro other entry held rfl
        rcases locked other entry held with ⟨acquiredAt, named⟩
        rw [free] at named
        cases named
    | lockPath path owner now =>
        rcases Disk.acquireLock_eq_ok_iff.mp ran with ⟨free, rfl⟩
        exact ⟨locked.linkLock free, trivial⟩
    | unlockPath path owner acquiredAt =>
        cases ran
        apply locked.keeps_unlinks
        intro action member
        rcases Disk.mem_releaseLock_iff.mp member with ⟨same, holder, held⟩
        use path, same
        apply locked.unused
        rintro id ⟨since, named⟩
        -- the acquisition time names one lock, and that is no entry's
        cases held.symm.trans named
        have mine := admissible.held _ _ _ rfl
        cases ledger.timed _ (ledger.recorded _ _ held) _ mine rfl
    | approve id token now => exact locked.keeps_consume ran
    | reject id token now => exact locked.keeps_consume ran
    | claimForResolve id token now editedSha256 => exact locked.keeps_claimForResolve ran
    | recordWriteContext id token context =>
        rcases Disk.recordWriteContext_eq_ok_iff.mp ran with ⟨entry, owned, rfl⟩
        have claimed := (Disk.checkToken_eq_ok_iff.mp owned).1
        exact ⟨locked.writeClaimed (locked id entry (.inr claimed)), trivial⟩
    | recordOutcome id token outcome =>
        rcases Disk.recordOutcome_eq_ok_iff.mp ran with ⟨entry, owned, rfl⟩
        have claimed := (Disk.checkToken_eq_ok_iff.mp owned).1
        exact ⟨locked.writeClaimed (locked id entry (.inr claimed)), trivial⟩
    | finalizeResolve id path token =>
        have passes := (Disk.finalizeResolve_eq_ok_iff.mp ran).1
        exact locked.keeps_finalizeResolve ran (settled id path ⟨rfl, rfl, passes⟩)
    | restoreResolve id token => exact locked.keeps_restoreResolve ran
    | reconcileOne id minAge now found =>
        rcases Disk.reconcileOne_cases ran with
          rfl | ⟨entry, due, ⟨evident, finalized⟩ | ⟨-, restored⟩ | rfl⟩
        · exact trivial
        · exact locked.keeps_finalizeResolve finalized
            (settled id entry.targetPath ⟨rfl, entry, due, rfl, evident⟩)
        · exact locked.keeps_restoreResolve restored
        · have claimed := Disk.claimed_of_dueClaim due
          exact ⟨locked.writeClaimed (locked id entry (.inr claimed)), trivial⟩
    | gcOrphanLock path =>
        cases ran
        apply locked.keeps_unlinks
        intro action member
        rcases Disk.mem_gcOrphanLock_iff.mp member with ⟨same, id, named, absent⟩
        use path, same
        apply locked.unused
        intro other otherNamed
        cases named.unique otherNamed
        exact absent
    | reclaimStaleAutoCommitLock path maxAge now =>
        cases ran
        apply locked.keeps_unlinks
        intro action member
        rcases Disk.mem_reclaimStaleAutoCommitLock_iff.mp member with
          ⟨same, owner, acquiredAt, held, -⟩
        use path, same
        apply locked.unused
        rintro id ⟨since, named⟩
        cases held.symm.trans named

theorem plan_of_finalizes {disk : Disk} {op : QueueOp} {id : PendingId} {path : RelPath}
    (finalizes : op.Finalizes disk id path) :
    op.plan disk = .removeClaimed id :: disk.releaseLockOwnedBy path id := by
  have planned : op.run disk = .ok (.removeClaimed id :: disk.releaseLockOwnedBy path id) := by
    cases op with
    | finalizeResolve finished target token =>
        rcases finalizes with ⟨rfl, rfl, passes⟩
        exact Disk.finalizeResolve_eq_ok_iff.mpr ⟨passes, rfl⟩
    | reconcileOne swept minAge now found =>
        rcases finalizes with ⟨rfl, entry, due, rfl, evident⟩
        have passes : disk.PassesFence swept entry.claimToken :=
          .inr ⟨entry, Disk.claimed_of_dueClaim due, rfl⟩
        exact (Disk.reconcileOne_of_evident due evident).trans
          (Disk.finalizeResolve_eq_ok_iff.mpr ⟨passes, rfl⟩)
    | _ => cases finalizes
  unfold plan
  rw [planned]
  rfl

/-- An operation that is not cut short keeps every entry locked exactly if it finalizes
no pending entry. -/
theorem locked_iff_settled {state : QueueState} {op : QueueOp} (ledger : state.Ledger)
    (locked : state.disk.Locked) (admissible : op.Admissible state) :
    (execute Disk.apply state.disk (op.plan state.disk)).Locked ↔
      op.Settled state.disk := by
  constructor
  · intro after id path finalizes entry live samePath
    have named := locked id entry (.inl live)
    rw [samePath] at named
    have released : state.disk.releaseLockOwnedBy path id = [.unlinkLock path] := by
      rcases state.disk.releaseLockOwnedBy_cases path id with ⟨-, planned⟩ | ⟨other, -⟩
      · exact planned
      · exact absurd named other
    rw [plan_of_finalizes finalizes, released] at after
    rcases after id entry (.inl live) with ⟨acquiredAt, held⟩
    rw [samePath] at held
    simp [Disk.apply] at held
  · intro settled
    exact (keeps_locked ledger locked admissible settled).interrupted locked
      (List.prefix_refl _)

end QueueOp

/-- Per-path mutual exclusion, in one state. -/
structure QueueState.Exclusive (state : QueueState) : Prop where
  one_entry : state.disk.OneEntryPerPath
  locked : state.disk.Locked
  removes_own : ∀ attempt target, QueueStep state attempt target →
    ∀ path record, state.disk.lock path = some record →
      target.disk.lock path ≠ some record →
        attempt.operation.Entitled state path record

/-- The operations that finalize no claim of an entry that is pending again. -/
def SettledStep : System QueueState (Attempt QueueOp FileAction) :=
  QueueStep.restrict fun state attempt => attempt.operation.Settled state.disk

theorem SettledStep.preserves :
    SettledStep.Preserves fun state => state.Ledger ∧ state.disk.Locked := by
  rintro state attempt target ⟨settled, step⟩ ⟨ledger, locked⟩
  constructor
  · exact QueueState.Ledger.preserved state attempt target step ledger
  · rcases step with ⟨admissible, cut, rfl⟩
    rw [QueueState.disk_execute]
    exact (QueueOp.keeps_locked ledger locked admissible settled).interrupted locked cut

/-- While no claim is finalized whose entry is pending again, every path has one entry at
most, every entry is locked, and no operation removes a lock of another. -/
theorem settled_runs_are_exclusive {attempts : List (Attempt QueueOp FileAction)}
    {state : QueueState} (run : Run SettledStep .start attempts state) :
    state.Exclusive := by
  have invariant : state.Ledger ∧ state.disk.Locked :=
    Run.invariant SettledStep.preserves run ⟨.start, .empty⟩
  constructor
  · exact invariant.2.oneEntryPerPath
  · exact invariant.2
  · intro attempt target step path record held gone
    exact invariant.1.removed step held gone

/-- The state after the first `count` file operations of an operation. -/
def QueueState.after (state : QueueState) (op : QueueOp) (count : Nat) : QueueState :=
  execute QueueState.apply state ((op.plan state.disk).take count)

/-- What is performed of an operation that is cut short. -/
def QueueOp.cut (state : QueueState) (op : QueueOp) (count : Nat) :
    Attempt QueueOp FileAction :=
  ⟨op, (op.plan state.disk).take count⟩

theorem QueueStep.cut (state : QueueState) (op : QueueOp) (count : Nat)
    (admissible : op.Admissible state) :
    QueueStep state (op.cut state count) (state.after op count) :=
  ⟨admissible, List.take_prefix _ _, rfl⟩

/-- The edit is enqueued. -/
def enqueuedState : QueueState :=
  QueueState.start.after (.enqueue 1 ruleProposal 1) 2

/-- A resolver has claimed the entry. -/
def claimedState : QueueState :=
  enqueuedState.after (.claimForResolve 1 1 2 none) 2

/-- The restore of the claim was cut short before it removed the sidecar. -/
def republishedState : QueueState :=
  claimedState.after (.restoreResolve 1 (some 1)) 2

/-- A sweep has found a commit and finalized the sidecar. -/
def strandedState : QueueState :=
  republishedState.after (.reconcileOne 1 0 3 (some true)) 2

theorem enqueue_ruleProposal :
    QueueStep .start (QueueOp.cut .start (.enqueue 1 ruleProposal 1) 2) enqueuedState :=
  QueueStep.cut _ _ 2 (QueueOp.admissible_enqueue (newLock_start _))

theorem claim_ruleProposal :
    QueueStep enqueuedState (QueueOp.cut enqueuedState (.claimForResolve 1 1 2 none) 2)
      claimedState :=
  QueueStep.cut _ _ 2 (QueueOp.admissible_claimForResolve (by decide))

/-- An entry that is enqueued and claimed holds its path. -/
theorem claimed_entry_is_exclusive : claimedState.Exclusive := by
  have enqueuing : (QueueOp.enqueue 1 ruleProposal 1).Settled QueueState.start.disk :=
    QueueOp.settled_of_noFinalize fun _ _ => not_false
  have claiming : (QueueOp.claimForResolve 1 1 2 none).Settled enqueuedState.disk :=
    QueueOp.settled_of_noFinalize fun _ _ => not_false
  exact settled_runs_are_exclusive
    ((Run.single ⟨enqueuing, enqueue_ruleProposal⟩).tail ⟨claiming, claim_ruleProposal⟩)

/-- The stranded entry has no lock, and a second entry for its path is accepted. -/
theorem stranded_entry_is_joined :
    ¬ ∀ attempts state, Run QueueStep .start attempts state → state.Exclusive := by
  intro exclusive
  have restored := QueueStep.cut claimedState (.restoreResolve 1 (some 1)) 2
    (QueueOp.admissible_of_none rfl rfl nofun)
  have finalized := QueueStep.cut republishedState (.reconcileOne 1 0 3 (some true)) 2
    (QueueOp.admissible_of_none rfl rfl nofun)
  have fresh : strandedState.NewLock ⟨.pending 2, 4⟩ := by
    intro lock member
    rcases List.mem_singleton.mp member with rfl
    exact ⟨by decide, by simp⟩
  have joined := QueueStep.cut strandedState (.enqueue 2 ruleProposal 4) 2
    (QueueOp.admissible_enqueue fresh)
  have run := ((((Run.single enqueue_ruleProposal).tail claim_ruleProposal).tail
    restored).tail finalized).tail joined
  have same : (1 : PendingId) = 2 :=
    (exclusive _ _ run).one_entry 1 _ 2 _ (.inl rfl) (.inl rfl) rfl
  exact absurd same (by decide)

end DataOlympus
