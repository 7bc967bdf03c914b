import DataOlympus.Pending.Queue

/-!
# Fenced claims

Resolver threads interleave their operations with the sweeps; each operation runs to its
end under the write serializer, and every caller hands back the token of its claim.
Beside the queue, a state remembers the claims that were finalized.
-/

namespace DataOlympus

open Lines Transition

namespace QueueOp

/-- The caller of a completion hands back a token. -/
def Tokened : QueueOp → Prop
  | recordWriteContext _ token _ | recordOutcome _ token _ | finalizeResolve _ _ token
  | restoreResolve _ token => token ≠ none
  | _ => True

/-- The claim that an operation finalizes: the one of the resolver that calls
`finalize_resolve`, the one that a sweep has evidence for, or the one that `approve` and
`reject` make for themselves. -/
def claimFinalized (disk : Disk) : QueueOp → Option ClaimToken
  | finalizeResolve id _ token =>
      match disk.checkToken id token with
      | .ok entry => entry.claimToken
      | .error _ => none
  | reconcileOne id minAge now found =>
      (disk.dueClaim id minAge now).bind fun entry =>
        if Disk.evident entry found then entry.claimToken else none
  | approve id token _ | reject id token _ => (disk.live id).map fun _ => token
  | _ => none

end QueueOp

/-- The queue, with the claims that were finalized. -/
structure FencedState where
  queue : QueueState
  finalized : List ClaimToken

/-- A queue that was never used. -/
def FencedState.start : FencedState :=
  ⟨.start, []⟩

/-- The state after a whole operation. -/
def FencedState.after (state : FencedState) (op : QueueOp) : FencedState :=
  ⟨execute QueueState.apply state.queue (op.plan state.queue.disk),
    (op.claimFinalized state.queue.disk).toList ++ state.finalized⟩

/-- One whole operation. -/
inductive FencedStep : System FencedState QueueOp
  | perform (state : FencedState) (op : QueueOp)
      (admissible : op.Admissible state.queue) (tokened : op.Tokened) :
      FencedStep state op (state.after op)

/-- What an operation does to the entries and claims, with the claim it finalizes. -/
inductive ClaimEffect (before after : QueueState) (op : QueueOp) :
    Option ClaimToken → Prop
  | unchanged (live : after.disk.live = before.disk.live)
      (claimed : after.disk.claimed = before.disk.claimed) :
      ClaimEffect before after op none
  | enqueued (id : PendingId) (proposal : PendingProposal) (path : RelPath) (now : Time)
      (taken : op.lockTaken = some (path, ⟨.pending id, now⟩))
      (linked : (path, ⟨.pending id, now⟩) ∈ after.acquired)
      (live : after.disk.live =
        Function.update before.disk.live id (some (.queued proposal)))
      (claimed : after.disk.claimed = before.disk.claimed) :
      ClaimEffect before after op none
  | claimed (id : PendingId) (entry written : PendingEntry) (token : ClaimToken)
      (minted : op.tokenMinted = some token) (recorded : token ∈ after.tokens)
      (found : before.disk.live id = some entry) (stamped : written.claimToken = some token)
      (live : after.disk.live = Function.update before.disk.live id none)
      (claimed : after.disk.claimed =
        Function.update before.disk.claimed id (some written)) :
      ClaimEffect before after op none
  | rewritten (id : PendingId) (entry written : PendingEntry)
      (found : before.disk.claimed id = some entry)
      (sameClaim : written.claimToken = entry.claimToken)
      (live : after.disk.live = before.disk.live)
      (claimed : after.disk.claimed =
        Function.update before.disk.claimed id (some written)) :
      ClaimEffect before after op none
  | consumed (id : PendingId) (entry : PendingEntry) (token : ClaimToken)
      (minted : op.tokenMinted = some token) (recorded : token ∈ after.tokens)
      (found : before.disk.live id = some entry)
      (live : after.disk.live = Function.update before.disk.live id none)
      (claimed : after.disk.claimed = Function.update before.disk.claimed id none) :
      ClaimEffect before after op (some token)
  | finalized (id : PendingId) (entry : PendingEntry)
      (found : before.disk.claimed id = some entry)
      (live : after.disk.live = before.disk.live)
      (claimed : after.disk.claimed = Function.update before.disk.claimed id none) :
      ClaimEffect before after op entry.claimToken
  | restored (id : PendingId) (entry written : PendingEntry)
      (found : before.disk.claimed id = some entry)
      (live : after.disk.live = Function.update before.disk.live id (some written))
      (claimed : after.disk.claimed = Function.update before.disk.claimed id none) :
      ClaimEffect before after op none

/-- Releasing a lock touches no entry. -/
theorem execute_releaseLockOwnedBy (state : QueueState) (disk : Disk) (path : RelPath)
    (id : PendingId) :
    (execute QueueState.apply state (disk.releaseLockOwnedBy path id)).disk.live =
        state.disk.live ∧
      (execute QueueState.apply state (disk.releaseLockOwnedBy path id)).disk.claimed =
        state.disk.claimed ∧
      (execute QueueState.apply state (disk.releaseLockOwnedBy path id)).tokens =
        state.tokens := by
  rcases disk.releaseLockOwnedBy_cases path id with ⟨-, planned⟩ | ⟨-, planned⟩
  · rw [planned]
    exact ⟨rfl, rfl, rfl⟩
  · rw [planned]
    exact ⟨rfl, rfl, rfl⟩

/-- Unlinking locks touches no entry. -/
theorem execute_unlinks (state : QueueState) {actions : List FileAction}
    (unlinks : ∀ action ∈ actions, ∃ path, action = .unlinkLock path) :
    (execute QueueState.apply state actions).disk.live = state.disk.live ∧
      (execute QueueState.apply state actions).disk.claimed = state.disk.claimed := by
  induction actions generalizing state with
  | nil => exact ⟨rfl, rfl⟩
  | cons action rest ih =>
      rcases unlinks action List.mem_cons_self with ⟨path, rfl⟩
      exact ih _ fun other later => unlinks other (List.mem_cons_of_mem _ later)

namespace ClaimEffect

variable {state : QueueState}

theorem finalizeResolve {op : QueueOp} {id : PendingId} {path : RelPath} {entry : PendingEntry}
    (found : state.disk.claimed id = some entry) :
    ClaimEffect state
      (execute QueueState.apply state
        (.removeClaimed id :: state.disk.releaseLockOwnedBy path id))
      op entry.claimToken := by
  rcases execute_releaseLockOwnedBy (state.apply (.removeClaimed id)) state.disk path id with
    ⟨live, claimed, -⟩
  exact finalized id entry found live claimed

theorem restoreResolve {op : QueueOp} {id : PendingId} {token : Option ClaimToken}
    {actions : List FileAction} {entry : PendingEntry}
    (found : state.disk.claimed id = some entry)
    (planned : state.disk.restoreResolve id token = .ok actions) :
    ClaimEffect state (execute QueueState.apply state actions) op none := by
  rcases Disk.restoreResolve_eq_ok_iff.mp planned with ⟨-, rfl⟩ | ⟨other, -, -, -, rfl⟩
  · apply restored id entry entry found
    · simp [Disk.apply, found]
    · simp [Disk.apply]
  · apply restored id entry other.stripped found
    · simp [Disk.apply]
    · simp [Disk.apply]

theorem rewrite {op : QueueOp} {id : PendingId} {entry written : PendingEntry}
    (found : state.disk.claimed id = some entry)
    (sameClaim : written.claimToken = entry.claimToken) :
    ClaimEffect state (execute QueueState.apply state [.writeClaimed id written]) op none :=
  rewritten id entry written found sameClaim rfl rfl

theorem consume {op : QueueOp} {id : PendingId} {token : ClaimToken} {now : Time}
    {entry : PendingEntry} {actions : List FileAction} (minted : op.tokenMinted = some token)
    (found : state.disk.live id = some entry)
    (planned : state.disk.consume id token now = .ok actions) :
    ClaimEffect state (execute QueueState.apply state actions) op (some token) := by
  rcases Disk.consume_eq_ok_iff.mp planned with ⟨same, live, rfl⟩
  have released := execute_releaseLockOwnedBy
    (((state.apply (.renameLive id)).apply
      (.writeClaimed id (Disk.stamp same token now))).apply (.removeClaimed id))
    state.disk same.targetPath id
  apply consumed id entry token minted _ found
  · exact released.1
  · rw [execute_cons, execute_cons, execute_cons, released.2.1]
    simp [Disk.apply]
  · rw [execute_cons, execute_cons, execute_cons, released.2.2]
    simp [FileAction.tokenWritten, Disk.stamp, PendingEntry.claimToken]

theorem claimForResolve {op : QueueOp} {id : PendingId} {token : ClaimToken} {now : Time}
    {editedSha256 : Option Text} {actions : List FileAction}
    (minted : op.tokenMinted = some token)
    (planned : state.disk.claimForResolve id token now editedSha256 = .ok actions) :
    ClaimEffect state (execute QueueState.apply state actions) op none := by
  rcases Disk.claimForResolve_eq_ok_iff.mp planned with ⟨entry, live, rfl⟩
  cases editedSha256 with
  | none =>
      apply claimed id entry (Disk.stamp entry token now) token minted _ live rfl
      · simp [Disk.apply]
      · simp [Disk.apply]
      · simp [FileAction.tokenWritten, Disk.stamp, PendingEntry.claimToken]
  | some digest =>
      apply claimed id entry
        { Disk.stamp entry token now with effectivePostimageSha256 := some digest }
        token minted _ live rfl
      · simp [Disk.apply]
      · simp [Disk.apply]
      · simp [FileAction.tokenWritten, Disk.stamp, PendingEntry.claimToken]

theorem of_error {op : QueueOp} {error : PendingError}
    (raised : op.run state.disk = .error error)
    (finalizesNone : op.claimFinalized state.disk = none) :
    ClaimEffect state (execute QueueState.apply state (op.plan state.disk)) op
      (op.claimFinalized state.disk) := by
  unfold QueueOp.plan
  rw [raised, finalizesNone]
  exact unchanged rfl rfl

theorem of_ok {op : QueueOp} {actions : List FileAction} {log : Option ClaimToken}
    (planned : op.run state.disk = .ok actions)
    (finalizes : op.claimFinalized state.disk = log)
    (effect : ClaimEffect state (execute QueueState.apply state actions) op log) :
    ClaimEffect state (execute QueueState.apply state (op.plan state.disk)) op
      (op.claimFinalized state.disk) := by
  unfold QueueOp.plan
  rw [planned, finalizes]
  exact effect

theorem of_unlinks {op : QueueOp} (finalizesNone : op.claimFinalized state.disk = none)
    (unlinks : ∀ action ∈ op.plan state.disk, ∃ path, action = .unlinkLock path) :
    ClaimEffect state (execute QueueState.apply state (op.plan state.disk)) op
      (op.claimFinalized state.disk) := by
  rw [finalizesNone]
  rcases execute_unlinks state unlinks with ⟨live, claimed⟩
  exact unchanged live claimed

theorem of_consume {op : QueueOp} {id : PendingId} {token : ClaimToken} {now : Time}
    (runs : op.run state.disk = state.disk.consume id token now)
    (minted : op.tokenMinted = some token)
    (finalizes : op.claimFinalized state.disk = (state.disk.live id).map fun _ => token) :
    ClaimEffect state (execute QueueState.apply state (op.plan state.disk)) op
      (op.claimFinalized state.disk) := by
  cases live : state.disk.live id with
  | none =>
      rw [live] at finalizes
      have raised : state.disk.consume id token now = .error .pendingNotFound := by
        simp [Disk.consume, live]
      exact of_error (runs.trans raised) finalizes
  | some entry =>
      rw [live] at finalizes
      have planned : state.disk.consume id token now = .ok _ :=
        Disk.consume_eq_ok_iff.mpr ⟨entry, live, rfl⟩
      exact of_ok (runs.trans planned) finalizes (consume minted live planned)

theorem of_sweep {id : PendingId} {minAge now : Time} {found : Option Bool} :
    ClaimEffect state
      (execute QueueState.apply state
        ((QueueOp.reconcileOne id minAge now found).plan state.disk))
      (.reconcileOne id minAge now found)
      ((QueueOp.reconcileOne id minAge now found).claimFinalized state.disk) := by
  cases due : state.disk.dueClaim id minAge now with
  | none =>
      have planned : (QueueOp.reconcileOne id minAge now found).run state.disk = .ok [] := by
        simp [QueueOp.run, Disk.reconcileOne, due]
      apply of_ok planned _ (unchanged rfl rfl)
      simp [QueueOp.claimFinalized, due]
  | some entry =>
      have claimed := Disk.claimed_of_dueClaim due
      by_cases known : Disk.evident entry found = true
      · have passes : state.disk.PassesFence id entry.claimToken :=
          .inr ⟨entry, claimed, rfl⟩
        have planned : (QueueOp.reconcileOne id minAge now found).run state.disk =
            .ok (.removeClaimed id :: state.disk.releaseLockOwnedBy entry.targetPath id) :=
          (Disk.reconcileOne_of_evident due known).trans
            (Disk.finalizeResolve_eq_ok_iff.mpr ⟨passes, rfl⟩)
        apply of_ok planned _ (finalizeResolve claimed)
        simp [QueueOp.claimFinalized, due, known]
      · have finalizesNone :
            (QueueOp.reconcileOne id minAge now found).claimFinalized state.disk = none := by
          simp [QueueOp.claimFinalized, due, known]
        cases ran : (QueueOp.reconcileOne id minAge now found).run state.disk with
        | error error => exact of_error ran finalizesNone
        | ok actions =>
            apply of_ok ran finalizesNone
            rcases Disk.reconcileOne_cases ran with
              rfl | ⟨same, sameDue, ⟨sameKnown, -⟩ | ⟨-, restored⟩ | rfl⟩
            · exact unchanged rfl rfl
            · cases due.symm.trans sameDue
              exact absurd sameKnown known
            · exact restoreResolve claimed restored
            · cases due.symm.trans sameDue
              exact rewrite claimed rfl

/-- What a whole operation does to the entries and claims. -/
theorem of_plan {op : QueueOp} (tokened : op.Tokened) :
    ClaimEffect state (execute QueueState.apply state (op.plan state.disk)) op
      (op.claimFinalized state.disk) := by
  cases op with
  | enqueue id proposal now =>
      cases ran : (QueueOp.enqueue id proposal now).run state.disk with
      | error error => exact of_error ran rfl
      | ok actions =>
          apply of_ok ran rfl
          rcases Disk.enqueue_eq_ok_iff.mp ran with ⟨free, rfl⟩
          apply enqueued id proposal proposal.targetPath now rfl
          · simp [FileAction.lockLinked]
          · simp [Disk.apply]
          · simp [Disk.apply]
  | enqueueUnwritten id path now =>
      cases ran : (QueueOp.enqueueUnwritten id path now).run state.disk with
      | error error => exact of_error ran rfl
      | ok actions =>
          apply of_ok ran rfl
          rcases Disk.enqueueUnwritten_eq_ok_iff.mp ran with ⟨free, rfl⟩
          exact unchanged rfl rfl
  | lockPath path owner now =>
      cases ran : (QueueOp.lockPath path owner now).run state.disk with
      | error error => exact of_error ran rfl
      | ok actions =>
          apply of_ok ran rfl
          rcases Disk.acquireLock_eq_ok_iff.mp ran with ⟨free, rfl⟩
          exact unchanged rfl rfl
  | unlockPath path owner acquiredAt =>
      apply of_unlinks rfl
      intro action member
      exact ⟨path, (Disk.mem_releaseLock_iff.mp member).1⟩
  | approve id token now => exact of_consume rfl rfl rfl
  | reject id token now => exact of_consume rfl rfl rfl
  | claimForResolve id token now editedSha256 =>
      cases ran : (QueueOp.claimForResolve id token now editedSha256).run state.disk with
      | error error => exact of_error ran rfl
      | ok actions => exact of_ok ran rfl (claimForResolve rfl ran)
  | recordWriteContext id token context =>
      cases ran : (QueueOp.recordWriteContext id token context).run state.disk with
      | error error => exact of_error ran rfl
      | ok actions =>
          apply of_ok ran rfl
          rcases Disk.recordWriteContext_eq_ok_iff.mp ran with ⟨entry, owned, rfl⟩
          exact rewrite (Disk.checkToken_eq_ok_iff.mp owned).1 rfl
  | recordOutcome id token outcome =>
      cases ran : (QueueOp.recordOutcome id token outcome).run state.disk with
      | error error => exact of_error ran rfl
      | ok actions =>
          apply of_ok ran rfl
          rcases Disk.recordOutcome_eq_ok_iff.mp ran with ⟨entry, owned, rfl⟩
          exact rewrite (Disk.checkToken_eq_ok_iff.mp owned).1 rfl
  | finalizeResolve id path token =>
      cases token with
      | none => exact absurd rfl tokened
      | some token =>
          cases owned : state.disk.checkToken id (some token) with
          | error error =>
              have raised : (QueueOp.finalizeResolve id path (some token)).run state.disk =
                  .error error := by
                simp [QueueOp.run, Disk.finalizeResolve, owned, Except.map]
              apply of_error raised
              simp [QueueOp.claimFinalized, owned]
          | ok entry =>
              have found := (Disk.checkToken_eq_ok_iff.mp owned).1
              apply of_ok _ _ (finalizeResolve found)
              · exact path
              · simp [QueueOp.run, Disk.finalizeResolve, owned, Except.map, Disk.finishClaim]
              · simp [QueueOp.claimFinalized, owned]
  | restoreResolve id token =>
      cases ran : (QueueOp.restoreResolve id token).run state.disk with
      | error error => exact of_error ran rfl
      | ok actions =>
          apply of_ok ran rfl
          rcases Disk.restoreResolve_eq_ok_iff.mp ran with ⟨none, -⟩ | ⟨entry, -, found, -, -⟩
          · exact absurd none tokened
          · exact restoreResolve found ran
  | reconcileOne id minAge now found => exact of_sweep
  | gcOrphanLock path =>
      apply of_unlinks rfl
      intro action member
      exact ⟨path, (Disk.mem_gcOrphanLock_iff.mp member).1⟩
  | reclaimStaleAutoCommitLock path maxAge now =>
      apply of_unlinks rfl
      intro action member
      exact ⟨path, (Disk.mem_reclaimStaleAutoCommitLock_iff.mp member).1⟩

end ClaimEffect

/-- Every claim on disk has a token of its own, which was written and not finalized, and
an entry is pending or claimed, never both. -/
structure FencedState.Fenced (state : FencedState) : Prop where
  apart : ∀ id entry, state.queue.disk.claimed id = some entry →
    state.queue.disk.live id = none
  known : ∀ id entry, state.queue.disk.Holds id entry →
    ∃ lock ∈ state.queue.acquired, lock.2.holder = .pending id
  written : ∀ id entry token, state.queue.disk.claimed id = some entry →
    entry.claimToken = some token → token ∈ state.queue.tokens ∧ token ∉ state.finalized
  single : ∀ id entry other otherEntry token,
    state.queue.disk.claimed id = some entry → entry.claimToken = some token →
    state.queue.disk.claimed other = some otherEntry →
    otherEntry.claimToken = some token → id = other
  consumed : ∀ token ∈ state.finalized, token ∈ state.queue.tokens
  once : state.finalized.Nodup

namespace FencedState.Fenced

variable {state : FencedState}

theorem start : FencedState.start.Fenced := by
  constructor
  · intro id entry claimed
    cases claimed
  · rintro id entry (live | claimed)
    · cases live
    · cases claimed
  · intro id entry token claimed
    cases claimed
  · intro id entry other otherEntry token claimed
    cases claimed
  · intro token member
    cases member
  · exact List.nodup_nil

/-- An entry whose id is new is not claimed. -/
theorem not_claimed (fenced : state.Fenced) {id : PendingId} {record : LockRecord}
    (fresh : state.queue.NewLock record) (holder : record.holder = .pending id) :
    state.queue.disk.claimed id = none := by
  rw [Option.eq_none_iff_forall_ne_some]
  intro entry claimed
  rcases fenced.known id entry (.inr claimed) with ⟨lock, member, holds⟩
  exact (fresh lock member).2 id holder holds

/-- A step that makes no claim keeps the state fenced, when what it finalizes was claimed
and is claimed no longer. -/
theorem of_noClaim {after : QueueState} {finalized : List ClaimToken} (fenced : state.Fenced)
    (acquired : state.queue.acquired ⊆ after.acquired)
    (tokens : state.queue.tokens ⊆ after.tokens)
    (apart : ∀ id entry, after.disk.claimed id = some entry → after.disk.live id = none)
    (held : ∀ id entry, after.disk.Holds id entry →
      (∃ before, state.queue.disk.Holds id before) ∨
        ∃ lock ∈ after.acquired, lock.2.holder = .pending id)
    (claimed : ∀ id entry, after.disk.claimed id = some entry →
      ∃ before, state.queue.disk.claimed id = some before ∧
        entry.claimToken = before.claimToken)
    (unfinished : ∀ id entry token, after.disk.claimed id = some entry →
      entry.claimToken = some token → token ∉ finalized)
    (consumed : ∀ token ∈ finalized, token ∈ after.tokens) (once : finalized.Nodup) :
    (FencedState.mk after finalized).Fenced := by
  constructor
  · exact apart
  · intro id entry found
    rcases held id entry found with ⟨before, was⟩ | linked
    · rcases fenced.known id before was with ⟨lock, member, holder⟩
      exact ⟨lock, acquired member, holder⟩
    · exact linked
  · intro id entry token found stamped
    rcases claimed id entry found with ⟨before, was, same⟩
    rw [same] at stamped
    constructor
    · exact tokens (fenced.written id before token was stamped).1
    · exact unfinished id entry token found (same.trans stamped)
  · intro id entry other otherEntry token found stamped otherFound otherStamped
    rcases claimed id entry found with ⟨before, was, same⟩
    rcases claimed other otherEntry otherFound with ⟨otherBefore, otherWas, otherSame⟩
    rw [same] at stamped
    rw [otherSame] at otherStamped
    exact fenced.single id before other otherBefore token was stamped otherWas otherStamped
  · exact consumed
  · exact once

theorem unchanged {after : QueueState} (fenced : state.Fenced)
    (acquired : state.queue.acquired ⊆ after.acquired)
    (tokens : state.queue.tokens ⊆ after.tokens)
    (live : after.disk.live = state.queue.disk.live)
    (claimed : after.disk.claimed = state.queue.disk.claimed) :
    (FencedState.mk after state.finalized).Fenced := by
  apply fenced.of_noClaim acquired tokens
  · intro id entry found
    rw [claimed] at found
    rw [live]
    exact fenced.apart id entry found
  · intro id entry found
    left
    use entry
    unfold Disk.Holds at found ⊢
    rwa [live, claimed] at found
  · intro id entry found
    rw [claimed] at found
    exact ⟨entry, found, rfl⟩
  · intro id entry token found stamped
    rw [claimed] at found
    exact (fenced.written id entry token found stamped).2
  · intro token member
    exact tokens (fenced.consumed token member)
  · exact fenced.once

theorem enqueued {after : QueueState} (fenced : state.Fenced)
    (acquired : state.queue.acquired ⊆ after.acquired)
    (tokens : state.queue.tokens ⊆ after.tokens) {id : PendingId} {entry : PendingEntry}
    (linked : ∃ lock ∈ after.acquired, lock.2.holder = .pending id)
    (notClaimed : state.queue.disk.claimed id = none)
    (live : after.disk.live = Function.update state.queue.disk.live id (some entry))
    (claimed : after.disk.claimed = state.queue.disk.claimed) :
    (FencedState.mk after state.finalized).Fenced := by
  apply fenced.of_noClaim acquired tokens
  · intro other found claimedHere
    rw [claimed] at claimedHere
    have different : other ≠ id := by
      rintro rfl
      rw [notClaimed] at claimedHere
      cases claimedHere
    rw [live, Function.update_of_ne different]
    exact fenced.apart other found claimedHere
  · intro other found held
    by_cases same : other = id
    · subst same
      exact .inr linked
    · left
      use found
      unfold Disk.Holds at held ⊢
      rwa [live, claimed, Function.update_of_ne same] at held
  · intro other found claimedHere
    rw [claimed] at claimedHere
    exact ⟨found, claimedHere, rfl⟩
  · intro other found token claimedHere stamped
    rw [claimed] at claimedHere
    exact (fenced.written other found token claimedHere stamped).2
  · intro token member
    exact tokens (fenced.consumed token member)
  · exact fenced.once

/-- A claim that is gone, finalized under its own token or not at all. -/
theorem removed {after : QueueState} (fenced : state.Fenced)
    (acquired : state.queue.acquired ⊆ after.acquired)
    (tokens : state.queue.tokens ⊆ after.tokens) {id : PendingId} {entry : PendingEntry}
    {log : Option ClaimToken} (was : state.queue.disk.Holds id entry)
    (live : ∀ other, other ≠ id → after.disk.live other = state.queue.disk.live other)
    (claimed : after.disk.claimed = Function.update state.queue.disk.claimed id none)
    (logged : ∀ token, log = some token → token ∈ after.tokens ∧ token ∉ state.finalized)
    (own : ∀ token, log = some token → ∀ other found, other ≠ id →
      state.queue.disk.claimed other = some found → found.claimToken ≠ some token) :
    (FencedState.mk after (log.toList ++ state.finalized)).Fenced := by
  have before : ∀ other found, after.disk.claimed other = some found →
      other ≠ id ∧ state.queue.disk.claimed other = some found := by
    intro other found claimedHere
    rw [claimed] at claimedHere
    by_cases same : other = id
    · subst same
      simp at claimedHere
    · rw [Function.update_of_ne same] at claimedHere
      exact ⟨same, claimedHere⟩
  apply fenced.of_noClaim acquired tokens
  · intro other found claimedHere
    rcases before other found claimedHere with ⟨different, claimedBefore⟩
    rw [live other different]
    exact fenced.apart other found claimedBefore
  · intro other found held
    left
    by_cases same : other = id
    · subst same
      exact ⟨entry, was⟩
    · rcases held with liveHere | claimedHere
      · rw [live other same] at liveHere
        exact ⟨found, .inl liveHere⟩
      · exact ⟨found, .inr (before other found claimedHere).2⟩
  · intro other found claimedHere
    exact ⟨found, (before other found claimedHere).2, rfl⟩
  · intro other found token claimedHere stamped member
    rcases before other found claimedHere with ⟨different, claimedBefore⟩
    rcases List.mem_append.mp member with now | earlier
    · rw [Option.mem_toList] at now
      exact own token now other found different claimedBefore stamped
    · exact (fenced.written other found token claimedBefore stamped).2 earlier
  · intro token member
    rcases List.mem_append.mp member with now | earlier
    · rw [Option.mem_toList] at now
      exact (logged token now).1
    · exact tokens (fenced.consumed token earlier)
  · cases log with
    | none => exact fenced.once
    | some token => exact List.nodup_cons.mpr ⟨(logged token rfl).2, fenced.once⟩

theorem claimed {after : QueueState} (fenced : state.Fenced)
    (acquired : state.queue.acquired ⊆ after.acquired)
    (tokens : state.queue.tokens ⊆ after.tokens) {id : PendingId}
    {entry written : PendingEntry} {token : ClaimToken}
    (fresh : token ∉ state.queue.tokens) (recorded : token ∈ after.tokens)
    (found : state.queue.disk.live id = some entry) (stamped : written.claimToken = some token)
    (live : after.disk.live = Function.update state.queue.disk.live id none)
    (claimed : after.disk.claimed = Function.update state.queue.disk.claimed id (some written)) :
    (FencedState.mk after state.finalized).Fenced := by
  have before : ∀ other claim, after.disk.claimed other = some claim →
      other = id ∧ claim = written ∨
        other ≠ id ∧ state.queue.disk.claimed other = some claim := by
    intro other claim claimedHere
    rw [claimed] at claimedHere
    by_cases same : other = id
    · subst same
      rw [Function.update_self] at claimedHere
      exact .inl ⟨rfl, (Option.some.inj claimedHere).symm⟩
    · rw [Function.update_of_ne same] at claimedHere
      exact .inr ⟨same, claimedHere⟩
  -- the token is new, so no other claim has it
  have others : ∀ other claim, state.queue.disk.claimed other = some claim →
      claim.claimToken ≠ some token := by
    intro other claim claimedBefore same
    exact fresh (fenced.written other claim token claimedBefore same).1
  constructor
  · intro other claim claimedHere
    rcases before other claim claimedHere with ⟨rfl, -⟩ | ⟨different, claimedBefore⟩
    · simp [live]
    · rw [live, Function.update_of_ne different]
      exact fenced.apart other claim claimedBefore
  · intro other claim held
    have heldBefore : ∃ entry, state.queue.disk.Holds other entry := by
      rcases held with liveHere | claimedHere
      · by_cases same : other = id
        · subst same
          exact ⟨entry, .inl found⟩
        · rw [live, Function.update_of_ne same] at liveHere
          exact ⟨claim, .inl liveHere⟩
      · rcases before other claim claimedHere with ⟨rfl, -⟩ | ⟨-, claimedBefore⟩
        · exact ⟨entry, .inl found⟩
        · exact ⟨claim, .inr claimedBefore⟩
    rcases heldBefore with ⟨entry, was⟩
    rcases fenced.known other entry was with ⟨lock, member, holder⟩
    exact ⟨lock, acquired member, holder⟩
  · intro other claim minted claimedHere same
    rcases before other claim claimedHere with ⟨rfl, rfl⟩ | ⟨-, claimedBefore⟩
    · cases stamped.symm.trans same
      exact ⟨recorded, fun member => fresh (fenced.consumed token member)⟩
    · rcases fenced.written other claim minted claimedBefore same with ⟨known, unfinished⟩
      exact ⟨tokens known, unfinished⟩
  · intro first claim second otherClaim minted firstHere same secondHere otherSame
    rcases before first claim firstHere with ⟨rfl, rfl⟩ | ⟨-, firstBefore⟩
    · rcases before second otherClaim secondHere with ⟨rfl, -⟩ | ⟨-, secondBefore⟩
      · rfl
      · rw [stamped] at same
        rw [← same] at otherSame
        exact absurd otherSame (others second otherClaim secondBefore)
    · rcases before second otherClaim secondHere with ⟨rfl, rfl⟩ | ⟨-, secondBefore⟩
      · rw [stamped] at otherSame
        rw [← otherSame] at same
        exact absurd same (others first claim firstBefore)
      · exact fenced.single first claim second otherClaim minted firstBefore same
          secondBefore otherSame
  · intro minted member
    exact tokens (fenced.consumed minted member)
  · exact fenced.once

theorem rewritten {after : QueueState} (fenced : state.Fenced)
    (acquired : state.queue.acquired ⊆ after.acquired)
    (tokens : state.queue.tokens ⊆ after.tokens) {id : PendingId}
    {entry written : PendingEntry} (found : state.queue.disk.claimed id = some entry)
    (sameClaim : written.claimToken = entry.claimToken)
    (live : after.disk.live = state.queue.disk.live)
    (claimed : after.disk.claimed = Function.update state.queue.disk.claimed id (some written)) :
    (FencedState.mk after state.finalized).Fenced := by
  have before : ∀ other claim, after.disk.claimed other = some claim →
      ∃ was, state.queue.disk.claimed other = some was ∧
        claim.claimToken = was.claimToken := by
    intro other claim claimedHere
    rw [claimed] at claimedHere
    by_cases same : other = id
    · subst same
      rw [Function.update_self] at claimedHere
      cases claimedHere
      exact ⟨entry, found, sameClaim⟩
    · rw [Function.update_of_ne same] at claimedHere
      exact ⟨claim, claimedHere, rfl⟩
  apply fenced.of_noClaim acquired tokens
  · intro other claim claimedHere
    rcases before other claim claimedHere with ⟨was, claimedBefore, -⟩
    rw [live]
    exact fenced.apart other was claimedBefore
  · intro other claim held
    left
    rcases held with liveHere | claimedHere
    · rw [live] at liveHere
      exact ⟨claim, .inl liveHere⟩
    · rcases before other claim claimedHere with ⟨was, claimedBefore, -⟩
      exact ⟨was, .inr claimedBefore⟩
  · exact before
  · intro other claim token claimedHere stamped
    rcases before other claim claimedHere with ⟨was, claimedBefore, same⟩
    exact (fenced.written other was token claimedBefore (same.symm.trans stamped)).2
  · intro token member
    exact tokens (fenced.consumed token member)
  · exact fenced.once

theorem preserved : FencedStep.Preserves FencedState.Fenced := by
  intro state op target step fenced
  cases step with
  | perform state op admissible tokened =>
      rcases QueueState.subset_execute state.queue (op.plan state.queue.disk) with
        ⟨acquired, tokens⟩
      have effect : ClaimEffect state.queue _ op _ := ClaimEffect.of_plan tokened
      unfold FencedState.after
      generalize execute QueueState.apply state.queue (op.plan state.queue.disk) = after
        at effect acquired tokens ⊢
      generalize op.claimFinalized state.queue.disk = log at effect ⊢
      cases effect with
      | unchanged live claimed => exact fenced.unchanged acquired tokens live claimed
      | enqueued id proposal path now taken linked live claimed =>
          have fresh := admissible.lock_new _ taken
          exact fenced.enqueued acquired tokens ⟨_, linked, rfl⟩
            (fenced.not_claimed fresh rfl) live claimed
      | claimed id entry written token minted recorded found stamped live claimed =>
          exact fenced.claimed acquired tokens (admissible.token_new token minted) recorded
            found stamped live claimed
      | rewritten id entry written found sameClaim live claimed =>
          exact fenced.rewritten acquired tokens found sameClaim live claimed
      | consumed id entry token minted recorded found live claimed =>
          have fresh := admissible.token_new token minted
          apply fenced.removed acquired tokens (.inl found) _ claimed
          · intro logged same
            cases same
            exact ⟨recorded, fun member => fresh (fenced.consumed token member)⟩
          · intro logged same other claim different claimedBefore otherSame
            cases same
            exact fresh (fenced.written other claim token claimedBefore otherSame).1
          · intro other different
            rw [live, Function.update_of_ne different]
      | finalized id entry found live claimed =>
          apply fenced.removed acquired tokens (.inr found) _ claimed
          · intro token same
            rcases fenced.written id entry token found same with ⟨known, unfinished⟩
            exact ⟨tokens known, unfinished⟩
          · intro token same other claim different claimedBefore otherSame
            exact different (fenced.single other claim id entry token claimedBefore
              otherSame found same)
          · intro other different
            rw [live]
      | restored id entry written found live claimed =>
          apply fenced.removed acquired tokens (.inr found) _ claimed
          · intro token impossible
            cases impossible
          · intro token impossible
            cases impossible
          · intro other different
            rw [live, Function.update_of_ne different]

end FencedState.Fenced

namespace QueueOp

/-- The caller's claim is not the one on disk: the token it hands back is another one, or
it decides on an entry that somebody has claimed. -/
def Stale (disk : Disk) : QueueOp → Prop
  | recordWriteContext id token _ | recordOutcome id token _ | finalizeResolve id _ token
  | restoreResolve id token =>
      ∀ entry, disk.claimed id = some entry → token ≠ entry.claimToken
  | approve id _ _ | reject id _ _ => ∃ entry, disk.claimed id = some entry
  | _ => False

theorem checkToken_of_stale {disk : Disk} {id : PendingId} {token : Option ClaimToken}
    (given : token ≠ none)
    (stale : ∀ entry, disk.claimed id = some entry → token ≠ entry.claimToken) :
    disk.checkToken id token = .error .claimFenced := by
  unfold Disk.checkToken
  cases claimed : disk.claimed id with
  | none => rfl
  | some entry =>
      have fenced : ¬ (token = none ∨ token = entry.claimToken) := by
        rintro (none | same)
        · exact given none
        · exact stale entry claimed same
      simp only [if_neg fenced]

/-- A stale caller raises before its first file operation. -/
theorem plan_of_stale {disk : Disk} {op : QueueOp} (tokened : op.Tokened)
    (apart : ∀ id entry, disk.claimed id = some entry → disk.live id = none)
    (stale : op.Stale disk) : op.plan disk = [] ∧ op.claimFinalized disk = none := by
  cases op with
  | recordWriteContext id token context =>
      have raised := checkToken_of_stale tokened stale
      simp [plan, run, Disk.recordWriteContext, raised, Except.map, FilePlan.actions,
        claimFinalized]
  | recordOutcome id token outcome =>
      have raised := checkToken_of_stale tokened stale
      simp [plan, run, Disk.recordOutcome, raised, Except.map, FilePlan.actions,
        claimFinalized]
  | finalizeResolve id path token =>
      have raised := checkToken_of_stale tokened stale
      cases token with
      | none => exact absurd rfl tokened
      | some token =>
          simp [plan, run, Disk.finalizeResolve, raised, Except.map, FilePlan.actions,
            claimFinalized]
  | restoreResolve id token =>
      have raised := checkToken_of_stale tokened stale
      cases token with
      | none => exact absurd rfl tokened
      | some token =>
          simp [plan, run, Disk.restoreResolve, raised, Except.map, FilePlan.actions,
            claimFinalized]
  | approve id token now =>
      rcases stale with ⟨entry, claimed⟩
      have gone := apart id entry claimed
      simp [plan, run, Disk.consume, gone, FilePlan.actions, claimFinalized]
  | reject id token now =>
      rcases stale with ⟨entry, claimed⟩
      have gone := apart id entry claimed
      simp [plan, run, Disk.consume, gone, FilePlan.actions, claimFinalized]
  | _ => cases stale

end QueueOp

/-- Along every interleaving, each claim is finalized once at most, and a caller whose
claim is not the one on disk changes nothing. -/
theorem claims_are_fenced {ops : List QueueOp} {state : FencedState}
    (run : Run FencedStep .start ops state) :
    state.finalized.Nodup ∧
      ∀ op target, FencedStep state op target → op.Stale state.queue.disk →
        target = state := by
  have fenced : state.Fenced :=
    Run.invariant FencedState.Fenced.preserved run FencedState.Fenced.start
  constructor
  · exact fenced.once
  · intro op target step stale
    cases step with
    | perform state op admissible tokened =>
        rcases QueueOp.plan_of_stale tokened fenced.apart stale with ⟨planned, finalizes⟩
        rw [FencedState.after, planned, finalizes]
        rfl

/-- The resolver that claimed an entry finalizes it. -/
theorem resolved_entry_is_fenced :
    ∃ state : FencedState, state.finalized = [1] ∧ state.finalized.Nodup ∧
      ∀ op target, FencedStep state op target → op.Stale state.queue.disk →
        target = state := by
  have enqueued := FencedStep.perform .start (.enqueue 1 ruleProposal 1)
    (QueueOp.admissible_enqueue (newLock_start _)) trivial
  have claimed := FencedStep.perform (FencedState.start.after (.enqueue 1 ruleProposal 1))
    (.claimForResolve 1 1 2 none) (QueueOp.admissible_claimForResolve (by decide)) trivial
  have resolved := FencedStep.perform
    ((FencedState.start.after (.enqueue 1 ruleProposal 1)).after (.claimForResolve 1 1 2 none))
    (.finalizeResolve 1 rulePath (some 1)) (QueueOp.admissible_of_none rfl rfl nofun)
    (Option.some_ne_none 1)
  have run := ((Run.single enqueued).tail claimed).tail resolved
  exact ⟨_, rfl, claims_are_fenced run⟩

end DataOlympus
