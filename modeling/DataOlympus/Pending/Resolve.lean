import DataOlympus.Pending.Exclusion
import DataOlympus.Pending.Fencing
import DataOlympus.Publish.Approval
import DataOlympus.Python.Mapping

/-!
# Resolves that end before they write

A resolve checks its arguments, claims the entry, and calls one helper after another until
it records where it will write.  A helper that rejects puts the entry back.  An exception of
a helper goes past the handler that would, which restores only after a recorded failure.
Other operations run on the queue meanwhile.
-/

namespace DataOlympus

open Lines Transition

/-- How a call ends. -/
inductive CallEnd where
  | passes
  /-- It returns a rejection, or raises `_WriteRejected`. -/
  | rejects (status : Text)
  | raises
  deriving DecidableEq

/-- Calls one after another, up to the first that does not pass. -/
def firstStop : List CallEnd → CallEnd
  | [] => .passes
  | .passes :: rest => firstStop rest
  | stop :: _ => stop

/-- How `float(value)` ends. -/
inductive FloatEnd where
  | returns
  /-- It raises `TypeError` or `ValueError`. -/
  | refuses
  | overflows
  deriving DecidableEq

/-- `float(value)`, where `parses` says which texts are numbers. -/
def floatOf (parses : Value → Bool) : Value → FloatEnd
  | .bool _ | .float _ => .returns
  | .int n => if n.natAbs < 2 ^ 1024 - 2 ^ 970 then .returns else .overflows
  | .str s => if parses (.str s) then .returns else .refuses
  | .bytes b => if parses (.bytes b) then .returns else .refuses
  | _ => .refuses

/-- `decision`. -/
inductive Decision where
  | approve
  | edit
  | reject
  | other
  deriving DecidableEq

/-- What ends a line somewhere. -/
def lineSeparators : List Char :=
  ['\n', '\r', '\x0b', '\x0c', '\x1c', '\x1d', '\x1e', '\u0085', '\u2028', '\u2029']

/-- The test of one trailer value: `in` looks into a text or a container, and raises on
everything else. -/
def checkTrailer : Value → CallEnd
  | .str s => if s.any fun c => c ∈ lineSeparators.map .scalar then .raises else .passes
  | .list items =>
      if items.any fun item => lineSeparators.any fun c => item.isStr [.scalar c] then .raises
      else .passes
  | .dict entries =>
      if entries.any fun entry => lineSeparators.any fun c => entry.1.isStr [.scalar c] then
        .raises
      else .passes
  | _ => .raises

/-- The arguments of a resolve, and how the calls on its way end. -/
structure ResolveCalls where
  decision : Decision
  sourceSession : PyStr
  agentIdentity : PyStr
  editedSha256 : Option Text
  unencodable : Bool
  reattachCapture : CallEnd
  editedTooLarge : Bool
  editedSecret : Bool
  /-- The tier of the target path, unless `_classify` raises. -/
  targetTier : Option Text
  scanForAudit : CallEnd
  /-- The texts that `float` reads as numbers. -/
  parsesFloat : Value → Bool
  getOrCreate : CallEnd
  baseRefreshed : Bool
  safeJoin : CallEnd
  checkCas : CallEnd
  scanTargetPath : CallEnd
  scanPostimage : CallEnd
  writingRuleGate : CallEnd
  validatePostimage : CallEnd
  contextRecorded : Bool
  failureRecorded : Bool

namespace ResolveCalls

variable (calls : ResolveCalls)

/-- A check that rejects. -/
def rejectIf (condition : Bool) (status : String) : CallEnd :=
  if condition then .rejects status.toList else .passes

/-- What comes before the claim; an operator's rejection is not checked further. -/
def beforeClaim : List CallEnd :=
  rejectIf calls.unencodable "rejected_invalid_encoding" ::
    if calls.decision = .reject then []
    else
      [rejectIf (calls.decision = .other) "rejected_bad_decision",
        calls.reattachCapture,
        rejectIf calls.editedTooLarge "rejected_edited_text_too_large",
        rejectIf calls.editedSecret "rejected_secret_detected"]

/-- `float(resolved.meta.get("confidence", 0.0))`. -/
def floatConfidence (proposal : PendingProposal) : FloatEnd :=
  ((proposal.metadata.get "confidence").map (floatOf calls.parsesFloat)).getD .returns

/-- `build_commit_message(…)`; an id is no line separator. -/
def buildCommitMessage (proposal : PendingProposal) (targetTier : Text) : CallEnd :=
  let path := proposal.targetPath.text
  firstStop ([.str (PyStr.ofText ("resolve: ".toList ++ path)),
    (proposal.metadata.get "source_session").getD (.str calls.sourceSession),
    (proposal.metadata.get "agent_identity").getD (.str calls.agentIdentity),
    .str (PyStr.ofText targetTier),
    .str (PyStr.ofText path)].map checkTrailer)

/-- The base of the proposal can be compared. -/
def casEnforceable (proposal : PendingProposal) : Bool :=
  (given proposal.baseBlobSha).isSome || (given proposal.targetFileHash).isSome ||
    isEnforceableBaseCommit proposal.baseCommit

/-- What comes between the claim and the record of the write context.  The first call of
`float` is for the audit, and its errors of type and value are caught. -/
def afterClaim (proposal : PendingProposal) : List CallEnd :=
  [calls.targetTier.elim .raises fun _ => .passes,
    calls.scanForAudit,
    if calls.floatConfidence proposal = .overflows then .raises else .passes,
    if calls.floatConfidence proposal = .returns then .passes else .raises,
    calls.getOrCreate,
    rejectIf (casEnforceable proposal && !calls.baseRefreshed) "rejected_stale_base",
    calls.buildCommitMessage proposal (calls.targetTier.getD []),
    calls.safeJoin,
    calls.checkCas,
    calls.scanTargetPath,
    calls.scanPostimage,
    calls.writingRuleGate,
    calls.validatePostimage]

end ResolveCalls

/-- How a resolve ends, or that it goes on to write. -/
inductive ResolveEnd where
  | rejected (status : Text)
  | raised
  /-- The operator's rejection consumed the entry. -/
  | consumed
  | writes
  deriving DecidableEq

/-- The resolve fails before it writes. -/
def ResolveEnd.Failed (ending : ResolveEnd) : Prop :=
  ending ≠ .consumed ∧ ending ≠ .writes

/-- The end of a resolve that a call stopped. -/
def CallEnd.ended : CallEnd → ResolveEnd
  | .rejects status => .rejected status
  | _ => .raised

/-- The state after a whole operation. -/
def QueueState.perform (state : QueueState) (op : QueueOp) : QueueState :=
  execute QueueState.apply state (op.plan state.disk)

namespace ResolveCalls

variable (calls : ResolveCalls)

/-- The handlers of `kb_resolve_pending_fn` on the state they find: a rejection and a failed
record of the write context restore the entry, any other exception does not. -/
def finish (id : PendingId) (token : ClaimToken) (proposal : PendingProposal)
    (state : QueueState) : ResolveEnd × QueueState :=
  match firstStop (calls.afterClaim proposal) with
  | .rejects status => (.rejected status, state.perform (.restoreResolve id (some token)))
  | .raises => (.raised, state)
  | .passes =>
      if calls.contextRecorded then (.writes, state)
      else
        let recorded :=
          if calls.failureRecorded then
            state.perform (.recordOutcome id (some token) (.failed []))
          else state
        (.raised, recorded.perform (.restoreResolve id (some token)))

end ResolveCalls

/-- An operation of others while a claim is held: ids are fresh, nobody else has the token
of the claim, and a sweep finds no commit of the entry, which has none. -/
def QueueOp.OfOthers (id : PendingId) (token : ClaimToken) : QueueOp → Prop
  | enqueue other _ _ | enqueueUnwritten other _ _ => other ≠ id
  | recordWriteContext other handed _ | recordOutcome other handed _
  | finalizeResolve other _ handed | restoreResolve other handed =>
      other = id → handed ≠ none ∧ handed ≠ some token
  | reconcileOne other _ _ found => other = id → found ≠ some true
  | _ => True

/-- Operations of others, each possibly cut short. -/
def OthersStep (id : PendingId) (token : ClaimToken) :
    System QueueState (Attempt QueueOp FileAction) :=
  QueueStep.restrict fun _ attempt => attempt.operation.OfOthers id token

/-- Operations whose callers hand back tokens, each possibly cut short. -/
def TokenedStep : System QueueState (Attempt QueueOp FileAction) :=
  QueueStep.restrict fun _ attempt => attempt.operation.Tokened

/-- A resolve of the entry `id`, until it ends or writes. -/
inductive Resolves (calls : ResolveCalls) (id : PendingId) (state : QueueState) :
    ResolveEnd → QueueState → Prop
  | stopped (stop : firstStop calls.beforeClaim ≠ .passes) :
      Resolves calls id state (firstStop calls.beforeClaim).ended state
  | consumed (token : ClaimToken) (now : Time)
      (passed : firstStop calls.beforeClaim = .passes) (decided : calls.decision = .reject)
      (here : (state.disk.live id).isSome) :
      Resolves calls id state .consumed (state.perform (.reject id token now))
  | claimed (token : ClaimToken) (now : Time) (entry : PendingEntry) (later : QueueState)
      (others : List (Attempt QueueOp FileAction))
      (passed : firstStop calls.beforeClaim = .passes) (decided : calls.decision ≠ .reject)
      (here : state.disk.live id = some entry)
      (admissible : (QueueOp.claimForResolve id token now calls.editedSha256).Admissible state)
      (meanwhile : Run (OthersStep id token)
        (state.perform (.claimForResolve id token now calls.editedSha256)) others later) :
      Resolves calls id state (calls.finish id token entry.proposal later).1
        (calls.finish id token entry.proposal later).2

/-! ## Entries that wait -/

namespace PendingEntry

@[simp]
theorem stripped_queued (proposal : PendingProposal) :
    (queued proposal).stripped = queued proposal :=
  rfl

@[simp]
theorem stripped_stripped (entry : PendingEntry) : entry.stripped.stripped = entry.stripped :=
  rfl

end PendingEntry

/-- An entry that waits is as it was enqueued, and a sidecar without a claim stamp has no
outcome. -/
structure Disk.Unmarked (disk : Disk) : Prop where
  live : ∀ id entry, disk.live id = some entry → entry.stripped = entry
  restoring : ∀ id entry, disk.restoring id = some entry → entry.stripped = entry
  unstamped : ∀ id entry, disk.claimed id = some entry → entry.claimToken = none →
    entry.writeOutcome = none

/-- The action writes no mark of a claim into an entry that waits. -/
def FileAction.Unmarking : FileAction → Prop
  | writeLive _ entry | writeRestoring _ entry => entry.stripped = entry
  | writeClaimed _ entry => entry.claimToken = none → entry.writeOutcome = none
  | renameClaimed _ => False
  | _ => True

namespace Disk.Unmarked

variable {disk : Disk}

theorem empty : Disk.empty.Unmarked := by
  constructor
  · intro id entry live
    cases live
  · intro id entry restoring
    cases restoring
  · intro id entry claimed
    cases claimed

theorem apply (unmarked : disk.Unmarked) {action : FileAction} (meets : action.Unmarking) :
    (disk.apply action).Unmarked := by
  cases action with
  | linkLock path record => exact ⟨unmarked.live, unmarked.restoring, unmarked.unstamped⟩
  | unlinkLock path => exact ⟨unmarked.live, unmarked.restoring, unmarked.unstamped⟩
  | writeLive id entry =>
      refine ⟨?_, unmarked.restoring, unmarked.unstamped⟩
      intro other found live
      by_cases same : other = id
      · subst same
        simp only [Disk.apply, Function.update_self, Option.some.injEq] at live
        rw [← live]
        exact meets
      · simp only [Disk.apply, Function.update_of_ne same] at live
        exact unmarked.live other found live
  | renameLive id =>
      refine ⟨?_, unmarked.restoring, ?_⟩
      · intro other found live
        by_cases same : other = id
        · subst same
          simp [Disk.apply] at live
        · simp only [Disk.apply, Function.update_of_ne same] at live
          exact unmarked.live other found live
      · intro other found claimed
        by_cases same : other = id
        · subst same
          simp only [Disk.apply, Function.update_self, Option.or_eq_some_iff] at claimed
          rcases claimed with live | ⟨-, claimed⟩
          · rw [← unmarked.live other found live]
            intro unstamped
            rfl
          · exact unmarked.unstamped other found claimed
        · simp only [Disk.apply, Function.update_of_ne same] at claimed
          exact unmarked.unstamped other found claimed
  | writeClaimed id entry =>
      refine ⟨unmarked.live, unmarked.restoring, ?_⟩
      intro other found claimed
      by_cases same : other = id
      · subst same
        simp only [Disk.apply, Function.update_self, Option.some.injEq] at claimed
        rw [← claimed]
        exact meets
      · simp only [Disk.apply, Function.update_of_ne same] at claimed
        exact unmarked.unstamped other found claimed
  | removeClaimed id =>
      refine ⟨unmarked.live, unmarked.restoring, ?_⟩
      intro other found claimed
      by_cases same : other = id
      · subst same
        simp [Disk.apply] at claimed
      · simp only [Disk.apply, Function.update_of_ne same] at claimed
        exact unmarked.unstamped other found claimed
  | renameClaimed id => cases meets
  | writeRestoring id entry =>
      refine ⟨unmarked.live, ?_, unmarked.unstamped⟩
      intro other found restoring
      by_cases same : other = id
      · subst same
        simp only [Disk.apply, Function.update_self, Option.some.injEq] at restoring
        rw [← restoring]
        exact meets
      · simp only [Disk.apply, Function.update_of_ne same] at restoring
        exact unmarked.restoring other found restoring
  | renameRestoring id =>
      refine ⟨?_, ?_, unmarked.unstamped⟩
      · intro other found live
        by_cases same : other = id
        · subst same
          simp only [Disk.apply, Function.update_self, Option.or_eq_some_iff] at live
          rcases live with restoring | ⟨-, live⟩
          · exact unmarked.restoring other found restoring
          · exact unmarked.live other found live
        · simp only [Disk.apply, Function.update_of_ne same] at live
          exact unmarked.live other found live
      · intro other found restoring
        by_cases same : other = id
        · subst same
          simp [Disk.apply] at restoring
        · simp only [Disk.apply, Function.update_of_ne same] at restoring
          exact unmarked.restoring other found restoring

theorem execute (unmarked : disk.Unmarked) {actions : List FileAction}
    (meet : ∀ action ∈ actions, action.Unmarking) :
    (execute Disk.apply disk actions).Unmarked := by
  induction actions generalizing disk with
  | nil => exact unmarked
  | cons action rest ih =>
      apply ih (unmarked.apply (meet action List.mem_cons_self))
      intro other later
      exact meet other (List.mem_cons_of_mem _ later)

/-- Releasing a lock writes no entry. -/
theorem unmarking_releaseLockOwnedBy {path : RelPath} {id : PendingId} {action : FileAction}
    (member : action ∈ disk.releaseLockOwnedBy path id) : action.Unmarking := by
  rcases disk.releaseLockOwnedBy_cases path id with ⟨-, planned⟩ | ⟨-, planned⟩
  · rw [planned, List.mem_singleton] at member
    rw [member]
    trivial
  · rw [planned] at member
    cases member

theorem unmarking_finalizeResolve {id : PendingId} {path : RelPath}
    {token : Option ClaimToken} {actions : List FileAction}
    (planned : disk.finalizeResolve id path token = .ok actions) {action : FileAction}
    (member : action ∈ actions) : action.Unmarking := by
  rcases Disk.finalizeResolve_eq_ok_iff.mp planned with ⟨-, rfl⟩
  rcases List.mem_cons.mp member with rfl | released
  · trivial
  · exact unmarking_releaseLockOwnedBy released

theorem unmarking_consume {id : PendingId} {token : ClaimToken} {now : Time}
    {actions : List FileAction} (planned : disk.consume id token now = .ok actions)
    {action : FileAction} (member : action ∈ actions) : action.Unmarking := by
  rcases Disk.consume_eq_ok_iff.mp planned with ⟨entry, -, rfl⟩
  simp only [List.mem_cons] at member
  rcases member with rfl | rfl | rfl | released
  · trivial
  · intro unstamped
    cases unstamped
  · trivial
  · exact unmarking_releaseLockOwnedBy released

/-- A fenced restore writes the entry as it was enqueued. -/
theorem unmarking_restoreResolve {id : PendingId} {token : Option ClaimToken}
    {actions : List FileAction} (planned : disk.restoreResolve id token = .ok actions)
    (fenced : token ≠ none) {action : FileAction} (member : action ∈ actions) :
    action.Unmarking := by
  rcases Disk.restoreResolve_eq_ok_iff.mp planned with ⟨unfenced, -⟩ | ⟨entry, -, -, -, rfl⟩
  · exact absurd unfenced fenced
  · simp only [List.mem_cons, List.not_mem_nil, or_false] at member
    rcases member with rfl | rfl | rfl
    · exact entry.stripped_stripped
    · trivial
    · trivial

/-- A rewrite of a stamped sidecar. -/
theorem unmarking_writeClaimed {id : PendingId} {token : Option ClaimToken}
    {entry written : PendingEntry} (owned : disk.checkToken id token = .ok entry)
    (fenced : token ≠ none) (same : written.claimToken = entry.claimToken) :
    (FileAction.writeClaimed id written).Unmarking := by
  intro unstamped
  rcases (Disk.checkToken_eq_ok_iff.mp owned).2 with unfenced | stamped
  · exact absurd unfenced fenced
  · rw [stamped, ← same] at fenced
    exact absurd unstamped fenced

/-- Callers that hand back tokens mark no entry that waits. -/
theorem plan (unmarked : disk.Unmarked) {op : QueueOp} (tokened : op.Tokened)
    {action : FileAction} (member : action ∈ op.plan disk) : action.Unmarking := by
  rcases FilePlan.mem_actions_iff.mp member with ⟨actions, ran, planned⟩
  cases op with
  | enqueue id proposal now =>
      rcases Disk.enqueue_eq_ok_iff.mp ran with ⟨-, rfl⟩
      simp only [List.mem_cons, List.not_mem_nil, or_false] at planned
      rcases planned with rfl | rfl
      · trivial
      · exact PendingEntry.stripped_queued proposal
  | enqueueUnwritten id path now =>
      rcases Disk.enqueueUnwritten_eq_ok_iff.mp ran with ⟨-, rfl⟩
      simp only [List.mem_cons, List.not_mem_nil, or_false] at planned
      rcases planned with rfl | rfl
      · trivial
      · trivial
  | lockPath path owner now =>
      rcases Disk.acquireLock_eq_ok_iff.mp ran with ⟨-, rfl⟩
      rw [List.mem_singleton] at planned
      rw [planned]
      trivial
  | unlockPath path owner acquiredAt =>
      cases ran
      rw [(Disk.mem_releaseLock_iff.mp planned).1]
      trivial
  | approve id token now => exact unmarking_consume ran planned
  | reject id token now => exact unmarking_consume ran planned
  | claimForResolve id token now editedSha256 =>
      rcases Disk.claimForResolve_eq_ok_iff.mp ran with ⟨entry, -, rfl⟩
      simp only [List.mem_cons, List.mem_map] at planned
      rcases planned with rfl | rfl | ⟨digest, -, rfl⟩
      · trivial
      · intro unstamped
        cases unstamped
      · intro unstamped
        cases unstamped
  | recordWriteContext id token context =>
      rcases Disk.recordWriteContext_eq_ok_iff.mp ran with ⟨entry, owned, rfl⟩
      rw [List.mem_singleton] at planned
      rw [planned]
      exact unmarking_writeClaimed owned tokened rfl
  | recordOutcome id token outcome =>
      rcases Disk.recordOutcome_eq_ok_iff.mp ran with ⟨entry, owned, rfl⟩
      rw [List.mem_singleton] at planned
      rw [planned]
      exact unmarking_writeClaimed owned tokened rfl
  | finalizeResolve id path token => exact unmarking_finalizeResolve ran planned
  | restoreResolve id token => exact unmarking_restoreResolve ran tokened planned
  | reconcileOne id minAge now found =>
      rcases Disk.reconcileOne_cases ran with
        rfl | ⟨entry, due, ⟨-, finalized⟩ | ⟨⟨reason, failed⟩, restored⟩ | rfl⟩
      · cases planned
      · exact unmarking_finalizeResolve finalized planned
      · -- a failure is recorded in stamped sidecars only
        apply unmarking_restoreResolve restored _ planned
        intro unstamped
        have unrecorded := unmarked.unstamped id entry (Disk.claimed_of_dueClaim due) unstamped
        rw [unrecorded] at failed
        cases failed
      · rw [List.mem_singleton] at planned
        rw [planned]
        exact unmarked.unstamped id entry (Disk.claimed_of_dueClaim due)
  | gcOrphanLock path =>
      cases ran
      rw [(Disk.mem_gcOrphanLock_iff.mp planned).1]
      trivial
  | reclaimStaleAutoCommitLock path maxAge now =>
      cases ran
      rw [(Disk.mem_reclaimStaleAutoCommitLock_iff.mp planned).1]
      trivial

end Disk.Unmarked

theorem TokenedStep.preserves :
    TokenedStep.Preserves fun state => state.Ledger ∧ state.disk.Unmarked := by
  rintro state attempt target ⟨tokened, step⟩ ⟨ledger, unmarked⟩
  constructor
  · exact QueueState.Ledger.preserved state attempt target step ledger
  · rcases step with ⟨-, cut, rfl⟩
    rw [QueueState.disk_execute]
    apply unmarked.execute
    intro action performed
    exact unmarked.plan tokened (cut.subset performed)

/-! ## The claim of a resolve -/

/-- The claim of a resolver that has recorded nothing. -/
structure Disk.Held (disk : Disk) (id : PendingId) (token : ClaimToken)
    (proposal : PendingProposal) : Prop where
  live : disk.live id = none
  claimed : ∃ claim, disk.claimed id = some claim ∧ claim.claimToken = some token ∧
    claim.writeOutcome = none ∧ claim.proposal = proposal

/-- The action leaves the claim as it is, or adds nothing that a sweep decides on. -/
def FileAction.Spares (id : PendingId) (token : ClaimToken) (proposal : PendingProposal) :
    FileAction → Prop
  | writeLive other _ | renameLive other | removeClaimed other | renameClaimed other
  | renameRestoring other => other ≠ id
  | writeClaimed other entry => other = id →
      entry.claimToken = some token ∧ entry.writeOutcome = none ∧ entry.proposal = proposal
  | _ => True

namespace Disk.Held

variable {disk : Disk} {id : PendingId} {token : ClaimToken} {proposal : PendingProposal}

theorem apply (held : disk.Held id token proposal) {action : FileAction}
    (spared : action.Spares id token proposal) :
    (disk.apply action).Held id token proposal := by
  rcases held with ⟨live, claim, claimed, content⟩
  cases action with
  | linkLock path record => exact ⟨live, claim, claimed, content⟩
  | unlinkLock path => exact ⟨live, claim, claimed, content⟩
  | writeRestoring other entry => exact ⟨live, claim, claimed, content⟩
  | writeClaimed other entry =>
      by_cases same : id = other
      · subst same
        exact ⟨live, entry, Function.update_self .., spared rfl⟩
      · exact ⟨live, claim, by simp [Disk.apply, Function.update_of_ne same, claimed], content⟩
  | writeLive other entry =>
      have different : id ≠ other := fun same => spared same.symm
      exact ⟨by simp [Disk.apply, Function.update_of_ne different, live], claim, claimed,
        content⟩
  | removeClaimed other =>
      have different : id ≠ other := fun same => spared same.symm
      exact ⟨live, claim, by simp [Disk.apply, Function.update_of_ne different, claimed],
        content⟩
  | renameRestoring other =>
      have different : id ≠ other := fun same => spared same.symm
      exact ⟨by simp [Disk.apply, Function.update_of_ne different, live], claim, claimed,
        content⟩
  | renameLive other =>
      have different : id ≠ other := fun same => spared same.symm
      exact ⟨by simp [Disk.apply, Function.update_of_ne different, live], claim,
        by simp [Disk.apply, Function.update_of_ne different, claimed], content⟩
  | renameClaimed other =>
      have different : id ≠ other := fun same => spared same.symm
      exact ⟨by simp [Disk.apply, Function.update_of_ne different, live], claim,
        by simp [Disk.apply, Function.update_of_ne different, claimed], content⟩

theorem execute (held : disk.Held id token proposal) {actions : List FileAction}
    (spared : ∀ action ∈ actions, action.Spares id token proposal) :
    (execute Disk.apply disk actions).Held id token proposal := by
  induction actions generalizing disk with
  | nil => exact held
  | cons action rest ih =>
      apply ih (held.apply (spared action List.mem_cons_self))
      intro other later
      exact spared other (List.mem_cons_of_mem _ later)

/-- A token of others does not pass the fence of the claim. -/
theorem fenced (held : disk.Held id token proposal) {other : PendingId}
    {handed : Option ClaimToken} (others : other = id → handed ≠ none ∧ handed ≠ some token)
    {entry : PendingEntry} (owned : disk.checkToken other handed = .ok entry) :
    other ≠ id := by
  rintro rfl
  rcases held.claimed with ⟨claim, claimed, stamped, -⟩
  rcases Disk.checkToken_eq_ok_iff.mp owned with ⟨found, absent | same⟩
  · exact (others rfl).1 absent
  · rw [claimed] at found
    cases found
    exact (others rfl).2 (same.trans stamped)

theorem spares_releaseLockOwnedBy {path : RelPath} {other : PendingId} {action : FileAction}
    (member : action ∈ disk.releaseLockOwnedBy path other) :
    action.Spares id token proposal := by
  rcases disk.releaseLockOwnedBy_cases path other with ⟨-, planned⟩ | ⟨-, planned⟩
  · rw [planned, List.mem_singleton] at member
    rw [member]
    trivial
  · rw [planned] at member
    cases member

theorem spares_consume (held : disk.Held id token proposal) {other : PendingId}
    {minted : ClaimToken} {now : Time} {actions : List FileAction}
    (planned : disk.consume other minted now = .ok actions) {action : FileAction}
    (member : action ∈ actions) : action.Spares id token proposal := by
  rcases Disk.consume_eq_ok_iff.mp planned with ⟨entry, live, rfl⟩
  have different : other ≠ id := by
    rintro rfl
    cases held.live.symm.trans live
  simp only [List.mem_cons] at member
  rcases member with rfl | rfl | rfl | released
  · exact different
  · exact fun same => absurd same different
  · exact different
  · exact spares_releaseLockOwnedBy released

theorem spares_finalizeResolve {other : PendingId} {path : RelPath}
    {handed : Option ClaimToken} {actions : List FileAction}
    (planned : disk.finalizeResolve other path handed = .ok actions) (different : other ≠ id)
    {action : FileAction} (member : action ∈ actions) : action.Spares id token proposal := by
  rcases Disk.finalizeResolve_eq_ok_iff.mp planned with ⟨-, rfl⟩
  rcases List.mem_cons.mp member with rfl | released
  · exact different
  · exact spares_releaseLockOwnedBy released

theorem spares_restoreResolve {other : PendingId} {handed : Option ClaimToken}
    {actions : List FileAction} (planned : disk.restoreResolve other handed = .ok actions)
    (different : other ≠ id) {action : FileAction} (member : action ∈ actions) :
    action.Spares id token proposal := by
  rcases Disk.restoreResolve_eq_ok_iff.mp planned with ⟨-, rfl⟩ | ⟨entry, -, -, -, rfl⟩
  · rw [List.mem_singleton] at member
    rw [member]
    exact different
  · simp only [List.mem_cons, List.not_mem_nil, or_false] at member
    rcases member with rfl | rfl | rfl
    · trivial
    · exact different
    · exact different

/-- A sweep that finds no commit of the entry marks the claim as uncertain at most. -/
theorem spares_reconcileOne (held : disk.Held id token proposal) {other : PendingId}
    {minAge now : Time} {found : Option Bool} {actions : List FileAction}
    (others : other = id → found ≠ some true)
    (planned : disk.reconcileOne other minAge now found = .ok actions) {action : FileAction}
    (member : action ∈ actions) : action.Spares id token proposal := by
  rcases held.claimed with ⟨claim, claimed, stamped, unrecorded, content⟩
  rcases Disk.reconcileOne_cases planned with
    rfl | ⟨entry, due, ⟨evident, finalized⟩ | ⟨⟨reason, failed⟩, restored⟩ | rfl⟩
  · cases member
  · apply spares_finalizeResolve finalized _ member
    rintro rfl
    cases claimed.symm.trans (Disk.claimed_of_dueClaim due)
    simp [Disk.evident, unrecorded, others] at evident
  · apply spares_restoreResolve restored _ member
    rintro rfl
    cases claimed.symm.trans (Disk.claimed_of_dueClaim due)
    cases unrecorded.symm.trans failed
  · rw [List.mem_singleton] at member
    rw [member]
    rintro rfl
    cases claimed.symm.trans (Disk.claimed_of_dueClaim due)
    exact ⟨stamped, unrecorded, content⟩

/-- No operation of others touches the claim. -/
theorem plan (held : disk.Held id token proposal) {op : QueueOp}
    (others : op.OfOthers id token) {action : FileAction} (member : action ∈ op.plan disk) :
    action.Spares id token proposal := by
  rcases FilePlan.mem_actions_iff.mp member with ⟨actions, ran, planned⟩
  cases op with
  | enqueue other enqueued now =>
      rcases Disk.enqueue_eq_ok_iff.mp ran with ⟨-, rfl⟩
      simp only [List.mem_cons, List.not_mem_nil, or_false] at planned
      rcases planned with rfl | rfl
      · trivial
      · exact others
  | enqueueUnwritten other path now =>
      rcases Disk.enqueueUnwritten_eq_ok_iff.mp ran with ⟨-, rfl⟩
      simp only [List.mem_cons, List.not_mem_nil, or_false] at planned
      rcases planned with rfl | rfl
      · trivial
      · trivial
  | lockPath path owner now =>
      rcases Disk.acquireLock_eq_ok_iff.mp ran with ⟨-, rfl⟩
      rw [List.mem_singleton] at planned
      rw [planned]
      trivial
  | unlockPath path owner acquiredAt =>
      cases ran
      rw [(Disk.mem_releaseLock_iff.mp planned).1]
      trivial
  | approve other minted now => exact held.spares_consume ran planned
  | reject other minted now => exact held.spares_consume ran planned
  | claimForResolve other minted now editedSha256 =>
      rcases Disk.claimForResolve_eq_ok_iff.mp ran with ⟨entry, live, rfl⟩
      have different : other ≠ id := by
        rintro rfl
        cases held.live.symm.trans live
      simp only [List.mem_cons, List.mem_map] at planned
      rcases planned with rfl | rfl | ⟨digest, -, rfl⟩
      · exact different
      · exact fun same => absurd same different
      · exact fun same => absurd same different
  | recordWriteContext other handed context =>
      rcases Disk.recordWriteContext_eq_ok_iff.mp ran with ⟨entry, owned, rfl⟩
      rw [List.mem_singleton] at planned
      rw [planned]
      exact fun same => absurd same (held.fenced others owned)
  | recordOutcome other handed outcome =>
      rcases Disk.recordOutcome_eq_ok_iff.mp ran with ⟨entry, owned, rfl⟩
      rw [List.mem_singleton] at planned
      rw [planned]
      exact fun same => absurd same (held.fenced others owned)
  | finalizeResolve other path handed =>
      apply spares_finalizeResolve ran _ planned
      rintro rfl
      rcases (Disk.finalizeResolve_eq_ok_iff.mp ran).1 with absent | ⟨claim, claimed, same⟩
      · exact (others rfl).1 absent
      · have owned := Disk.checkToken_eq_ok_iff.mpr ⟨claimed, .inr same⟩
        exact held.fenced others owned rfl
  | restoreResolve other handed =>
      apply spares_restoreResolve ran _ planned
      rintro rfl
      rcases Disk.restoreResolve_eq_ok_iff.mp ran with
        ⟨absent, -⟩ | ⟨claim, -, claimed, same, -⟩
      · exact (others rfl).1 absent
      · have owned := Disk.checkToken_eq_ok_iff.mpr ⟨claimed, .inr same⟩
        exact held.fenced others owned rfl
  | reconcileOne other minAge now found => exact held.spares_reconcileOne others ran planned
  | gcOrphanLock path =>
      cases ran
      rw [(Disk.mem_gcOrphanLock_iff.mp planned).1]
      trivial
  | reclaimStaleAutoCommitLock path maxAge now =>
      cases ran
      rw [(Disk.mem_reclaimStaleAutoCommitLock_iff.mp planned).1]
      trivial

end Disk.Held

namespace QueueState.Ledger

variable {state : QueueState} {id : PendingId} {token : ClaimToken}
  {proposal : PendingProposal}

/-- No operation of others releases the lock of an entry whose claim is held. -/
theorem not_unlinked (ledger : state.Ledger) (held : state.disk.Held id token proposal)
    {op : QueueOp} (admissible : op.Admissible state) (others : op.OfOthers id token)
    {path : RelPath} {acquiredAt : Time}
    (locked : state.disk.lock path = some ⟨.pending id, acquiredAt⟩) :
    FileAction.unlinkLock path ∉ op.plan state.disk := by
  intro planned
  have entitled := ledger.entitled admissible locked planned
  rcases FilePlan.mem_actions_iff.mp planned with ⟨actions, ran, member⟩
  have kept : FileAction.removeClaimed id ∉ actions := by
    intro removed
    exact held.plan others (FilePlan.mem_actions_iff.mpr ⟨actions, ran, removed⟩) rfl
  cases op with
  | unlockPath released owner since => cases entitled.2
  | approve other minted now =>
      cases entitled.1
      rcases Disk.consume_eq_ok_iff.mp ran with ⟨entry, live, -⟩
      cases held.live.symm.trans live
  | reject other minted now =>
      cases entitled.1
      rcases Disk.consume_eq_ok_iff.mp ran with ⟨entry, live, -⟩
      cases held.live.symm.trans live
  | finalizeResolve other released handed =>
      cases entitled.1
      rcases Disk.finalizeResolve_eq_ok_iff.mp ran with ⟨-, rfl⟩
      exact kept List.mem_cons_self
  | reconcileOne other minAge now found =>
      cases entitled.1
      rcases Disk.reconcileOne_cases ran with
        rfl | ⟨entry, -, ⟨-, finalized⟩ | ⟨-, restored⟩ | rfl⟩
      · cases member
      · rcases Disk.finalizeResolve_eq_ok_iff.mp finalized with ⟨-, rfl⟩
        exact kept List.mem_cons_self
      · exact not_mem_restoreResolve restored member
      · simp at member
  | gcOrphanLock swept =>
      rcases entitled with ⟨-, other, same, absent⟩
      cases same
      rcases held.claimed with ⟨claim, claimed, -⟩
      exact absent claim (.inr claimed)
  | reclaimStaleAutoCommitLock swept maxAge now =>
      rcases entitled with ⟨-, ⟨owner, same⟩, -⟩
      cases same
  | _ => exact entitled

end QueueState.Ledger

theorem OthersStep.preserves (id : PendingId) (token : ClaimToken)
    (proposal : PendingProposal) :
    (OthersStep id token).Preserves fun state =>
      state.Ledger ∧ state.disk.Held id token proposal := by
  rintro state attempt target ⟨others, step⟩ ⟨ledger, held⟩
  constructor
  · exact QueueState.Ledger.preserved state attempt target step ledger
  · rcases step with ⟨-, cut, rfl⟩
    rw [QueueState.disk_execute]
    apply held.execute
    intro action performed
    exact held.plan others (cut.subset performed)

/-- The entry of a held claim keeps its lock. -/
theorem OthersStep.preserves_lock (id : PendingId) (token : ClaimToken)
    (proposal : PendingProposal) (path : RelPath) (acquiredAt : Time) :
    (OthersStep id token).Preserves fun state =>
      (state.Ledger ∧ state.disk.Held id token proposal) ∧
        state.disk.lock path = some ⟨.pending id, acquiredAt⟩ := by
  rintro state attempt target step ⟨⟨ledger, held⟩, locked⟩
  constructor
  · exact OthersStep.preserves id token proposal state attempt target step ⟨ledger, held⟩
  · rcases step with ⟨others, admissible, cut, rfl⟩
    rw [QueueState.disk_execute]
    apply Disk.lock_execute _ locked
    intro performed
    exact ledger.not_unlinked held admissible others locked (cut.subset performed)

/-- A resolve gave its entry back: the entry waits as before, its lock is kept, and there is
no claim that was not there. -/
structure Disk.GivenBack (before after : Disk) (id : PendingId) (path : RelPath) : Prop where
  live : after.live id = before.live id
  lock : before.LockNames path id → after.lock path = before.lock path
  claimed : ∀ claim, after.claimed id = some claim → before.claimed id = some claim

/-- No call raises between the claim and the record of the write context, unless a call
before it rejects. -/
def ResolveCalls.Orderly (calls : ResolveCalls) (proposal : PendingProposal) : Prop :=
  firstStop calls.beforeClaim = .passes → firstStop (calls.afterClaim proposal) ≠ .raises

namespace QueueState

variable {state : QueueState} {id : PendingId} {token : ClaimToken}

@[simp]
theorem disk_perform (state : QueueState) (op : QueueOp) :
    (state.perform op).disk = execute Disk.apply state.disk (op.plan state.disk) :=
  disk_execute state _

/-- A claim takes the entry out of the queue and keeps its lock. -/
theorem held_claimForResolve (token : ClaimToken) (now : Time) (editedSha256 : Option Text)
    {entry : PendingEntry}
    (here : state.disk.live id = some entry) (unmarked : entry.stripped = entry) :
    (state.perform (.claimForResolve id token now editedSha256)).disk.Held id token
        entry.proposal ∧
      (state.perform (.claimForResolve id token now editedSha256)).disk.lock =
        state.disk.lock := by
  have planned : state.disk.claimForResolve id token now editedSha256 = .ok _ :=
    Disk.claimForResolve_eq_ok_iff.mpr ⟨entry, here, rfl⟩
  have unrecorded : entry.writeOutcome = none := by
    rw [← unmarked]
    rfl
  rw [disk_perform, QueueOp.plan, QueueOp.run, planned]
  cases editedSha256 with
  | none =>
      refine ⟨⟨?_, Disk.stamp entry token now, ?_, rfl, unrecorded, rfl⟩, rfl⟩
      · simp [FilePlan.actions, Disk.apply]
      · simp [FilePlan.actions, Disk.apply]
  | some digest =>
      refine ⟨⟨?_, { Disk.stamp entry token now with effectivePostimageSha256 := some digest },
        ?_, rfl, unrecorded, rfl⟩, rfl⟩
      · simp [FilePlan.actions, Disk.apply]
      · simp [FilePlan.actions, Disk.apply]

/-- The holder of a claim restores the entry as it was enqueued. -/
theorem perform_restoreResolve {claim : PendingEntry}
    (claimed : state.disk.claimed id = some claim) (stamped : claim.claimToken = some token) :
    let after := (state.perform (.restoreResolve id (some token))).disk
    after.live id = some claim.stripped ∧ after.claimed id = none ∧
      after.lock = state.disk.lock := by
  have planned : state.disk.restoreResolve id (some token) =
      .ok [.writeRestoring id claim.stripped, .renameRestoring id, .removeClaimed id] :=
    Disk.restoreResolve_eq_ok_iff.mpr
      (.inr ⟨claim, Option.some_ne_none token, claimed, stamped.symm, rfl⟩)
  rw [disk_perform, QueueOp.plan, QueueOp.run, planned]
  refine ⟨?_, ?_, rfl⟩
  · simp [FilePlan.actions, Disk.apply]
  · simp [FilePlan.actions, Disk.apply]

/-- The holder of a claim records an outcome in it. -/
theorem perform_recordOutcome (outcome : WriteOutcome) {claim : PendingEntry}
    (claimed : state.disk.claimed id = some claim) (stamped : claim.claimToken = some token) :
    let after := (state.perform (.recordOutcome id (some token) outcome)).disk
    after.claimed id = some { claim with writeOutcome := some outcome } ∧
      after.lock = state.disk.lock := by
  have owned : state.disk.checkToken id (some token) = .ok claim :=
    Disk.checkToken_eq_ok_iff.mpr ⟨claimed, .inr stamped.symm⟩
  have planned : state.disk.recordOutcome id (some token) outcome = .ok _ :=
    Disk.recordOutcome_eq_ok_iff.mpr ⟨claim, owned, rfl⟩
  rw [disk_perform, QueueOp.plan, QueueOp.run, planned]
  refine ⟨?_, rfl⟩
  simp [FilePlan.actions, Disk.apply]

end QueueState

namespace ResolveCalls

variable {calls : ResolveCalls} {id : PendingId} {token : ClaimToken} {entry : PendingEntry}
  {before later : QueueState}

/-- Restoring a claim gives the entry back. -/
theorem givenBack_restoreResolve {claim : PendingEntry} {state : QueueState}
    (here : before.disk.live id = some entry) (unmarked : entry.stripped = entry)
    (claimed : state.disk.claimed id = some claim) (stamped : claim.claimToken = some token)
    (content : claim.proposal = entry.proposal)
    (locked : before.disk.LockNames entry.targetPath id →
      state.disk.lock entry.targetPath = before.disk.lock entry.targetPath) :
    before.disk.GivenBack (state.perform (.restoreResolve id (some token))).disk id
      entry.targetPath := by
  rcases QueueState.perform_restoreResolve claimed stamped with ⟨live, gone, sameLocks⟩
  have same : claim.stripped = entry := by
    rw [← unmarked, PendingEntry.stripped, content]
    rfl
  constructor
  · rw [live, same, here]
  · intro named
    rw [sameLocks]
    exact locked named
  · intro other found
    rw [gone] at found
    cases found

/-- A resolve that holds its claim and fails gives the entry back exactly if no call
raised. -/
theorem finish_givesBack_iff (here : before.disk.live id = some entry)
    (unmarked : entry.stripped = entry)
    (held : later.disk.Held id token entry.proposal)
    (locked : before.disk.LockNames entry.targetPath id →
      later.disk.lock entry.targetPath = before.disk.lock entry.targetPath)
    (failed : (calls.finish id token entry.proposal later).1.Failed) :
    before.disk.GivenBack (calls.finish id token entry.proposal later).2.disk id
        entry.targetPath ↔
      firstStop (calls.afterClaim entry.proposal) ≠ .raises := by
  rcases held.claimed with ⟨claim, claimed, stamped, -, content⟩
  unfold finish at failed ⊢
  cases stop : firstStop (calls.afterClaim entry.proposal) with
  | rejects status =>
      simp only [ne_eq, reduceCtorEq, not_false_eq_true, iff_true]
      exact givenBack_restoreResolve here unmarked claimed stamped content locked
  | raises =>
      simp only [ne_eq, not_true_eq_false, iff_false]
      intro back
      have gone := back.live
      rw [held.live, here] at gone
      cases gone
  | passes =>
      simp only [stop] at failed
      cases recorded : calls.contextRecorded with
      | true =>
          simp only [recorded, if_true] at failed
          exact absurd rfl failed.2
      | false =>
          simp only [Bool.false_eq_true, if_false, ne_eq, reduceCtorEq, not_false_eq_true,
            iff_true]
          cases calls.failureRecorded with
          | false => exact givenBack_restoreResolve here unmarked claimed stamped content locked
          | true =>
              rcases QueueState.perform_recordOutcome (.failed []) claimed stamped with
                ⟨marked, sameLocks⟩
              apply givenBack_restoreResolve here unmarked marked stamped content
              intro named
              exact (congrFun sameLocks entry.targetPath).trans (locked named)

end ResolveCalls

/-- An operator approves, and every call passes. -/
def passingCalls : ResolveCalls where
  decision := .approve
  sourceSession := PyStr.lit "s1"
  agentIdentity := PyStr.lit "operator"
  editedSha256 := none
  unencodable := false
  reattachCapture := .passes
  editedTooLarge := false
  editedSecret := false
  targetTier := some "T2".toList
  scanForAudit := .passes
  parsesFloat := fun _ => false
  getOrCreate := .passes
  baseRefreshed := true
  safeJoin := .passes
  checkCas := .passes
  scanTargetPath := .passes
  scanPostimage := .passes
  writingRuleGate := .passes
  validatePostimage := .passes
  contextRecorded := true
  failureRecorded := true

/-- The validation of the document rejects. -/
def invalidCalls : ResolveCalls :=
  { passingCalls with validatePostimage := .rejects "rejected_invalid_document".toList }

theorem reached_enqueuedState :
    Run TokenedStep .start [QueueOp.cut .start (.enqueue 1 ruleProposal 1) 2] enqueuedState :=
  Run.single ⟨trivial, enqueue_ruleProposal⟩

/-- A proposal of an agent whose name has two lines. -/
def twoLineProposal : PendingProposal :=
  { ruleProposal with
    metadata := [(.str (PyStr.lit "agent_identity"), .str (PyStr.lit "agent\nx"))] }

/-- The proposal is enqueued. -/
def twoLineState : QueueState :=
  QueueState.start.after (.enqueue 1 twoLineProposal 1) 2

end DataOlympus
