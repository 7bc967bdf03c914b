import DataOlympus.Pending.Queue

/-!
# Recovery of interrupted resolves

A resolve claims an entry, passes the gates, records its write context, writes and
commits, records the outcome, and finalizes or restores its claim.  It may raise or crash
between any two steps, and any file operation may be the last one performed.  Sweeps
reconcile the claims that are left, on the recorded outcome or on a search for the commit.
-/

namespace DataOlympus

open Lines Transition

/-- How far a resolve is. -/
inductive ResolveStage where
  /-- The entry is claimed. -/
  | gates
  /-- The write context is recorded. -/
  | ready
  /-- Nothing was committed, and this is about to be recorded. -/
  | failing
  /-- Nothing was committed, and the entry is about to be restored. -/
  | restoring
  /-- `git commit` succeeded. -/
  | made
  /-- The commit is recorded. -/
  | recorded
  /-- It is not known whether the commit was made. -/
  | unobserved
  deriving DecidableEq

namespace ResolveStage

/-- Nothing is committed yet. -/
def Writing (stage : ResolveStage) : Prop :=
  stage = gates ∨ stage = ready

/-- Nothing will be committed any more. -/
def Abandoning (stage : ResolveStage) : Prop :=
  stage = failing ∨ stage = restoring

/-- The commit was made. -/
def Committed (stage : ResolveStage) : Prop :=
  stage = made ∨ stage = recorded

/-- The stage after `git commit`, by `_classify_commit_error`. -/
def afterCommit : Option Int → ResolveStage
  | none => unobserved
  | some status => if status = 0 then made else if status < 0 then unobserved else failing

theorem afterCommit_cases (status : Option Int) :
    status = some 0 ∧ afterCommit status = made ∨
      (∃ code, status = some code ∧ 0 < code) ∧ afterCommit status = failing ∨
        afterCommit status = unobserved := by
  cases status with
  | none => exact .inr (.inr rfl)
  | some code =>
      rcases lt_trichotomy code 0 with negative | rfl | positive
      · simp [afterCommit, negative, negative.ne]
      · simp [afterCommit]
      · simp [afterCommit, positive, positive.ne', positive.not_gt]

end ResolveStage

/-- A resolve that is under way. -/
structure Resolve where
  id : PendingId
  path : RelPath
  stage : ResolveStage

/-- The queue, the resolves that are under way by their claim tokens, the commits that
carry a pending id and a path, and the entries that were finalized as approved. -/
structure RecoveryState where
  queue : QueueState
  resolves : ClaimToken → Option Resolve
  commits : List (PendingId × RelPath)
  approved : List PendingId

namespace RecoveryState

/-- A queue that was never used. -/
def start : RecoveryState :=
  ⟨.start, fun _ => none, [], []⟩

/-- One file operation. -/
def apply (state : RecoveryState) (action : FileAction) : RecoveryState :=
  { state with queue := state.queue.apply action }

/-- The state with one resolve at another stage, or gone. -/
def move (state : RecoveryState) (token : ClaimToken) (resolve : Option Resolve) :
    RecoveryState :=
  { state with resolves := Function.update state.resolves token resolve }

/-- The state after a commit landed, or did not. -/
def commit (state : RecoveryState) (id : PendingId) (path : RelPath) (landed : Bool) :
    RecoveryState :=
  { state with commits := if landed then (id, path) :: state.commits else state.commits }

/-- The state after an entry was finalized as approved, unless nothing was performed. -/
def approve (state : RecoveryState) (id : PendingId) (performed : List FileAction) :
    RecoveryState :=
  { state with approved := if performed = [] then state.approved else id :: state.approved }

/-- The commit of an entry was made. -/
def Committed (state : RecoveryState) (id : PendingId) : Prop :=
  ∃ path, (id, path) ∈ state.commits

end RecoveryState

/-- What else runs on the queue: proposals and direct commits, rejections, the lock
sweeps, and claims whose resolver never gets to work. -/
def QueueOp.Environment : QueueOp → Prop
  | enqueue .. | enqueueUnwritten .. | lockPath .. | unlockPath .. | reject ..
  | claimForResolve .. | gcOrphanLock .. | reclaimStaleAutoCommitLock .. => True
  | _ => False

/-- The commit search answers truthfully, if it answers. -/
def RecoveryState.Truthful (state : RecoveryState) (id : PendingId) (found : Option Bool) :
    Prop :=
  ∀ entry, state.queue.disk.claimed id = some entry → ∀ answer, found = some answer →
    (answer = true ↔ (id, entry.targetPath) ∈ state.commits)

inductive RecoveryLabel where
  | environment (op : QueueOp) (performed : List FileAction)
  | claim (token : ClaimToken)
  | gateRejects (token : ClaimToken)
  /-- The thread of a resolve raises past every handler that would restore the entry. -/
  | raise (token : ClaimToken)
  | recordContext (token : ClaimToken)
  | contextFails (token : ClaimToken)
  | addFails (token : ClaimToken)
  | commit (token : ClaimToken) (status : Option Int) (landed : Bool)
  | shaLookupFails (token : ClaimToken)
  | recordUnknown (token : ClaimToken)
  | recordCommitted (token : ClaimToken)
  | recordFailed (token : ClaimToken)
  | finalize (token : ClaimToken)
  | restore (token : ClaimToken)
  | reconcile (id : PendingId) (found : Option Bool)
  | restart

/-- A commit does not land where `git commit` exits with a positive status.  It can: a status
of zero reports a commit, but git may fail behind the update of the branch, as where it cannot
print its summary. -/
def RecoveryLabel.Declines : RecoveryLabel → Prop
  | .commit _ (some status) landed => 0 < status → landed = false
  | _ => True

/-- One step of a resolve, of a sweep or of the environment.  `performed` is the part of
the planned file operations that was performed. -/
inductive RecoveryStep : RecoveryState → RecoveryLabel → RecoveryState → Prop
  | environment (state : RecoveryState) (op : QueueOp) (performed : List FileAction)
      (other : op.Environment) (admissible : op.Admissible state.queue)
      (cut : performed <+: op.plan state.queue.disk) :
      RecoveryStep state (.environment op performed)
        (execute RecoveryState.apply state performed)
  | claim (state : RecoveryState) (id : PendingId) (token : ClaimToken) (now : Time)
      (editedSha256 : Option Text) (entry : PendingEntry) (actions : List FileAction)
      (admissible : (QueueOp.claimForResolve id token now editedSha256).Admissible state.queue)
      (found : state.queue.disk.live id = some entry)
      (planned : state.queue.disk.claimForResolve id token now editedSha256 = .ok actions) :
      RecoveryStep state (.claim token)
        ((execute RecoveryState.apply state actions).move token
          (some ⟨id, entry.targetPath, .gates⟩))
  | gateRejects (state : RecoveryState) (token : ClaimToken) (id : PendingId) (path : RelPath)
      (running : state.resolves token = some ⟨id, path, .gates⟩) :
      RecoveryStep state (.gateRejects token)
        (state.move token (some ⟨id, path, .restoring⟩))
  | raise (state : RecoveryState) (token : ClaimToken) :
      RecoveryStep state (.raise token) (state.move token none)
  | recordContext (state : RecoveryState) (token : ClaimToken) (id : PendingId)
      (path : RelPath) (context : WriteContext) (actions : List FileAction)
      (running : state.resolves token = some ⟨id, path, .gates⟩)
      (planned : state.queue.disk.recordWriteContext id (some token) context = .ok actions) :
      RecoveryStep state (.recordContext token)
        ((execute RecoveryState.apply state actions).move token (some ⟨id, path, .ready⟩))
  | contextFails (state : RecoveryState) (token : ClaimToken) (id : PendingId)
      (path : RelPath) (context : WriteContext) (performed : List FileAction)
      (running : state.resolves token = some ⟨id, path, .gates⟩)
      (cut : performed <+:
        (state.queue.disk.recordWriteContext id (some token) context).actions) :
      RecoveryStep state (.contextFails token)
        ((execute RecoveryState.apply state performed).move token
          (some ⟨id, path, .failing⟩))
  | addFails (state : RecoveryState) (token : ClaimToken) (id : PendingId) (path : RelPath)
      (running : state.resolves token = some ⟨id, path, .ready⟩) :
      RecoveryStep state (.addFails token) (state.move token (some ⟨id, path, .failing⟩))
  | commit (state : RecoveryState) (token : ClaimToken) (id : PendingId) (path : RelPath)
      (status : Option Int) (landed : Bool)
      (running : state.resolves token = some ⟨id, path, .ready⟩)
      (reported : status = some 0 → landed = true) :
      RecoveryStep state (.commit token status landed)
        ((state.commit id path landed).move token
          (some ⟨id, path, ResolveStage.afterCommit status⟩))
  | shaLookupFails (state : RecoveryState) (token : ClaimToken) (id : PendingId)
      (path : RelPath) (running : state.resolves token = some ⟨id, path, .made⟩) :
      RecoveryStep state (.shaLookupFails token)
        (state.move token (some ⟨id, path, .unobserved⟩))
  | recordUnknown (state : RecoveryState) (token : ClaimToken) (id : PendingId)
      (path : RelPath) (reason : Text) (performed : List FileAction)
      (running : state.resolves token = some ⟨id, path, .unobserved⟩)
      (cut : performed <+:
        (state.queue.disk.recordOutcome id (some token) (.unknown reason)).actions) :
      RecoveryStep state (.recordUnknown token)
        ((execute RecoveryState.apply state performed).move token none)
  | recordCommitted (state : RecoveryState) (token : ClaimToken) (id : PendingId)
      (path : RelPath) (sha : Text) (actions : List FileAction)
      (running : state.resolves token = some ⟨id, path, .made⟩)
      (planned : state.queue.disk.recordOutcome id (some token) (.committed sha) =
        .ok actions) :
      RecoveryStep state (.recordCommitted token)
        ((execute RecoveryState.apply state actions).move token
          (some ⟨id, path, .recorded⟩))
  /-- The write of the outcome failed is tried, and its errors are suppressed. -/
  | recordFailed (state : RecoveryState) (token : ClaimToken) (id : PendingId)
      (path : RelPath) (reason : Text) (performed : List FileAction)
      (running : state.resolves token = some ⟨id, path, .failing⟩)
      (cut : performed <+:
        (state.queue.disk.recordOutcome id (some token) (.failed reason)).actions) :
      RecoveryStep state (.recordFailed token)
        ((execute RecoveryState.apply state performed).move token
          (some ⟨id, path, .restoring⟩))
  | finalize (state : RecoveryState) (token : ClaimToken) (id : PendingId) (path : RelPath)
      (performed : List FileAction)
      (running : state.resolves token = some ⟨id, path, .recorded⟩)
      (cut : performed <+: (state.queue.disk.finalizeResolve id path (some token)).actions) :
      RecoveryStep state (.finalize token)
        (((execute RecoveryState.apply state performed).approve id performed).move token none)
  | restore (state : RecoveryState) (token : ClaimToken) (id : PendingId) (path : RelPath)
      (performed : List FileAction)
      (running : state.resolves token = some ⟨id, path, .restoring⟩)
      (cut : performed <+: (state.queue.disk.restoreResolve id (some token)).actions) :
      RecoveryStep state (.restore token)
        ((execute RecoveryState.apply state performed).move token none)
  | reconcile (state : RecoveryState) (id : PendingId) (minAge now : Time)
      (found : Option Bool) (performed : List FileAction)
      (truthful : state.Truthful id found)
      (cut : performed <+: (state.queue.disk.reconcileOne id minAge now found).actions) :
      RecoveryStep state (.reconcile id found)
        ((execute RecoveryState.apply state performed).approve id
          (if (state.queue.disk.dueClaim id minAge now).any
              fun entry => Disk.evident entry found
            then performed else []))
  /-- The process is gone, and with it every resolve. -/
  | restart (state : RecoveryState) :
      RecoveryStep state .restart { state with resolves := fun _ => none }

namespace RecoveryState

/-- A pending entry carries nothing of a claim, and was not committed. -/
structure LiveSound (state : RecoveryState) (id : PendingId) (entry : PendingEntry) :
    Prop where
  unstamped : entry.claimToken = none
  no_outcome : entry.writeOutcome = none
  uncommitted : ¬ state.Committed id

/-- The outcome of a claim is the truth, and a resolve that gave up its claim committed
nothing. -/
structure ClaimSound (state : RecoveryState) (id : PendingId) (entry : PendingEntry) :
    Prop where
  failed : ∀ reason, entry.writeOutcome = some (.failed reason) → ¬ state.Committed id
  committed : ∀ sha, entry.writeOutcome = some (.committed sha) → state.Committed id
  unstamped : entry.claimToken = none → entry.writeOutcome = none
  abandoned : ∀ token path stage, state.resolves token = some ⟨id, path, stage⟩ →
    stage.Abandoning → entry.claimToken = some token → ¬ state.Committed id

/-- It does not depend on the files. -/
theorem ClaimSound.apply {state : RecoveryState} {id : PendingId} {entry : PendingEntry}
    (sound : state.ClaimSound id entry) (action : FileAction) :
    (state.apply action).ClaimSound id entry :=
  ⟨sound.failed, sound.committed, sound.unstamped, sound.abandoned⟩

/-- A resolve that has not committed yet holds the claim on disk. -/
structure WriteSound (state : RecoveryState) (token : ClaimToken) (id : PendingId) :
    Prop where
  not_live : state.queue.disk.live id = none
  uncommitted : ¬ state.Committed id
  holds : ∃ entry, state.queue.disk.claimed id = some entry ∧
    entry.claimToken = some token ∧ entry.writeOutcome = none

/-- The invariant of recovery. -/
structure Sound (state : RecoveryState) : Prop where
  live : ∀ id entry, state.queue.disk.live id = some entry → state.LiveSound id entry
  claimed : ∀ id entry, state.queue.disk.claimed id = some entry → state.ClaimSound id entry
  writing : ∀ token id path stage, state.resolves token = some ⟨id, path, stage⟩ →
    stage.Writing → state.WriteSound token id
  made : ∀ token id path stage, state.resolves token = some ⟨id, path, stage⟩ →
    stage.Committed → state.Committed id
  minted : ∀ token resolve, state.resolves token = some resolve →
    token ∈ state.queue.tokens
  known : ∀ id, (∃ entry, state.queue.disk.Holds id entry) ∨ state.Committed id →
    ∃ lock ∈ state.queue.acquired, lock.2.holder = .pending id
  approved : ∀ id ∈ state.approved, state.Committed id

/-- No resolve of the entry is about to write. -/
def NotWriting (state : RecoveryState) (id : PendingId) : Prop :=
  ∀ token path stage, state.resolves token = some ⟨id, path, stage⟩ → ¬ stage.Writing

namespace Sound

variable {state : RecoveryState}

theorem start : RecoveryState.start.Sound := by
  constructor
  · intro id entry live
    cases live
  · intro id entry claimed
    cases claimed
  · intro token id path stage running
    cases running
  · intro token id path stage running
    cases running
  · intro token resolve running
    cases running
  · rintro id (⟨entry, live | claimed⟩ | ⟨path, member⟩)
    · cases live
    · cases claimed
    · cases member
  · intro id member
    cases member

theorem notWriting_of_live (sound : state.Sound) {id : PendingId} {entry : PendingEntry}
    (live : state.queue.disk.live id = some entry) : state.NotWriting id := by
  intro token path stage running writing
  have notLive := (sound.writing token id path stage running writing).not_live
  cases live.symm.trans notLive

theorem notWriting_of_committed (sound : state.Sound) {id : PendingId}
    (committed : state.Committed id) : state.NotWriting id := by
  intro token path stage running writing
  exact (sound.writing token id path stage running writing).uncommitted committed

theorem notWriting_of_outcome (sound : state.Sound) {id : PendingId} {entry : PendingEntry}
    (claimed : state.queue.disk.claimed id = some entry)
    (recorded : entry.writeOutcome ≠ none) : state.NotWriting id := by
  intro token path stage running writing
  rcases (sound.writing token id path stage running writing).holds with
    ⟨held, heldHere, -, noOutcome⟩
  cases claimed.symm.trans heldHere
  exact recorded noOutcome

/-- The claim on disk belongs to a resolve that does not write any more. -/
theorem notWriting_of_token (sound : state.Sound) {id : PendingId} {entry : PendingEntry}
    {token : ClaimToken} (claimed : state.queue.disk.claimed id = some entry)
    (stamped : entry.claimToken = some token)
    (idle : ∀ path stage, state.resolves token = some ⟨id, path, stage⟩ → ¬ stage.Writing) :
    state.NotWriting id := by
  intro other path stage running writing
  rcases (sound.writing other id path stage running writing).holds with
    ⟨held, heldHere, heldToken, -⟩
  cases claimed.symm.trans heldHere
  cases stamped.symm.trans heldToken
  exact idle path stage running writing

/-- The files change, and what is on disk afterwards is sound. -/
theorem requeue (sound : state.Sound) {queue : QueueState}
    (acquired : state.queue.acquired ⊆ queue.acquired)
    (tokens : state.queue.tokens ⊆ queue.tokens)
    (live : ∀ id entry, queue.disk.live id = some entry → state.LiveSound id entry)
    (claimed : ∀ id entry, queue.disk.claimed id = some entry → state.ClaimSound id entry)
    (writing : ∀ token id path stage, state.resolves token = some ⟨id, path, stage⟩ →
      stage.Writing → queue.disk.live id = none ∧
        ∃ entry, queue.disk.claimed id = some entry ∧ entry.claimToken = some token ∧
          entry.writeOutcome = none)
    (known : ∀ id entry, queue.disk.Holds id entry →
      ∃ lock ∈ queue.acquired, lock.2.holder = .pending id) :
    ({ state with queue := queue } : RecoveryState).Sound := by
  constructor
  · intro id entry found
    rcases live id entry found with ⟨unstamped, noOutcome, uncommitted⟩
    exact ⟨unstamped, noOutcome, uncommitted⟩
  · intro id entry found
    rcases claimed id entry found with ⟨failed, committed, unstamped, abandoned⟩
    exact ⟨failed, committed, unstamped, abandoned⟩
  · intro token id path stage running isWriting
    rcases writing token id path stage running isWriting with ⟨notLive, holds⟩
    exact ⟨notLive, (sound.writing token id path stage running isWriting).uncommitted, holds⟩
  · exact sound.made
  · intro token resolve running
    exact tokens (sound.minted token resolve running)
  · rintro id (⟨entry, held⟩ | committed)
    · exact known id entry held
    · rcases sound.known id (.inr committed) with ⟨lock, member, holder⟩
      exact ⟨lock, acquired member, holder⟩
  · exact sound.approved

theorem known_of_held (sound : state.Sound) {id : PendingId} {entry : PendingEntry}
    (held : state.queue.disk.Holds id entry) :
    ∃ lock ∈ state.queue.acquired, lock.2.holder = .pending id :=
  sound.known id (.inl ⟨entry, held⟩)

/-- Lock files do not matter. -/
theorem lockAction (sound : state.Sound) {action : FileAction}
    (live : ∀ disk : Disk, (disk.apply action).live = disk.live)
    (claimed : ∀ disk : Disk, (disk.apply action).claimed = disk.claimed) :
    (state.apply action).Sound := by
  apply sound.requeue (List.subset_append_right _ _) (List.subset_append_right _ _)
  · intro id entry found
    rw [QueueState.disk_apply, live] at found
    exact sound.live id entry found
  · intro id entry found
    rw [QueueState.disk_apply, claimed] at found
    exact sound.claimed id entry found
  · intro token id path stage running writing
    rw [QueueState.disk_apply, live, claimed]
    rcases sound.writing token id path stage running writing with ⟨notLive, -, holds⟩
    exact ⟨notLive, holds⟩
  · intro id entry held
    unfold Disk.Holds at held
    rw [QueueState.disk_apply, live, claimed] at held
    rcases sound.known_of_held held with ⟨lock, member, holder⟩
    exact ⟨lock, List.mem_append_right _ member, holder⟩

theorem linkLock (sound : state.Sound) (path : RelPath) (record : LockRecord) :
    (state.apply (.linkLock path record)).Sound :=
  sound.lockAction (fun _ => rfl) (fun _ => rfl)

theorem unlinkLock (sound : state.Sound) (path : RelPath) :
    (state.apply (.unlinkLock path)).Sound :=
  sound.lockAction (fun _ => rfl) (fun _ => rfl)

/-- An entry becomes pending, by the rename of a complete file. -/
theorem publish (sound : state.Sound) (queue : QueueState) (id : PendingId)
    (entry : PendingEntry) (acquired : state.queue.acquired ⊆ queue.acquired)
    (tokens : state.queue.tokens ⊆ queue.tokens)
    (live : queue.disk.live = Function.update state.queue.disk.live id (some entry))
    (claimed : queue.disk.claimed = state.queue.disk.claimed)
    (liveSound : state.LiveSound id entry) (notWriting : state.NotWriting id)
    (known : ∃ lock ∈ state.queue.acquired, lock.2.holder = .pending id) :
    ({ state with queue := queue } : RecoveryState).Sound := by
  apply sound.requeue acquired tokens
  · intro other found liveHere
    by_cases same : other = id
    · subst same
      rw [live, Function.update_self] at liveHere
      cases liveHere
      exact liveSound
    · rw [live, Function.update_of_ne same] at liveHere
      exact sound.live other found liveHere
  · intro other found claimedHere
    rw [claimed] at claimedHere
    exact sound.claimed other found claimedHere
  · intro token other path stage running writing
    have different : other ≠ id := by
      rintro rfl
      exact notWriting token path stage running writing
    rw [live, claimed, Function.update_of_ne different]
    rcases sound.writing token other path stage running writing with ⟨notLive, -, holds⟩
    exact ⟨notLive, holds⟩
  · intro other found held
    by_cases same : other = id
    · subst same
      rcases known with ⟨lock, member, holder⟩
      exact ⟨lock, acquired member, holder⟩
    · unfold Disk.Holds at held
      rw [live, claimed, Function.update_of_ne same] at held
      rcases sound.known_of_held held with ⟨lock, member, holder⟩
      exact ⟨lock, acquired member, holder⟩

/-- The sidecar of an entry is written or removed. -/
theorem reclaim (sound : state.Sound) (queue : QueueState) (id : PendingId)
    (claim : Option PendingEntry) (acquired : state.queue.acquired ⊆ queue.acquired)
    (tokens : state.queue.tokens ⊆ queue.tokens)
    (live : ∀ other entry, queue.disk.live other = some entry →
      state.queue.disk.live other = some entry)
    (claimed : queue.disk.claimed = Function.update state.queue.disk.claimed id claim)
    (claimSound : ∀ entry, claim = some entry → state.ClaimSound id entry)
    (known : ∃ lock ∈ state.queue.acquired, lock.2.holder = .pending id)
    (writing : ∀ token path stage, state.resolves token = some ⟨id, path, stage⟩ →
      stage.Writing → ∃ entry, claim = some entry ∧ entry.claimToken = some token ∧
        entry.writeOutcome = none) :
    ({ state with queue := queue } : RecoveryState).Sound := by
  apply sound.requeue acquired tokens
  · intro other found liveHere
    exact sound.live other found (live other found liveHere)
  · intro other found claimedHere
    by_cases same : other = id
    · subst same
      rw [claimed, Function.update_self] at claimedHere
      exact claimSound found claimedHere
    · rw [claimed, Function.update_of_ne same] at claimedHere
      exact sound.claimed other found claimedHere
  · intro token other path stage running isWriting
    have sourceSound := sound.writing token other path stage running isWriting
    constructor
    · rw [Option.eq_none_iff_forall_ne_some]
      intro found liveHere
      cases (live other found liveHere).symm.trans sourceSound.not_live
    · by_cases same : other = id
      · subst same
        rw [claimed, Function.update_self]
        exact writing token path stage running isWriting
      · rw [claimed, Function.update_of_ne same]
        exact sourceSound.holds
  · intro other found held
    by_cases same : other = id
    · subst same
      rcases known with ⟨lock, member, holder⟩
      exact ⟨lock, acquired member, holder⟩
    · have heldBefore : ∃ entry, state.queue.disk.Holds other entry := by
        rcases held with liveHere | claimedHere
        · exact ⟨found, .inl (live other found liveHere)⟩
        · rw [claimed, Function.update_of_ne same] at claimedHere
          exact ⟨found, .inr claimedHere⟩
      rcases sound.known other (.inl heldBefore) with ⟨lock, member, holder⟩
      exact ⟨lock, acquired member, holder⟩

theorem writeClaimed (sound : state.Sound) {id : PendingId} {entry : PendingEntry}
    (claimSound : state.ClaimSound id entry)
    (known : ∃ lock ∈ state.queue.acquired, lock.2.holder = .pending id)
    (writing : ∀ token path stage, state.resolves token = some ⟨id, path, stage⟩ →
      stage.Writing → entry.claimToken = some token ∧ entry.writeOutcome = none) :
    (state.apply (.writeClaimed id entry)).Sound := by
  apply sound.reclaim (state.queue.apply (.writeClaimed id entry)) id (some entry)
    (List.subset_append_right _ _) (List.subset_append_right _ _) (fun _ _ live => live) rfl
    _ known
  · intro token path stage running isWriting
    exact ⟨entry, rfl, writing token path stage running isWriting⟩
  · intro written same
    cases same
    exact claimSound

theorem removeClaimed (sound : state.Sound) {id : PendingId}
    (notWriting : state.NotWriting id)
    (known : ∃ lock ∈ state.queue.acquired, lock.2.holder = .pending id) :
    (state.apply (.removeClaimed id)).Sound := by
  apply sound.reclaim (state.queue.apply (.removeClaimed id)) id none
    (List.subset_append_right _ _) (List.subset_append_right _ _) (fun _ _ live => live) rfl
    _ known
  · intro token path stage running isWriting
    exact absurd isWriting (notWriting token path stage running)
  · intro written impossible
    cases impossible

theorem renameLive (sound : state.Sound) {id : PendingId} {entry : PendingEntry}
    (found : state.queue.disk.live id = some entry) :
    (state.apply (.renameLive id)).Sound := by
  have liveSound := sound.live id entry found
  apply sound.reclaim (state.queue.apply (.renameLive id)) id (some entry)
    (List.subset_append_right _ _) (List.subset_append_right _ _) _ _ _
    (sound.known_of_held (.inl found))
  · intro token path stage running isWriting
    exact absurd isWriting (sound.notWriting_of_live found token path stage running)
  · intro other live moved
    by_cases same : other = id
    · subst same
      simp [Disk.apply] at moved
    · simpa only [QueueState.disk_apply, Disk.apply, Function.update_of_ne same] using moved
  · simp [Disk.apply, found]
  · intro written same
    cases same
    constructor
    · intro reason recorded
      cases liveSound.no_outcome.symm.trans recorded
    · intro sha recorded
      cases liveSound.no_outcome.symm.trans recorded
    · intro _
      exact liveSound.no_outcome
    · intro token path stage running abandoning stamped
      cases liveSound.unstamped.symm.trans stamped

theorem writeLive (sound : state.Sound) {id : PendingId} {proposal : PendingProposal}
    (uncommitted : ¬ state.Committed id) (notWriting : state.NotWriting id)
    (known : ∃ lock ∈ state.queue.acquired, lock.2.holder = .pending id) :
    (state.apply (.writeLive id (.queued proposal))).Sound :=
  sound.publish (state.queue.apply (.writeLive id (.queued proposal))) id (.queued proposal)
    (List.subset_append_right _ _) (List.subset_append_right _ _) rfl rfl
    ⟨rfl, rfl, uncommitted⟩ notWriting known

theorem writeRestoring (sound : state.Sound) (id : PendingId) (entry : PendingEntry) :
    (state.apply (.writeRestoring id entry)).Sound :=
  sound.lockAction (fun _ => rfl) (fun _ => rfl)

/-- The entry is rewritten through its scratch sidecar. -/
theorem republish (sound : state.Sound) {id : PendingId} {entry : PendingEntry}
    (uncommitted : ¬ state.Committed id) (notWriting : state.NotWriting id)
    (known : ∃ lock ∈ state.queue.acquired, lock.2.holder = .pending id) :
    ((state.apply (.writeRestoring id entry.stripped)).apply (.renameRestoring id)).Sound := by
  apply sound.publish
    ((state.queue.apply (.writeRestoring id entry.stripped)).apply (.renameRestoring id)) id
    entry.stripped (List.subset_append_right _ _) (List.subset_append_right _ _) _ rfl
    ⟨rfl, rfl, uncommitted⟩ notWriting known
  simp [Disk.apply]

/-- A claim is finished where nobody writes for it. -/
theorem keeps_finishClaim (sound : state.Sound) {id : PendingId}
    (notWriting : state.NotWriting id)
    (known : ∃ lock ∈ state.queue.acquired, lock.2.holder = .pending id) (disk : Disk)
    (path : RelPath) :
    Keeps RecoveryState.apply Sound state
      (.removeClaimed id :: disk.releaseLockOwnedBy path id) := by
  have removed := sound.removeClaimed notWriting known
  rcases disk.releaseLockOwnedBy_cases path id with ⟨-, planned⟩ | ⟨-, planned⟩
  · rw [planned]
    exact ⟨removed, removed.unlinkLock path, trivial⟩
  · rw [planned]
    exact ⟨removed, trivial⟩

/-- A fenced restore of a claim that was not committed. -/
theorem keeps_restoreResolve (sound : state.Sound) {id : PendingId} {token : ClaimToken}
    {actions : List FileAction}
    (planned : state.queue.disk.restoreResolve id (some token) = .ok actions)
    (uncommitted : ¬ state.Committed id) (notWriting : state.NotWriting id) :
    Keeps RecoveryState.apply Sound state actions := by
  rcases Disk.restoreResolve_eq_ok_iff.mp planned with
    ⟨impossible, -⟩ | ⟨entry, -, claimed, -, rfl⟩
  · cases impossible
  · have known := sound.known_of_held (.inr claimed)
    have published : ((state.apply (.writeRestoring id entry.stripped)).apply
        (.renameRestoring id)).Sound := sound.republish uncommitted notWriting known
    exact ⟨sound.writeRestoring id _, published, published.removeClaimed notWriting known,
      trivial⟩

/-- The stamp of a new claim. -/
theorem claimSound_stamp (sound : state.Sound) {id : PendingId} {entry : PendingEntry}
    {token : ClaimToken} (live : state.queue.disk.live id = some entry)
    (fresh : token ∉ state.queue.tokens) (now : Time) (digest : Option Text) :
    state.ClaimSound id
      { Disk.stamp entry token now with effectivePostimageSha256 := digest } := by
  have liveSound := sound.live id entry live
  have noOutcome : (Disk.stamp entry token now).writeOutcome = none := liveSound.no_outcome
  constructor
  · intro reason recorded
    cases noOutcome.symm.trans recorded
  · intro sha recorded
    cases noOutcome.symm.trans recorded
  · intro _
    exact noOutcome
  · intro other path stage running abandoning stamped
    cases stamped
    exact absurd (sound.minted token _ running) fresh

/-- A claim moves the entry and stamps it. -/
theorem claimed_stamp (sound : state.Sound) {id : PendingId} {entry : PendingEntry}
    {token : ClaimToken} (now : Time) (live : state.queue.disk.live id = some entry)
    (fresh : token ∉ state.queue.tokens) :
    ((state.apply (.renameLive id)).apply
      (.writeClaimed id (Disk.stamp entry token now))).Sound := by
  have renamed := sound.renameLive live
  have stamp : state.ClaimSound id (Disk.stamp entry token now) :=
    sound.claimSound_stamp live fresh now entry.effectivePostimageSha256
  apply renamed.writeClaimed (stamp.apply _) (sound.known_of_held (.inl live))
  intro other path stage running writing
  exact absurd writing (sound.notWriting_of_live live other path stage running)

theorem keeps_claimForResolve (sound : state.Sound) {id : PendingId} {token : ClaimToken}
    {now : Time} {editedSha256 : Option Text} {actions : List FileAction}
    (fresh : token ∉ state.queue.tokens)
    (planned : state.queue.disk.claimForResolve id token now editedSha256 = .ok actions) :
    Keeps RecoveryState.apply Sound state actions := by
  rcases Disk.claimForResolve_eq_ok_iff.mp planned with ⟨entry, live, rfl⟩
  have stamped := sound.claimed_stamp now live fresh
  refine ⟨sound.renameLive live, stamped, ?_⟩
  cases editedSha256 with
  | none => exact trivial
  | some digest =>
      have digested := sound.claimSound_stamp live fresh now (some digest)
      constructor
      · apply stamped.writeClaimed ((digested.apply _).apply _)
          (sound.known_of_held (.inl live))
        intro other path stage running writing
        exact absurd writing (sound.notWriting_of_live live other path stage running)
      · exact trivial

theorem keeps_consume (sound : state.Sound) {id : PendingId} {token : ClaimToken}
    {now : Time} {actions : List FileAction} (fresh : token ∉ state.queue.tokens)
    (planned : state.queue.disk.consume id token now = .ok actions) :
    Keeps RecoveryState.apply Sound state actions := by
  rcases Disk.consume_eq_ok_iff.mp planned with ⟨entry, live, rfl⟩
  have stamped := sound.claimed_stamp now live fresh
  refine ⟨sound.renameLive live, stamped, stamped.keeps_finishClaim ?_ ?_ _ _⟩
  · exact sound.notWriting_of_live live
  · exact sound.known_of_held (.inl live)

/-- The outcome or the context of a claim is written by its holder. -/
theorem keeps_rewrite (sound : state.Sound) {id : PendingId} {entry written : PendingEntry}
    (claimed : state.queue.disk.claimed id = some entry)
    (claimSound : state.ClaimSound id written)
    (writing : ∀ token path stage, state.resolves token = some ⟨id, path, stage⟩ →
      stage.Writing → written.claimToken = some token ∧ written.writeOutcome = none) :
    Keeps RecoveryState.apply Sound state [.writeClaimed id written] :=
  ⟨sound.writeClaimed claimSound (sound.known_of_held (.inr claimed)) writing, trivial⟩

/-- A rewrite that leaves the claim and its outcome alone. -/
theorem keeps_annotate (sound : state.Sound) {id : PendingId} {entry written : PendingEntry}
    (claimed : state.queue.disk.claimed id = some entry)
    (sameToken : written.claimToken = entry.claimToken)
    (sameOutcome : written.writeOutcome = entry.writeOutcome) :
    Keeps RecoveryState.apply Sound state [.writeClaimed id written] := by
  have claimSound := sound.claimed id entry claimed
  apply sound.keeps_rewrite claimed
  · constructor
    · rw [sameOutcome]
      exact claimSound.failed
    · rw [sameOutcome]
      exact claimSound.committed
    · rw [sameToken, sameOutcome]
      exact claimSound.unstamped
    · rw [sameToken]
      exact claimSound.abandoned
  · intro token path stage running isWriting
    rcases (sound.writing token id path stage running isWriting).holds with
      ⟨held, heldHere, heldToken, noOutcome⟩
    cases claimed.symm.trans heldHere
    exact ⟨sameToken.trans heldToken, sameOutcome.trans noOutcome⟩

/-- The resolve records the outcome of its write, which is the truth. -/
theorem keeps_recordOutcome (sound : state.Sound) {id : PendingId} {token : ClaimToken}
    {outcome : WriteOutcome} {actions : List FileAction}
    (planned : state.queue.disk.recordOutcome id (some token) outcome = .ok actions)
    (failed : ∀ reason, outcome = .failed reason → ∀ entry,
      state.queue.disk.claimed id = some entry → entry.claimToken = some token →
        ¬ state.Committed id)
    (committed : ∀ sha, outcome = .committed sha → state.Committed id)
    (idle : ∀ path stage, state.resolves token = some ⟨id, path, stage⟩ → ¬ stage.Writing) :
    Keeps RecoveryState.apply Sound state actions := by
  rcases Disk.recordOutcome_eq_ok_iff.mp planned with ⟨entry, owned, rfl⟩
  rcases Disk.checkToken_eq_ok_iff.mp owned with ⟨claimed, impossible | passes⟩
  · cases impossible
  · have claimSound := sound.claimed id entry claimed
    apply sound.keeps_rewrite claimed
    · constructor
      · intro reason recorded
        exact failed reason (Option.some.inj recorded) entry claimed passes.symm
      · intro sha recorded
        exact committed sha (Option.some.inj recorded)
      · intro unstamped
        cases passes.trans unstamped
      · exact claimSound.abandoned
    · intro other path stage running isWriting
      exact absurd isWriting
        (sound.notWriting_of_token claimed passes.symm idle other path stage running)

/-- The new entry and lock of a proposal. -/
theorem keeps_enqueue (sound : state.Sound) {id : PendingId} {proposal : PendingProposal}
    {now : Time} (fresh : state.queue.NewLock ⟨.pending id, now⟩) :
    Keeps RecoveryState.apply Sound state
      [.linkLock proposal.targetPath ⟨.pending id, now⟩, .writeLive id (.queued proposal)] := by
  have unknown : ¬ ∃ lock ∈ state.queue.acquired, lock.2.holder = .pending id := by
    rintro ⟨lock, member, holder⟩
    exact (fresh lock member).2 id rfl holder
  have linked := sound.linkLock proposal.targetPath ⟨.pending id, now⟩
  refine ⟨linked, linked.writeLive ?_ ?_ ?_, trivial⟩
  · intro committed
    exact unknown (sound.known id (.inr committed))
  · intro token path stage running writing
    rcases (sound.writing token id path stage running writing).holds with ⟨entry, claimed, -⟩
    exact unknown (sound.known_of_held (.inr claimed))
  · exact ⟨_, List.mem_cons_self, rfl⟩

theorem keeps_unlinks (sound : state.Sound) {actions : List FileAction}
    (unlinks : ∀ action ∈ actions, ∃ path, action = .unlinkLock path) :
    Keeps RecoveryState.apply Sound state actions := by
  induction actions generalizing state with
  | nil => exact trivial
  | cons action rest ih =>
      rcases unlinks action List.mem_cons_self with ⟨path, rfl⟩
      have unlinked := sound.unlinkLock path
      exact ⟨unlinked, ih unlinked fun other later => unlinks other (List.mem_cons_of_mem _ later)⟩

/-- What else runs on the queue keeps recovery sound. -/
theorem keeps_environment (sound : state.Sound) {op : QueueOp} (other : op.Environment)
    (admissible : op.Admissible state.queue) :
    Keeps RecoveryState.apply Sound state (op.plan state.queue.disk) := by
  unfold QueueOp.plan
  apply FilePlan.actions_cases (motive := Keeps RecoveryState.apply Sound state)
  · exact trivial
  · intro actions ran
    cases op with
    | enqueue id proposal now =>
        rcases Disk.enqueue_eq_ok_iff.mp ran with ⟨-, rfl⟩
        exact sound.keeps_enqueue (admissible.lock_new _ rfl)
    | enqueueUnwritten id path now =>
        rcases Disk.enqueueUnwritten_eq_ok_iff.mp ran with ⟨-, rfl⟩
        have linked := sound.linkLock path ⟨.pending id, now⟩
        exact ⟨linked, linked.unlinkLock path, trivial⟩
    | lockPath path owner now =>
        rcases Disk.acquireLock_eq_ok_iff.mp ran with ⟨-, rfl⟩
        exact ⟨sound.linkLock path _, trivial⟩
    | unlockPath path owner acquiredAt =>
        cases ran
        apply sound.keeps_unlinks
        intro action member
        exact ⟨path, (Disk.mem_releaseLock_iff.mp member).1⟩
    | reject id token now => exact sound.keeps_consume (admissible.token_new token rfl) ran
    | claimForResolve id token now editedSha256 =>
        exact sound.keeps_claimForResolve (admissible.token_new token rfl) ran
    | gcOrphanLock path =>
        cases ran
        apply sound.keeps_unlinks
        intro action member
        exact ⟨path, (Disk.mem_gcOrphanLock_iff.mp member).1⟩
    | reclaimStaleAutoCommitLock path maxAge now =>
        cases ran
        apply sound.keeps_unlinks
        intro action member
        exact ⟨path, (Disk.mem_reclaimStaleAutoCommitLock_iff.mp member).1⟩
    | _ => cases other

/-- Evidence of a commit is the truth. -/
theorem committed_of_evident (sound : state.Sound) {id : PendingId} {entry : PendingEntry}
    {found : Option Bool} (truthful : state.Truthful id found)
    (claimed : state.queue.disk.claimed id = some entry)
    (known : Disk.evident entry found = true) : state.Committed id := by
  have located : found = some true → state.Committed id := by
    intro answered
    exact ⟨entry.targetPath, (truthful entry claimed true answered).mp rfl⟩
  unfold Disk.evident at known
  split at known
  · rename_i sha recorded
    exact (sound.claimed id entry claimed).committed sha recorded
  · cases known
  · exact located (of_decide_eq_true known)

theorem keeps_reconcileOne (sound : state.Sound) {id : PendingId} {minAge now : Time}
    {found : Option Bool} (truthful : state.Truthful id found) :
    Keeps RecoveryState.apply Sound state
      (state.queue.disk.reconcileOne id minAge now found).actions := by
  apply FilePlan.actions_cases (motive := Keeps RecoveryState.apply Sound state)
  · exact trivial
  · intro actions ran
    rcases Disk.reconcileOne_cases ran with
      rfl | ⟨entry, due, ⟨known, finalized⟩ | ⟨⟨reason, recorded⟩, restored⟩ | rfl⟩
    · exact trivial
    · have claimed := Disk.claimed_of_dueClaim due
      have committed := sound.committed_of_evident truthful claimed known
      rcases Disk.finalizeResolve_eq_ok_iff.mp finalized with ⟨-, rfl⟩
      exact sound.keeps_finishClaim (sound.notWriting_of_committed committed)
        (sound.known_of_held (.inr claimed)) _ _
    · have claimed := Disk.claimed_of_dueClaim due
      have claimSound := sound.claimed id entry claimed
      have uncommitted := claimSound.failed reason recorded
      have notWriting : state.NotWriting id := by
        apply sound.notWriting_of_outcome claimed
        rw [recorded]
        exact Option.some_ne_none _
      -- a claim with an outcome is stamped, hence the restore is fenced
      cases stamped : entry.claimToken with
      | none => cases recorded.symm.trans (claimSound.unstamped stamped)
      | some token =>
          rw [stamped] at restored
          exact sound.keeps_restoreResolve restored uncommitted notWriting
    · exact sound.keeps_annotate (Disk.claimed_of_dueClaim due) rfl rfl

/-- A resolve is gone. -/
theorem move_none (sound : state.Sound) (token : ClaimToken) :
    (state.move token none).Sound := by
  have before : ∀ other resolve, (state.move token none).resolves other = some resolve →
      state.resolves other = some resolve := by
    intro other resolve running
    by_cases same : other = token
    · subst same
      simp [move] at running
    · simpa only [move, Function.update_of_ne same] using running
  constructor
  · intro id entry live
    have liveSound := sound.live id entry live
    exact ⟨liveSound.unstamped, liveSound.no_outcome, liveSound.uncommitted⟩
  · intro id entry claimed
    have claimSound := sound.claimed id entry claimed
    exact ⟨claimSound.failed, claimSound.committed, claimSound.unstamped,
      fun other path stage running => claimSound.abandoned other path stage (before _ _ running)⟩
  · intro other id path stage running writing
    have writeSound := sound.writing other id path stage (before _ _ running) writing
    exact ⟨writeSound.not_live, writeSound.uncommitted, writeSound.holds⟩
  · intro other id path stage running
    exact sound.made other id path stage (before _ _ running)
  · intro other resolve running
    exact sound.minted other resolve (before _ _ running)
  · exact sound.known
  · exact sound.approved

/-- A resolve enters a stage whose obligations are met. -/
theorem move_some (sound : state.Sound) {token : ClaimToken} {id : PendingId}
    (path : RelPath) {stage : ResolveStage} (minted : token ∈ state.queue.tokens)
    (writing : stage.Writing → state.WriteSound token id)
    (abandoned : stage.Abandoning → ∀ entry, state.queue.disk.claimed id = some entry →
      entry.claimToken = some token → ¬ state.Committed id)
    (made : stage.Committed → state.Committed id) :
    (state.move token (some ⟨id, path, stage⟩)).Sound := by
  have before : ∀ other resolve,
      (state.move token (some ⟨id, path, stage⟩)).resolves other = some resolve →
        other = token ∧ resolve = ⟨id, path, stage⟩ ∨ state.resolves other = some resolve := by
    intro other resolve running
    by_cases same : other = token
    · subst same
      simp only [move, Function.update_self, Option.some.injEq] at running
      exact .inl ⟨rfl, running.symm⟩
    · simp only [move, Function.update_of_ne same] at running
      exact .inr running
  constructor
  · intro other entry live
    have liveSound := sound.live other entry live
    exact ⟨liveSound.unstamped, liveSound.no_outcome, liveSound.uncommitted⟩
  · intro other entry claimed
    have claimSound := sound.claimed other entry claimed
    refine ⟨claimSound.failed, claimSound.committed, claimSound.unstamped, ?_⟩
    intro holder otherPath otherStage running abandoning stamped
    rcases before holder _ running with ⟨rfl, same⟩ | earlier
    · cases same
      exact abandoned abandoning entry claimed stamped
    · exact claimSound.abandoned holder otherPath otherStage earlier abandoning stamped
  · intro holder other otherPath otherStage running isWriting
    rcases before holder _ running with ⟨rfl, same⟩ | earlier
    · cases same
      have writeSound := writing isWriting
      exact ⟨writeSound.not_live, writeSound.uncommitted, writeSound.holds⟩
    · have writeSound := sound.writing holder other otherPath otherStage earlier isWriting
      exact ⟨writeSound.not_live, writeSound.uncommitted, writeSound.holds⟩
  · intro holder other otherPath otherStage running committed
    rcases before holder _ running with ⟨rfl, same⟩ | earlier
    · cases same
      exact made committed
    · exact sound.made holder other otherPath otherStage earlier committed
  · intro holder resolve running
    rcases before holder resolve running with ⟨rfl, -⟩ | earlier
    · exact minted
    · exact sound.minted holder resolve earlier
  · exact sound.known
  · exact sound.approved

/-- A commit lands for a claim that is on disk without an outcome, whose resolve has left
the stage before the commit. -/
theorem commit_landed (sound : state.Sound) {token : ClaimToken} {id : PendingId}
    (path : RelPath) (writeSound : state.WriteSound token id)
    (left : state.resolves token = none) : (state.commit id path true).Sound := by
  rcases writeSound.holds with ⟨held, heldHere, heldToken, noOutcome⟩
  have committed : ∀ other, (state.commit id path true).Committed other →
      other = id ∨ state.Committed other := by
    rintro other ⟨otherPath, member⟩
    rcases List.mem_cons.mp member with same | earlier
    · exact .inl (congrArg Prod.fst same)
    · exact .inr ⟨otherPath, earlier⟩
  have monotone : ∀ other, state.Committed other →
      (state.commit id path true).Committed other := by
    rintro other ⟨otherPath, member⟩
    exact ⟨otherPath, List.mem_cons_of_mem _ member⟩
  constructor
  · intro other entry live
    have liveSound := sound.live other entry live
    refine ⟨liveSound.unstamped, liveSound.no_outcome, ?_⟩
    intro after
    rcases committed other after with rfl | earlier
    · cases live.symm.trans writeSound.not_live
    · exact liveSound.uncommitted earlier
  · intro other entry claimed
    have claimSound := sound.claimed other entry claimed
    constructor
    · intro reason recorded after
      rcases committed other after with rfl | earlier
      · cases heldHere.symm.trans claimed
        cases noOutcome.symm.trans recorded
      · exact claimSound.failed reason recorded earlier
    · intro sha recorded
      exact monotone other (claimSound.committed sha recorded)
    · exact claimSound.unstamped
    · intro holder otherPath stage running abandoning stamped after
      rcases committed other after with rfl | earlier
      · cases heldHere.symm.trans claimed
        cases heldToken.symm.trans stamped
        cases left.symm.trans running
      · exact claimSound.abandoned holder otherPath stage running abandoning stamped earlier
  · intro holder other otherPath stage running writing
    have otherSound := sound.writing holder other otherPath stage running writing
    refine ⟨otherSound.not_live, ?_, otherSound.holds⟩
    intro after
    rcases committed other after with rfl | earlier
    · rcases otherSound.holds with ⟨entry, claimed, stamped, -⟩
      cases heldHere.symm.trans claimed
      cases heldToken.symm.trans stamped
      cases left.symm.trans running
    · exact otherSound.uncommitted earlier
  · intro holder other otherPath stage running made
    exact monotone other (sound.made holder other otherPath stage running made)
  · exact sound.minted
  · rintro other (held | after)
    · exact sound.known other (.inl held)
    · rcases committed other after with rfl | earlier
      · exact sound.known other (.inl ⟨held, .inr heldHere⟩)
      · exact sound.known other (.inr earlier)
  · intro other member
    exact monotone other (sound.approved other member)

theorem approve (sound : state.Sound) {id : PendingId} {performed : List FileAction}
    (committed : performed ≠ [] → state.Committed id) :
    (state.approve id performed).Sound := by
  have approvedSound : ∀ other ∈ (state.approve id performed).approved,
      state.Committed other := by
    intro other member
    unfold RecoveryState.approve at member
    by_cases none : performed = []
    · simp only [if_pos none] at member
      exact sound.approved other member
    · simp only [if_neg none] at member
      rcases List.mem_cons.mp member with rfl | earlier
      · exact committed none
      · exact sound.approved other earlier
  constructor
  · intro other entry live
    have liveSound := sound.live other entry live
    exact ⟨liveSound.unstamped, liveSound.no_outcome, liveSound.uncommitted⟩
  · intro other entry claimed
    have claimSound := sound.claimed other entry claimed
    exact ⟨claimSound.failed, claimSound.committed, claimSound.unstamped,
      claimSound.abandoned⟩
  · intro token other path stage running writing
    have writeSound := sound.writing token other path stage running writing
    exact ⟨writeSound.not_live, writeSound.uncommitted, writeSound.holds⟩
  · exact sound.made
  · exact sound.minted
  · exact sound.known
  · exact approvedSound

theorem restart (sound : state.Sound) :
    ({ state with resolves := fun _ => none } : RecoveryState).Sound := by
  constructor
  · intro other entry live
    have liveSound := sound.live other entry live
    exact ⟨liveSound.unstamped, liveSound.no_outcome, liveSound.uncommitted⟩
  · intro other entry claimed
    have claimSound := sound.claimed other entry claimed
    exact ⟨claimSound.failed, claimSound.committed, claimSound.unstamped, nofun⟩
  · intro token other path stage running
    cases running
  · intro token other path stage running
    cases running
  · intro token resolve running
    cases running
  · exact sound.known
  · exact sound.approved

/-- File operations leave the resolves, the commits and the approvals alone. -/
theorem execute_eq (state : RecoveryState) (actions : List FileAction) :
    execute RecoveryState.apply state actions =
      { state with queue := execute QueueState.apply state.queue actions } := by
  induction actions generalizing state with
  | nil => rfl
  | cons action rest ih =>
      rw [execute_cons, ih]
      rfl

theorem resolves_execute (state : RecoveryState) (actions : List FileAction) :
    (execute RecoveryState.apply state actions).resolves = state.resolves := by
  rw [execute_eq]

theorem committed_execute (state : RecoveryState) (actions : List FileAction)
    (id : PendingId) :
    (execute RecoveryState.apply state actions).Committed id ↔ state.Committed id := by
  rw [execute_eq]
  rfl

/-- The token of a resolve stays among the tokens written. -/
theorem minted_execute (sound : state.Sound) {token : ClaimToken} {resolve : Resolve}
    (running : state.resolves token = some resolve) (actions : List FileAction) :
    token ∈ (execute RecoveryState.apply state actions).queue.tokens := by
  rw [execute_eq]
  exact (QueueState.subset_execute state.queue actions).2 (sound.minted token resolve running)

/-- After a whole claim the resolver holds the claim. -/
theorem writeSound_claimForResolve (sound : state.Sound) {id : PendingId}
    {token : ClaimToken} {now : Time} {editedSha256 : Option Text}
    {actions : List FileAction}
    (planned : state.queue.disk.claimForResolve id token now editedSha256 = .ok actions) :
    (execute RecoveryState.apply state actions).WriteSound token id ∧
      token ∈ (execute RecoveryState.apply state actions).queue.tokens := by
  rcases Disk.claimForResolve_eq_ok_iff.mp planned with ⟨entry, live, rfl⟩
  have liveSound := sound.live id entry live
  rw [execute_eq]
  constructor
  · constructor
    · cases editedSha256 with
      | none => simp [Disk.apply]
      | some digest => simp [Disk.apply]
    · exact liveSound.uncommitted
    · cases editedSha256 with
      | none =>
          use Disk.stamp entry token now
          refine ⟨?_, rfl, liveSound.no_outcome⟩
          simp [Disk.apply]
      | some digest =>
          use { Disk.stamp entry token now with effectivePostimageSha256 := some digest }
          refine ⟨?_, rfl, liveSound.no_outcome⟩
          simp [Disk.apply]
  · cases editedSha256 with
    | none => simp [FileAction.tokenWritten, Disk.stamp, PendingEntry.claimToken]
    | some digest => simp [FileAction.tokenWritten, Disk.stamp, PendingEntry.claimToken]

theorem keeps_recordWriteContext (sound : state.Sound) (id : PendingId)
    (token : Option ClaimToken) (context : WriteContext) :
    Keeps RecoveryState.apply Sound state
      (state.queue.disk.recordWriteContext id token context).actions := by
  apply FilePlan.actions_cases (motive := Keeps RecoveryState.apply Sound state)
  · exact trivial
  · intro actions ran
    rcases Disk.recordWriteContext_eq_ok_iff.mp ran with ⟨entry, owned, rfl⟩
    exact sound.keeps_annotate (Disk.checkToken_eq_ok_iff.mp owned).1 rfl rfl

/-- The commit of a resolve that holds its claim. -/
theorem commit_step (sound : state.Sound) {token : ClaimToken} {id : PendingId} {path : RelPath}
    {status : Option Int} {landed : Bool}
    (running : state.resolves token = some ⟨id, path, .ready⟩)
    (reported : status = some 0 → landed = true)
    (declines : (RecoveryLabel.commit token status landed).Declines) :
    ((state.commit id path landed).move token
      (some ⟨id, path, ResolveStage.afterCommit status⟩)).Sound := by
  have writeSound := sound.writing token id path .ready running (.inr rfl)
  have minted := sound.minted token _ running
  cases landed with
  | false =>
      apply sound.move_some path minted
      · intro writing
        rcases ResolveStage.afterCommit_cases status with ⟨-, stage⟩ | ⟨-, stage⟩ | stage
        all_goals
          rw [stage] at writing
          rcases writing with impossible | impossible <;> cases impossible
      · intro _ _ _ _
        exact writeSound.uncommitted
      · intro committed
        rcases ResolveStage.afterCommit_cases status with ⟨rfl, -⟩ | ⟨-, stage⟩ | stage
        · -- a status of zero reports a commit
          cases reported rfl
        all_goals
          rw [stage] at committed
          rcases committed with impossible | impossible <;> cases impossible
  | true =>
      have left : (state.move token none).resolves token = none := by
        simp [move]
      have leftSound : (state.move token none).WriteSound token id :=
        ⟨writeSound.not_live, writeSound.uncommitted, writeSound.holds⟩
      have landed := (sound.move_none token).commit_landed path leftSound left
      have same : (state.commit id path true).move token
            (some ⟨id, path, ResolveStage.afterCommit status⟩) =
          ((state.move token none).commit id path true).move token
            (some ⟨id, path, ResolveStage.afterCommit status⟩) := by
        simp [move, commit]
      rw [same]
      apply landed.move_some path minted
      · intro writing
        rcases ResolveStage.afterCommit_cases status with ⟨-, stage⟩ | ⟨-, stage⟩ | stage
        all_goals
          rw [stage] at writing
          rcases writing with impossible | impossible <;> cases impossible
      · intro abandoning
        rcases ResolveStage.afterCommit_cases status with
          ⟨-, stage⟩ | ⟨⟨code, rfl, positive⟩, -⟩ | stage
        · rw [stage] at abandoning
          rcases abandoning with impossible | impossible <;> cases impossible
        · -- under a positive status nothing was committed
          cases declines positive
        · rw [stage] at abandoning
          rcases abandoning with impossible | impossible <;> cases impossible
      · intro _
        exact ⟨path, List.mem_cons_self⟩

theorem keeps_recordOutcome_actions (sound : state.Sound) {id : PendingId}
    {token : ClaimToken} (outcome : WriteOutcome)
    (failed : ∀ reason, outcome = .failed reason → ∀ entry,
      state.queue.disk.claimed id = some entry → entry.claimToken = some token →
        ¬ state.Committed id)
    (committed : ∀ sha, outcome = .committed sha → state.Committed id)
    (idle : ∀ path stage, state.resolves token = some ⟨id, path, stage⟩ → ¬ stage.Writing) :
    Keeps RecoveryState.apply Sound state
      (state.queue.disk.recordOutcome id (some token) outcome).actions := by
  apply FilePlan.actions_cases (motive := Keeps RecoveryState.apply Sound state)
  · exact trivial
  · intro actions ran
    exact sound.keeps_recordOutcome ran failed committed idle

/-- A resolve that is past its write holds no claim of a resolve that writes. -/
theorem idle_of_running {token : ClaimToken} {id : PendingId} {path : RelPath}
    {stage : ResolveStage} (running : state.resolves token = some ⟨id, path, stage⟩)
    (past : ¬ stage.Writing) :
    ∀ other found, state.resolves token = some ⟨id, other, found⟩ → ¬ found.Writing := by
  intro other found same
  cases running.symm.trans same
  exact past

theorem not_writing_of_ne {stage : ResolveStage} (notGates : stage ≠ .gates)
    (notReady : stage ≠ .ready) : ¬ stage.Writing := by
  rintro (gates | ready)
  · exact notGates gates
  · exact notReady ready

end Sound

/-- Every step keeps recovery sound, unless a commit lands under a positive status. -/
theorem Sound.preserved (state : RecoveryState) (label : RecoveryLabel) (target : RecoveryState)
    (declines : label.Declines) (step : RecoveryStep state label target) (sound : state.Sound) :
    target.Sound := by
  cases step with
  | environment op performed other admissible cut =>
      exact (sound.keeps_environment other admissible).interrupted sound cut
  | claim id token now editedSha256 entry actions admissible found planned =>
      have fresh := admissible.token_new token rfl
      have after := (sound.keeps_claimForResolve fresh planned).interrupted sound
        (List.prefix_refl actions)
      rcases sound.writeSound_claimForResolve planned with ⟨writeSound, minted⟩
      apply after.move_some entry.targetPath minted
      · exact fun _ => writeSound
      · intro abandoning
        rcases abandoning with impossible | impossible <;> cases impossible
      · intro committed
        rcases committed with impossible | impossible <;> cases impossible
  | gateRejects token id path running =>
      have writeSound := sound.writing token id path .gates running (.inl rfl)
      apply sound.move_some path (sound.minted token _ running)
      · intro writing
        rcases writing with impossible | impossible <;> cases impossible
      · intro _ _ _ _
        exact writeSound.uncommitted
      · intro committed
        rcases committed with impossible | impossible <;> cases impossible
  | raise token => exact sound.move_none token
  | recordContext token id path context actions running planned =>
      have keeps := sound.keeps_recordWriteContext id (some token) context
      rw [planned] at keeps
      have after := keeps.interrupted sound (List.prefix_refl actions)
      have stillRunning := running
      rw [← Sound.resolves_execute state actions] at stillRunning
      have writeSound := after.writing token id path .gates stillRunning (.inl rfl)
      apply after.move_some path (sound.minted_execute running actions)
      · exact fun _ => writeSound
      · intro abandoning
        rcases abandoning with impossible | impossible <;> cases impossible
      · intro committed
        rcases committed with impossible | impossible <;> cases impossible
  | contextFails token id path context performed running cut =>
      have after := (sound.keeps_recordWriteContext id (some token) context).interrupted
        sound cut
      have writeSound := sound.writing token id path .gates running (.inl rfl)
      apply after.move_some path (sound.minted_execute running performed)
      · intro writing
        rcases writing with impossible | impossible <;> cases impossible
      · intro _ _ _ _
        rw [Sound.committed_execute]
        exact writeSound.uncommitted
      · intro committed
        rcases committed with impossible | impossible <;> cases impossible
  | addFails token id path running =>
      have writeSound := sound.writing token id path .ready running (.inr rfl)
      apply sound.move_some path (sound.minted token _ running)
      · intro writing
        rcases writing with impossible | impossible <;> cases impossible
      · intro _ _ _ _
        exact writeSound.uncommitted
      · intro committed
        rcases committed with impossible | impossible <;> cases impossible
  | commit token id path status landed running reported =>
      exact sound.commit_step running reported declines
  | shaLookupFails token id path running =>
      apply sound.move_some path (sound.minted token _ running)
      · intro writing
        rcases writing with impossible | impossible <;> cases impossible
      · intro abandoning
        rcases abandoning with impossible | impossible <;> cases impossible
      · intro committed
        rcases committed with impossible | impossible <;> cases impossible
  | recordUnknown token id path reason performed running cut =>
      have idle := Sound.idle_of_running running (Sound.not_writing_of_ne nofun nofun)
      have keeps := sound.keeps_recordOutcome_actions (.unknown reason) nofun nofun idle
      exact (keeps.interrupted sound cut).move_none token
  | recordCommitted token id path sha actions running planned =>
      have idle := Sound.idle_of_running running (Sound.not_writing_of_ne nofun nofun)
      have made := sound.made token id path .made running (.inl rfl)
      have after := (sound.keeps_recordOutcome planned nofun (fun _ _ => made)
        idle).interrupted sound (List.prefix_refl actions)
      apply after.move_some path (sound.minted_execute running actions)
      · intro writing
        rcases writing with impossible | impossible <;> cases impossible
      · intro abandoning
        rcases abandoning with impossible | impossible <;> cases impossible
      · intro _
        rw [Sound.committed_execute]
        exact made
  | recordFailed token id path reason performed running cut =>
      have idle := Sound.idle_of_running running (Sound.not_writing_of_ne nofun nofun)
      have uncommitted : ∀ reason', WriteOutcome.failed reason = .failed reason' → ∀ entry,
          state.queue.disk.claimed id = some entry → entry.claimToken = some token →
            ¬ state.Committed id := by
        intro _ _ entry claimed stamped
        exact (sound.claimed id entry claimed).abandoned token path .failing running
          (.inl rfl) stamped
      have keeps := sound.keeps_recordOutcome_actions (.failed reason) uncommitted nofun idle
      have after := keeps.interrupted sound cut
      have stillRunning := running
      rw [← Sound.resolves_execute state performed] at stillRunning
      apply after.move_some path (sound.minted_execute running performed)
      · intro writing
        rcases writing with impossible | impossible <;> cases impossible
      · intro _ entry claimed stamped
        exact (after.claimed id entry claimed).abandoned token path .failing stillRunning
          (.inl rfl) stamped
      · intro committed
        rcases committed with impossible | impossible <;> cases impossible
  | finalize token id path performed running cut =>
      have idle := Sound.idle_of_running running (Sound.not_writing_of_ne nofun nofun)
      have keeps : Keeps RecoveryState.apply Sound state
          (state.queue.disk.finalizeResolve id path (some token)).actions := by
        apply FilePlan.actions_cases (motive := Keeps RecoveryState.apply Sound state)
        · exact trivial
        · intro actions ran
          rcases Disk.finalizeResolve_eq_ok_iff.mp ran with
            ⟨impossible | ⟨entry, claimed, stamped⟩, rfl⟩
          · cases impossible
          · exact sound.keeps_finishClaim
              (sound.notWriting_of_token claimed stamped.symm idle)
              (sound.known_of_held (.inr claimed)) _ _
      have after := keeps.interrupted sound cut
      apply Sound.move_none
      apply after.approve
      intro _
      rw [Sound.committed_execute]
      exact sound.made token id path .recorded running (.inr rfl)
  | restore token id path performed running cut =>
      have idle := Sound.idle_of_running running (Sound.not_writing_of_ne nofun nofun)
      have keeps : Keeps RecoveryState.apply Sound state
          (state.queue.disk.restoreResolve id (some token)).actions := by
        apply FilePlan.actions_cases (motive := Keeps RecoveryState.apply Sound state)
        · exact trivial
        · intro actions ran
          rcases Disk.restoreResolve_eq_ok_iff.mp ran with
            ⟨impossible, -⟩ | ⟨entry, -, claimed, stamped, -⟩
          · cases impossible
          · have uncommitted := (sound.claimed id entry claimed).abandoned token path
              .restoring running (.inr rfl) stamped.symm
            exact sound.keeps_restoreResolve ran uncommitted
              (sound.notWriting_of_token claimed stamped.symm idle)
      exact (keeps.interrupted sound cut).move_none token
  | reconcile id minAge now found performed truthful cut =>
      have after := (sound.keeps_reconcileOne truthful).interrupted sound cut
      apply after.approve
      intro performedSome
      rw [Sound.committed_execute]
      split_ifs at performedSome with known
      · rcases (Option.any_eq_true _ _).mp known with ⟨entry, due, evident⟩
        exact sound.committed_of_evident truthful (Disk.claimed_of_dueClaim due) evident
      · exact absurd rfl performedSome
  | restart => exact sound.restart

end RecoveryState

/-- In every run in which no commit lands under a positive exit status, an entry whose commit
was made is never pending again, and an entry is finalized as approved only after its commit
was made. -/
theorem decisions_are_reconciled {labels : List RecoveryLabel} {state : RecoveryState}
    (run : Run RecoveryStep .start labels state)
    (declines : ∀ label ∈ labels, label.Declines) :
    (∀ id, state.Committed id → state.queue.disk.live id = none) ∧
      ∀ id ∈ state.approved, state.Committed id := by
  have sound : state.Sound :=
    run.invariant_along RecoveryState.Sound.preserved declines RecoveryState.Sound.start
  constructor
  · intro id committed
    rw [Option.eq_none_iff_forall_ne_some]
    intro entry live
    exact (sound.live id entry live).uncommitted committed
  · exact sound.approved

/-- One entry is waiting. -/
def waitingRule : RecoveryState :=
  execute RecoveryState.apply .start
    ((QueueOp.enqueue 1 ruleProposal 1).plan RecoveryState.start.queue.disk)

/-- A resolve holds its claim. -/
def claimedRule : RecoveryState :=
  (execute RecoveryState.apply waitingRule
    (waitingRule.queue.disk.claimForResolve 1 1 2 none).actions).move 1
      (some ⟨1, rulePath, .gates⟩)

/-- It is about to commit. -/
def readyRule : RecoveryState :=
  (execute RecoveryState.apply claimedRule
    (claimedRule.queue.disk.recordWriteContext 1 (some 1) ⟨[], []⟩).actions).move 1
      (some ⟨1, rulePath, .ready⟩)

theorem run_readyRule :
    Run RecoveryStep .start
      [.environment (.enqueue 1 ruleProposal 1)
        ((QueueOp.enqueue 1 ruleProposal 1).plan RecoveryState.start.queue.disk), .claim 1,
        .recordContext 1] readyRule := by
  have enqueued : RecoveryStep .start _ waitingRule :=
    RecoveryStep.environment _ (.enqueue 1 ruleProposal 1) _ trivial
      (QueueOp.admissible_enqueue (newLock_start _)) (List.prefix_refl _)
  have claimed : RecoveryStep waitingRule (.claim 1) claimedRule :=
    RecoveryStep.claim _ 1 1 2 none (.queued ruleProposal) _
      (QueueOp.admissible_claimForResolve List.not_mem_nil) rfl rfl
  have ready : RecoveryStep claimedRule (.recordContext 1) readyRule :=
    RecoveryStep.recordContext _ 1 1 rulePath ⟨[], []⟩ _ rfl rfl
  exact Run.tail (Run.tail (Run.single enqueued) claimed) ready

/-- A resolve commits and crashes before it records the outcome; after the restart a sweep
finds the commit. -/
theorem crashed_resolve_is_reconciled :
    ∃ state : RecoveryState, state.approved = [1] ∧
      (∀ id, state.Committed id → state.queue.disk.live id = none) ∧
        ∀ id ∈ state.approved, state.Committed id := by
  have committed := Run.tail run_readyRule
    (RecoveryStep.commit _ 1 1 rulePath (some 0) true rfl fun _ => rfl)
  have crashed := Run.tail committed (RecoveryStep.restart _)
  have swept := Run.tail crashed (RecoveryStep.reconcile _ 1 0 3 (some true) _ (by
      intro entry found answer answered
      cases found
      cases answered
      exact iff_of_true rfl List.mem_cons_self) (List.prefix_refl _))
  exact ⟨_, rfl, decisions_are_reconciled swept (by simp [RecoveryLabel.Declines])⟩

/-- A commit lands, `git commit` exits with 128, and the decision is restored: its entry is
pending again. -/
theorem landed_commit_is_restored :
    ∃ labels state, Run RecoveryStep .start labels state ∧ state.Committed 1 ∧
      state.queue.disk.live 1 ≠ none := by
  have committed := Run.tail run_readyRule
    (RecoveryStep.commit _ 1 1 rulePath (some 128) true rfl (by decide))
  have failed := Run.tail committed
    (RecoveryStep.recordFailed _ 1 1 rulePath "git commit exited 128".toList _ rfl
      (List.prefix_refl _))
  have restored := Run.tail failed (RecoveryStep.restore _ 1 1 rulePath _ rfl (List.prefix_refl _))
  exact ⟨_, _, restored, ⟨rulePath, List.mem_cons_self⟩, Option.some_ne_none _⟩

end DataOlympus
