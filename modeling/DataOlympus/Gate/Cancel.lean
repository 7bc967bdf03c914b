import DataOlympus.Gate.LaneChoice

/-!
# Cancelled demotions

The governed lane cancels a demotion when it predicts that the commit will reject the write
anyway.  The commit validates the postimage again, against the live index and the committed
tree of its own time.
-/

namespace DataOlympus

open Lines

/-- What a commit finds.  The gates that are not modelled here (the path lock, the refresh of
the base, the compare-and-swap, the writing rules, git itself) let the write pass or not. -/
structure CommitState where
  idx : Option LiveIndex
  tree : Tree
  snapshot : Option Snapshot
  today : Date
  othersPass : Bool

/-- The worktree that a commit validates against. -/
def CommitState.worktree (state : CommitState) : Worktree :=
  ⟨state.tree.isFile, state.snapshot⟩

/-- How `_commit_in_worktree` ends. -/
inductive CommitVerdict where
  | rejected
  | demoted
  | committed
  deriving DecidableEq

namespace Runtime

variable (runtime : Runtime) (config : GateConfig)

/-- The governed-target backstop. -/
def governedTargetBackstop (governedTargetCheck : Bool) (call : LaneCall) (state : CommitState) :
    Except Raised Bool :=
  if governedTargetCheck then
    match state.tree.lookup call.targetPath with
    | none => .ok false
    | some committed =>
        runtime.isBaseContentInForce config.inboxPrefix (readBack committed) call.targetPath
          state.today
  else .ok false

/-- `_commit_in_worktree(…)` on the automatic path. -/
def autoCommitInWorktree (governedTargetCheck : Bool) (call : LaneCall) (state : CommitState) :
    Except Raised CommitVerdict :=
  if !state.othersPass || call.secretFlagged config then return .rejected
  else do
    let errors ← runtime.validatePostimage config call.targetPath call.postimage
      (LiveIndex.readableMap state.idx) (some state.worktree) []
    if !errors.isEmpty then return .rejected
    else do
      let inForce ← runtime.governedTargetBackstop config governedTargetCheck call state
      if inForce then return .demoted else return .committed

/-- A demotion reason was found and cancelled. -/
def Cancels (checkGovernedTarget : Bool) (call : LaneCall) : Prop :=
  (∃ reason, runtime.evaluateGovernedLane call.postimage call.targetPath call.idx
    checkGovernedTarget call.today = .ok (some reason)) ∧
      runtime.governedVerdict config true checkGovernedTarget call = .ok none

/-- The only ground for a cancellation is that the live index holds the id under another
path. -/
def RestsOnDuplicate (call : LaneCall) : Prop :=
  call.secretFlagged config = false ∧
    ∃ entries body, runtime.parseFrontmatter call.postimage = .ok (entries, body) ∧
      runtime.vocabularyErrors entries call.targetPath = .ok [] ∧
      duplicateIdErrors entries call.targetPath (LiveIndex.readableMap call.idx) none ≠ []

/-- At the commit, the id belongs to another path in the live index or in the committed
tree, or another gate stops the write. -/
def StillStopped (governedTargetCheck : Bool) (call : LaneCall) (state : CommitState) : Prop :=
  state.othersPass = false ∨
    runtime.governedTargetBackstop config governedTargetCheck call state ≠ .ok false ∨
    ∀ entries body, runtime.parseFrontmatter call.postimage = .ok (entries, body) →
      duplicateIdErrors entries call.targetPath (LiveIndex.readableMap state.idx)
          (some state.worktree) ≠ [] ∨
        missingStatusErrors config entries call.targetPath (LiveIndex.readableMap state.idx)
          (some state.worktree) ≠ [] ∨
        runtime.relationErrors config entries call.targetPath (some state.worktree) [] ≠ .ok []

variable {runtime config} {call : LaneCall} {state : CommitState}
  {checkGovernedTarget governedTargetCheck : Bool}

/-- A write is committed if and only if every gate lets it pass. -/
theorem autoCommitInWorktree_eq_committed_iff :
    runtime.autoCommitInWorktree config governedTargetCheck call state = .ok .committed ↔
      state.othersPass = true ∧ call.secretFlagged config = false ∧
        runtime.Accepts config call.targetPath call.postimage (LiveIndex.readableMap state.idx)
          (some state.worktree) [] ∧
        runtime.governedTargetBackstop config governedTargetCheck call state = .ok false := by
  unfold autoCommitInWorktree Accepts
  cases state.othersPass with
  | false => simp [pure, Except.pure]
  | true =>
      cases call.secretFlagged config with
      | true => simp [pure, Except.pure]
      | false =>
          rw [if_neg (by decide), Except.bind_eq_ok_iff]
          constructor
          · rintro ⟨errors, validated, rest⟩
            cases errors with
            | cons first others => cases rest
            | nil =>
                obtain ⟨inForce, checked, done⟩ := Except.bind_eq_ok_iff.mp rest
                cases inForce with
                | true => cases done
                | false => exact ⟨rfl, rfl, validated, checked⟩
          · rintro ⟨-, -, validated, checked⟩
            exact ⟨[], validated, Except.bind_eq_ok_iff.mpr ⟨false, checked, rfl⟩⟩

/-- A cancellation predicts a rejection. -/
theorem Cancels.predicted (cancels : runtime.Cancels config checkGovernedTarget call) :
    call.secretFlagged config = true ∨ runtime.validationWouldReject config call = .ok true := by
  obtain ⟨⟨reason, evaluated⟩, verdict⟩ := cancels
  unfold governedVerdict at verdict
  rw [if_pos rfl, evaluated] at verdict
  change (if call.wouldAutoCommit then _ else _) = _ at verdict
  split at verdict
  · obtain ⟨rejected, predicted, decided⟩ := Except.bind_eq_ok_iff.mp verdict
    split at decided
    · rename_i cancel
      obtain secret | rejects := (Bool.or_eq_true _ _).mp cancel
      · exact .inl secret
      · exact .inr (rejects ▸ predicted)
    · cases decided
  · cases verdict

/-- A write that is cancelled without a secret, and whose front matter and vocabulary are
fine, bears an id that the live index holds under another path. -/
theorem Cancels.restsOnDuplicate (cancels : runtime.Cancels config checkGovernedTarget call)
    (clean : call.secretFlagged config = false) {entries : Mapping} {body : Text}
    (parsed : runtime.parseFrontmatter call.postimage = .ok (entries, body))
    (vocabulary : runtime.vocabularyErrors entries call.targetPath = .ok []) :
    runtime.RestsOnDuplicate config call := by
  obtain secret | predicted := cancels.predicted
  · rw [clean] at secret
    cases secret
  · obtain ⟨errors, validated, counted⟩ := Except.bind_eq_ok_iff.mp predicted
    exact ⟨clean, entries, body, parsed, vocabulary,
      runtime.duplicateIdErrors_ne_nil config validated (Except.ok.inj counted) parsed vocabulary⟩

/-- While the live index stays as it was, the commit rejects the write. -/
theorem Cancels.not_committed_of_same_index
    (cancels : runtime.Cancels config checkGovernedTarget call)
    (same : LiveIndex.readableMap state.idx = LiveIndex.readableMap call.idx) :
    runtime.autoCommitInWorktree config governedTargetCheck call state ≠ .ok .committed := by
  intro committed
  obtain ⟨-, clean, accepts, -⟩ := autoCommitInWorktree_eq_committed_iff.mp committed
  obtain ⟨entries, body, parsed, vocabulary, -, noDuplicate, -⟩ :=
    (runtime.accepts_iff config).mp accepts
  obtain ⟨-, found, _, parsedToo, -, duplicate⟩ :=
    cancels.restsOnDuplicate clean parsed vocabulary
  cases parsed.symm.trans parsedToo
  rw [same] at noDuplicate
  exact duplicateIdErrors_ne_nil_of_index duplicate _ noDuplicate

/-- A write whose demotion was cancelled is not committed if and only if the cancellation does
not rest on a duplicate id alone, or something still stops the write at the commit. -/
theorem cancelled_demotion_not_committed_iff
    (cancels : runtime.Cancels config checkGovernedTarget call) (state : CommitState)
    (governedTargetCheck : Bool) :
    runtime.autoCommitInWorktree config governedTargetCheck call state ≠ .ok .committed ↔
      ¬runtime.RestsOnDuplicate config call ∨
        runtime.StillStopped config governedTargetCheck call state := by
  rw [Ne, autoCommitInWorktree_eq_committed_iff, not_iff_comm, not_or, not_not]
  constructor
  · rintro ⟨⟨clean, entries, body, parsed, vocabulary, -⟩, passes⟩
    unfold StillStopped at passes
    push Not at passes
    obtain ⟨others, backstop, found, _, parsedToo, noDuplicate, noMissing, noRelation⟩ := passes
    cases parsed.symm.trans parsedToo
    have accepts := (runtime.accepts_iff config).mpr
      ⟨entries, body, parsed, vocabulary, noMissing, noDuplicate, noRelation⟩
    exact ⟨Bool.eq_true_of_not_eq_false others, clean, accepts, backstop⟩
  · rintro ⟨others, clean, accepts, backstop⟩
    obtain ⟨entries, body, parsed, vocabulary, noMissing, noDuplicate, noRelation⟩ :=
      (runtime.accepts_iff config).mp accepts
    refine ⟨cancels.restsOnDuplicate clean parsed vocabulary, ?_⟩
    rintro (stopped | demoted | rejected)
    · rw [others] at stopped
      cases stopped
    · exact demoted backstop
    · obtain duplicate | missing | relation := rejected entries body parsed
      · exact duplicate noDuplicate
      · exact missing noMissing
      · exact relation noRelation

end Runtime

/-! ## An index that lags behind -/

/-- A document with an id that claims to be accepted. -/
def claimedText : Text :=
  "---\nid: ask\nstatus: accepted\n---\nAsk first.".toList

/-- The loader on its block. -/
def claimedRuntime : Runtime :=
  Runtime.ofBlocks [("id: ask\nstatus: accepted".toList,
    .dict [(.str (PyStr.lit "id"), .str (PyStr.lit "ask")),
      (.str (PyStr.lit "status"), .str (PyStr.lit "accepted"))])]

/-- The index built while the document stood in the inbox. -/
def laggingIndex : Index :=
  (claimedRuntime.build IndexConfig.default (Tree.write ∅ inboxPath claimedText)).toOption.getD
    ⟨[], [], 0, 0⟩

/-- A confident edit that writes the document to another path. -/
def claimedCall : LaneCall where
  targetPath := rulePath
  postimage := claimedText
  confidence := .real 1
  confidenceThreshold := .real 1
  canAutoCommit := true
  idx := some (LiveIndex.healthy laggingIndex)
  today := ⟨2026, 8, 1⟩
  rejectedBefore := none

/-- At the commit the index cannot be read, and the inbox is empty. -/
def emptiedState : CommitState where
  idx := none
  tree := ∅
  snapshot := some []
  today := ⟨2026, 8, 1⟩
  othersPass := true

theorem claimedCall_cancels : claimedRuntime.Cancels GateConfig.default true claimedCall :=
  ⟨⟨.statusPromotion, rfl⟩, rfl⟩

/-- The demotion of an accepted document is cancelled, and the document is committed. -/
theorem lagging_index_commits_promotion :
    claimedRuntime.Cancels GateConfig.default true claimedCall ∧
      claimedRuntime.autoCommitInWorktree GateConfig.default true claimedCall emptiedState =
        .ok .committed :=
  ⟨claimedCall_cancels, rfl⟩

/-- With the index of the check, the document is not committed. -/
theorem steady_index_rejects_promotion :
    claimedRuntime.autoCommitInWorktree GateConfig.default true claimedCall
        { emptiedState with idx := claimedCall.idx } ≠ .ok .committed := by
  refine (Runtime.cancelled_demotion_not_committed_iff claimedCall_cancels _ _).mpr (.inr ?_)
  refine .inr (.inr fun entries body parsed => .inl ?_)
  cases parsed
  exact List.cons_ne_nil _ _

end DataOlympus
