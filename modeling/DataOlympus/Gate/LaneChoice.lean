import Mathlib.Algebra.Order.Ring.Unbundled.Rat
import DataOlympus.Gate.Propose

/-!
# The choice of the lane

A proposal is parked or goes on to the serialized commit.  The condition is written twice:
with `>=` where the governed lane asks whether a rejection can be left to the commit, and with
`<` where the lane is taken.  The confidence is a float, so the two can differ.
-/

namespace DataOlympus

open Lines

/-! ## Comparing floats -/

/-- A float: a rational number, an infinity or NaN. -/
inductive Confidence where
  | real (x : ℚ)
  | infinite (negative : Bool)
  | nan
  deriving DecidableEq

namespace Confidence

/-- `first < second`. -/
def lt : Confidence → Confidence → Bool
  | .real x, .real y => x < y
  | .real _, .infinite negative => !negative
  | .infinite negative, .real _ => negative
  | .infinite first, .infinite second => first && !second
  | _, _ => false

/-- `first >= second`. -/
def ge : Confidence → Confidence → Bool
  | .real x, .real y => y ≤ x
  | .real _, .infinite negative => negative
  | .infinite negative, .real _ => !negative
  | .infinite first, .infinite second => !first || second
  | _, _ => false

def isReal : Confidence → Bool
  | .real _ => true
  | _ => false

/-- The two comparisons are opposite on what is ordered. -/
theorem ge_iff {first second : Confidence} :
    first.ge second = true ↔ first ≠ .nan ∧ second ≠ .nan ∧ first.lt second = false := by
  cases first with
  | real x =>
      cases second with
      | real y => simp [ge, lt]
      | infinite negative => simp [ge, lt]
      | nan => simp [ge]
  | infinite negative =>
      cases second with
      | real y => simp [ge, lt]
      | infinite other => cases negative <;> simp [ge, lt]
      | nan => simp [ge]
  | nan => simp [ge]

/-- A float below another one is not at or above it. -/
theorem ge_of_lt {first second : Confidence} (below : first.lt second = true) :
    first.ge second = false := by
  by_contra above
  rw [Bool.not_eq_false, ge_iff, below] at above
  cases above.2.2

/-- Ordered floats that are not below are at or above. -/
theorem ge_eq_false_iff {first second : Confidence} (notBelow : first.lt second = false) :
    first.ge second = false ↔ first = .nan ∨ second = .nan := by
  rw [← Bool.not_eq_true, ge_iff]
  tauto

end Confidence

/-! ## The two functions -/

/-- What a propose call knows when it chooses the lane.  A call that an earlier gate rejects
carries the status of the rejection. -/
structure LaneCall where
  targetPath : RelPath
  postimage : Text
  confidence : Confidence
  confidenceThreshold : Confidence
  canAutoCommit : Bool
  idx : Option LiveIndex
  today : Date
  rejectedBefore : Option Text

inductive Lane where
  | rejected
  /-- The proposal is enqueued as pending, unless the queue rejects it. -/
  | parks
  /-- `_commit_in_worktree` is called. -/
  | commits
  deriving DecidableEq

/-- `would_auto_commit`. -/
def LaneCall.wouldAutoCommit (call : LaneCall) : Bool :=
  call.confidence.ge call.confidenceThreshold && call.canAutoCommit

/-- The scanner flags the path or the postimage. -/
def LaneCall.secretFlagged (config : GateConfig) (call : LaneCall) : Bool :=
  (config.scanSecrets (PyStr.ofText call.targetPath.text)).isSome ||
    (config.scanSecrets (PyStr.ofText call.postimage)).isSome

namespace Runtime

variable (runtime : Runtime) (config : GateConfig) (protection : Bool)

/-- `validation_would_reject`. -/
def validationWouldReject (call : LaneCall) : Except Raised Bool := do
  let errors ← runtime.validatePostimage config call.targetPath call.postimage
    (LiveIndex.readableMap call.idx) none []
  return errors.any fun error => !error.code.snapshotDependent

/-- `_governed_lane_check(…)`. -/
def governedVerdict (checkGovernedTarget : Bool) (call : LaneCall) :
    Except Raised (Option DemotionReason) :=
  if protection then do
    let verdict ← runtime.evaluateGovernedLane call.postimage call.targetPath call.idx
      checkGovernedTarget call.today
    match verdict with
    | none => return none
    | some reason =>
        if call.wouldAutoCommit then do
          let rejected ← runtime.validationWouldReject config call
          if call.secretFlagged config || rejected then return none
          else return some reason
        else return some reason
  else return none

/-- The dispatch that the two propose functions share. -/
def proposeLane (checkGovernedTarget contest : Bool) (call : LaneCall) : Except Raised Lane :=
  if call.rejectedBefore.isSome then return .rejected
  else do
    let demotionReason ← runtime.governedVerdict config protection checkGovernedTarget call
    if call.confidence.lt call.confidenceThreshold || !call.canAutoCommit ||
        demotionReason.isSome || contest then
      return .parks
    else return .commits

/-- `kb_propose_memory_fn(…)`, up to the choice of the lane. -/
def kbProposeMemoryFn (call : LaneCall) : Except Raised Lane :=
  runtime.proposeLane config protection false false call

/-- `kb_propose_edit_fn(…)`, up to the choice of the lane. -/
def kbProposeEditFn (contest : Bool) (call : LaneCall) : Except Raised Lane :=
  runtime.proposeLane config protection true contest call

end Runtime

/-! ## The lane that is taken -/

/-- The lane that the governed lane reckons with. -/
def LaneCall.assumedLane (call : LaneCall) (demotion : Option DemotionReason) : Lane :=
  if call.wouldAutoCommit && demotion.isNone then .commits else .parks

/-- A call ends in a lane; it commits only with a real confidence at or above the threshold,
with the authorization, without a standing demotion and without a contest; and unless it is
rejected before, the lane is the one that the governed lane reckons with. -/
def LaneCall.Lawful (call : LaneCall) (verdict : Except Raised (Option DemotionReason))
    (contest : Bool) (taken : Except Raised Lane) : Prop :=
  ∃ lane, taken = .ok lane ∧
    (lane = .commits → call.confidence.isReal = true ∧
      call.confidence.ge call.confidenceThreshold = true ∧ call.canAutoCommit = true ∧
      verdict = .ok none ∧ contest = false) ∧
    (lane ≠ .rejected → ∃ demotion, verdict = .ok demotion ∧ lane = call.assumedLane demotion)

/-- The two comparisons agree on the call, or something else decides it. -/
def LaneCall.Decided (call : LaneCall) (demotion : Option DemotionReason) (contest : Bool) :
    Prop :=
  call.canAutoCommit = false ∨ demotion.isSome = true ∨
    call.confidence.lt call.confidenceThreshold = true ∨
    (contest = false ∧ call.confidence.isReal = true ∧ call.confidenceThreshold ≠ .nan) ∨
    (contest = true ∧ (call.confidence = .nan ∨ call.confidenceThreshold = .nan))

namespace LaneCall

variable {call : LaneCall} {demotion : Option DemotionReason} {contest : Bool}

theorem ne_nan_of_isReal {confidence : Confidence} (real : confidence.isReal = true) :
    confidence ≠ .nan := by
  rintro rfl
  cases real

theorem assumedLane_of_demoted (demoted : demotion.isSome = true) :
    call.assumedLane demotion = .parks := by
  obtain ⟨reason, rfl⟩ := Option.isSome_iff_exists.mp demoted
  simp [assumedLane]

theorem assumedLane_of_not_ge (below : call.confidence.ge call.confidenceThreshold = false) :
    call.assumedLane demotion = .parks := by
  simp [assumedLane, wouldAutoCommit, below]

theorem assumedLane_of_wouldAutoCommit (confident : call.confidence.ge call.confidenceThreshold = true)
    (authorized : call.canAutoCommit = true) : call.assumedLane none = .commits := by
  simp [assumedLane, wouldAutoCommit, confident, authorized]

theorem assumedLane_of_unauthorized (unauthorized : call.canAutoCommit = false) :
    call.assumedLane demotion = .parks := by
  simp [assumedLane, wouldAutoCommit, unauthorized]

end LaneCall

namespace Runtime

variable {runtime : Runtime} {config : GateConfig} {protection checkGovernedTarget contest : Bool}
  {call : LaneCall}

/-- The lane once the governed lane has answered. -/
theorem proposeLane_of_verdict {demotion : Option DemotionReason}
    (admitted : call.rejectedBefore.isSome = false)
    (verdict : runtime.governedVerdict config protection checkGovernedTarget call =
      .ok demotion) :
    runtime.proposeLane config protection checkGovernedTarget contest call =
      .ok (if call.confidence.lt call.confidenceThreshold || !call.canAutoCommit ||
        demotion.isSome || contest then .parks else .commits) := by
  unfold proposeLane
  rw [admitted, if_neg Bool.false_ne_true, verdict]
  change (if _ then _ else _) = _
  split <;> rfl

/-- Where the governed lane has answered, the lane is lawful if and only if the comparisons
agree. -/
theorem lawful_of_verdict_iff {demotion : Option DemotionReason}
    (admitted : call.rejectedBefore.isSome = false)
    (verdict : runtime.governedVerdict config protection checkGovernedTarget call =
      .ok demotion) :
    call.Lawful (.ok demotion) contest
        (runtime.proposeLane config protection checkGovernedTarget contest call) ↔
      call.Decided demotion contest := by
  rw [proposeLane_of_verdict admitted verdict]
  unfold LaneCall.Lawful LaneCall.Decided
  simp only [Except.ok.injEq, exists_eq_left']
  cases authorized : call.canAutoCommit with
  | false =>
      simp [LaneCall.assumedLane_of_unauthorized authorized]
  | true =>
      cases demoted : demotion.isSome with
      | true => simp [LaneCall.assumedLane_of_demoted demoted]
      | false =>
          obtain rfl := Option.isSome_eq_false_iff.mp demoted |> Option.isNone_iff_eq_none.mp
          cases below : call.confidence.lt call.confidenceThreshold with
          | true =>
              simp [LaneCall.assumedLane_of_not_ge (Confidence.ge_of_lt below)]
          | false =>
              have ordered := Confidence.ge_eq_false_iff below
              cases confident : call.confidence.ge call.confidenceThreshold with
              | true =>
                  have threshold := (Confidence.ge_iff.mp confident).2.1
                  rw [LaneCall.assumedLane_of_wouldAutoCommit confident authorized]
                  have numbers := Confidence.ge_iff.mp confident
                  cases contest <;> simp [numbers.1, threshold]
              | false =>
                  have unordered := ordered.mp confident
                  rw [LaneCall.assumedLane_of_not_ge confident]
                  cases contest with
                  | true => simp [unordered]
                  | false =>
                      have notBoth : ¬(call.confidence.isReal = true ∧
                          call.confidenceThreshold ≠ .nan) := by
                        rintro ⟨real, number⟩
                        exact unordered.elim (LaneCall.ne_nan_of_isReal real) number
                      simp [notBoth]

theorem lawful_iff :
    call.Lawful (runtime.governedVerdict config protection checkGovernedTarget call) contest
        (runtime.proposeLane config protection checkGovernedTarget contest call) ↔
      call.rejectedBefore.isSome = true ∨
        ∃ demotion, runtime.governedVerdict config protection checkGovernedTarget call =
          .ok demotion ∧ call.Decided demotion contest := by
  cases rejected : call.rejectedBefore.isSome with
  | true =>
      refine iff_of_true ⟨.rejected, ?_, by simp, by simp⟩ (.inl rfl)
      rw [proposeLane, rejected, if_pos rfl]
      rfl
  | false =>
      cases verdict : runtime.governedVerdict config protection checkGovernedTarget call with
      | ok demotion =>
          rw [lawful_of_verdict_iff rejected verdict]
          simp
      | error raised =>
          refine iff_of_false ?_ (by simp)
          rintro ⟨lane, taken, -⟩
          rw [proposeLane, rejected, if_neg Bool.false_ne_true, verdict] at taken
          cases taken

end Runtime

/-- Both functions take a lawful lane if and only if an earlier gate rejects the call, or the
governed lane answers and its comparison agrees with the one of the dispatch. -/
theorem proposals_take_lawful_lanes_iff (runtime : Runtime) (config : GateConfig)
    (protection : Bool) (call : LaneCall) :
    (call.Lawful (runtime.governedVerdict config protection false call) false
        (runtime.kbProposeMemoryFn config protection call) ↔
      call.rejectedBefore.isSome = true ∨
        ∃ demotion, runtime.governedVerdict config protection false call = .ok demotion ∧
          call.Decided demotion false) ∧
    ∀ contest : Bool,
      (call.Lawful (runtime.governedVerdict config protection true call) contest
          (runtime.kbProposeEditFn config protection contest call) ↔
        call.rejectedBefore.isSome = true ∨
          ∃ demotion, runtime.governedVerdict config protection true call = .ok demotion ∧
            call.Decided demotion contest) :=
  ⟨Runtime.lawful_iff, fun _ => Runtime.lawful_iff⟩

/-- A plain memory of a caller who may commit. -/
def plainCall (confidence : Confidence) : LaneCall where
  targetPath := inboxPath
  postimage := "Ask first.".toList
  confidence := confidence
  confidenceThreshold := .real (17 / 20)
  canAutoCommit := true
  idx := none
  today := ⟨2026, 8, 1⟩
  rejectedBefore := none

/-- A confidence that is NaN commits, as does an infinite one. -/
theorem nan_confidence_commits :
    (Runtime.ofBlocks []).kbProposeMemoryFn GateConfig.default true (plainCall .nan) =
        .ok .commits ∧
      (Runtime.ofBlocks []).kbProposeMemoryFn GateConfig.default true
        (plainCall (.infinite false)) = .ok .commits ∧
      ¬(plainCall .nan).Lawful
        ((Runtime.ofBlocks []).governedVerdict GateConfig.default true false (plainCall .nan)) false
        ((Runtime.ofBlocks []).kbProposeMemoryFn GateConfig.default true (plainCall .nan)) := by
  refine ⟨rfl, rfl, ?_⟩
  rintro ⟨lane, taken, commits, -⟩
  cases taken
  cases (commits rfl).1

/-! ## Proposals with a number -/

/-- The call of a proposal whose confidence is a number. -/
def Proposal.laneCall (proposal : Proposal) (config : LaneConfig) (confidence : ℚ)
    (idx : Option LiveIndex) (today : Date) : LaneCall where
  targetPath := proposal.targetPath
  postimage := proposal.postimage
  confidence := .real confidence
  confidenceThreshold := .real config.confidenceThreshold
  canAutoCommit := proposal.canAutoCommit
  idx := idx
  today := today
  rejectedBefore := none

namespace Runtime

variable {runtime : Runtime} {config : LaneConfig} {proposal : Proposal} {confidence : ℚ}

/-- On numbers the governed lane is the check of the proposal. -/
theorem governedVerdict_laneCall (number : proposal.confidence = some confidence)
    (idx : Option LiveIndex) (today : Date) :
    runtime.governedVerdict config.toGateConfig config.protection (proposal.kind = .edit)
        (proposal.laneCall config confidence idx today) =
      runtime.governedLaneCheck config proposal idx today := by
  unfold governedVerdict governedLaneCheck LaneCall.wouldAutoCommit
  rw [number]
  rfl

/-- On numbers a proposal goes on to its commit if and only if it is not parked. -/
theorem proposeLane_laneCall (number : proposal.confidence = some confidence)
    (idx : Option LiveIndex) (today : Date) :
    runtime.proposeLane config.toGateConfig config.protection (proposal.kind = .edit)
        (proposal.contest && proposal.kind = .edit)
        (proposal.laneCall config confidence idx today) = .ok .commits ↔
      ∃ demotion, runtime.governedLaneCheck config proposal idx today = .ok demotion ∧
        config.parks proposal demotion = false := by
  rw [← governedVerdict_laneCall number]
  cases verdict : runtime.governedVerdict config.toGateConfig config.protection
      (proposal.kind = .edit) (proposal.laneCall config confidence idx today) with
  | error raised =>
      unfold proposeLane
      rw [verdict]
      simp [Proposal.laneCall, bind, Except.bind]
  | ok demotion =>
      rw [proposeLane_of_verdict rfl verdict]
      unfold LaneConfig.parks
      rw [number]
      simp only [Except.ok.injEq, ite_eq_right_iff, reduceCtorEq, imp_false, exists_eq_left',
        Bool.not_eq_true]
      rfl

end Runtime

end DataOlympus
