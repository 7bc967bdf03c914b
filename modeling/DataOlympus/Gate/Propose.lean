import DataOlympus.Gate.Accepted
import DataOlympus.Gate.Backstop
import Mathlib.Data.Rat.Lemmas

/-!
# Agent proposals

A proposal passes the governed lane once at the tool layer, against the live index,
and then the gates of the serialized commit, against the tree it commits onto.  The
gates that are not modelled here (the path lock, the compare-and-swap, the writing
rules) can only reject.
-/

namespace DataOlympus

open Lines

inductive ProposalKind where
  | memory
  | edit
  deriving DecidableEq

/-- A proposed write.  A confidence that is not a number is `none`. -/
structure Proposal where
  kind : ProposalKind
  targetPath : RelPath
  postimage : Text
  confidence : Option ℚ
  canAutoCommit : Bool
  contest : Bool

/-- The settings of the write path. -/
structure LaneConfig extends GateConfig where
  confidenceThreshold : ℚ
  /-- `governed_lane_protection_enabled()`. -/
  protection : Bool

namespace LiveIndex

/-- The id map a gate can read, if there is one. -/
def readableMap (idx : Option LiveIndex) : Option (List (PyStr × RelPath)) :=
  idx.bind fun live => if live.mapRaises then none else some live.index.idToPathMap

end LiveIndex

namespace LaneConfig

variable (config : LaneConfig)

/-- The scanner flags the path or the postimage. -/
def secretFlagged (proposal : Proposal) : Bool :=
  (config.scanSecrets (PyStr.ofText proposal.targetPath.text)).isSome ||
    (config.scanSecrets (PyStr.ofText proposal.postimage)).isSome

/-- The branch of a propose call that parks the proposal. -/
def parks (proposal : Proposal) (demotion : Option DemotionReason) : Bool :=
  proposal.confidence.any (· < config.confidenceThreshold) || !proposal.canAutoCommit ||
    demotion.isSome || (proposal.contest && proposal.kind = .edit)

end LaneConfig

namespace Runtime

variable (runtime : Runtime) (config : LaneConfig)

/-- The index-only prediction that the content gate will reject. -/
def predictsRejection (proposal : Proposal) (idx : Option LiveIndex) :
    Except Raised Bool := do
  let errors ← runtime.validatePostimage config.toGateConfig proposal.targetPath
    proposal.postimage (LiveIndex.readableMap idx) none []
  return errors.any fun error => !error.code.snapshotDependent

/-- `_governed_lane_check(…)`: the demotion reason that stands. -/
def governedLaneCheck (proposal : Proposal) (idx : Option LiveIndex) (today : Date) :
    Except Raised (Option DemotionReason) :=
  if config.protection then do
    let verdict ← runtime.evaluateGovernedLane proposal.postimage proposal.targetPath idx
      (proposal.kind = .edit) today
    match verdict with
    | none => return none
    | some reason =>
        if proposal.confidence.any (config.confidenceThreshold ≤ ·) &&
            proposal.canAutoCommit then do
          let rejected ← runtime.predictsRejection config proposal idx
          if config.secretFlagged proposal || rejected then return none
          else return some reason
        else return some reason
  else return none

/-- The governed-target backstop inside the commit: an existing target of an edit is
in force. -/
def backstopDemotes (proposal : Proposal) (tree : Tree) (today : Date) :
    Except Raised Bool :=
  if config.protection && proposal.kind = .edit then
    match tree.lookup proposal.targetPath with
    | none => .ok false
    | some committed =>
        runtime.isBaseContentInForce config.inboxPrefix (readBack committed)
          proposal.targetPath today
  else .ok false

/-- The modelled gates of `_commit_in_worktree` let the proposal commit onto
`tree`.  The snapshot of the committed tree may be unavailable. -/
structure Commits (proposal : Proposal) (idx : Option LiveIndex) (tree : Tree)
    (snapshot : Option Snapshot) (today : Date) : Prop where
  notSecret : config.secretFlagged proposal = false
  snapshotRead : snapshot = none ∨ snapshot = runtime.snapshotOf tree
  valid : runtime.Accepts config.toGateConfig proposal.targetPath proposal.postimage
    (LiveIndex.readableMap idx) (some ⟨tree.isFile, snapshot⟩) []
  notProtected : runtime.backstopDemotes config proposal tree today = .ok false

end Runtime

end DataOlympus
