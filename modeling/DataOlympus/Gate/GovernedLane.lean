import DataOlympus.Index.Build

/-!
# The governed lane

Three checks decide whether an agent's write may commit on its own: the status
clamp on the postimage, the state of the target in the live index, and, inside the
commit, the state of the target judged from the bytes about to be replaced.  The
scan for injection patterns is advisory and never changes a verdict, so it is left
out.
-/

namespace DataOlympus

open Lines

namespace Index

/-- `idx.id_to_path_map()`. -/
def idToPathMap (index : Index) : List (PyStr × RelPath) :=
  index.rows.map fun row => (row.id, row.path)

/-- `idx.get(id)`. -/
def get (index : Index) (id : PyStr) : Option DocRow :=
  index.rows.find? fun row => row.id = id

/-- `id` is the target of a `supersedes` edge whose source row is in force; both
ends must be indexed. -/
def graphExcluded (index : Index) (today : Date) (id : PyStr) : Bool :=
  index.edges.any fun edge =>
    edge.relation = .supersedes && edge.target = id &&
      index.rows.any (fun row => row.id = edge.source && row.inForce today) &&
      index.rows.any fun row => row.id = id

/-- The composed predicate of every in-force surface. -/
def inForce (index : Index) (today : Date) (row : DocRow) : Bool :=
  !index.graphExcluded today row.id && row.inForce today

end Index

/-- The live index, and which of its reads raise. -/
structure LiveIndex where
  index : Index
  mapRaises : Bool
  getRaises : Bool
  graphRaises : Bool

/-- An index whose reads succeed. -/
def LiveIndex.healthy (index : Index) : LiveIndex :=
  ⟨index, false, false, false⟩

/-- Outcome of the governed-target lookup. -/
inductive TargetState where
  | inForce
  | notInForce
  | unknown
  deriving DecidableEq

/-- `governed_target_state(idx, target_path, today=…)`. -/
def governedTargetState (idx : Option LiveIndex) (targetPath : RelPath)
    (today : Date) : TargetState :=
  match idx with
  | none => .unknown
  | some live =>
      if live.mapRaises then .unknown
      else
        match live.index.idToPathMap.find? fun entry => entry.2 = targetPath with
        | none => .notInForce
        | some (docId, _) =>
            if live.getRaises then .unknown
            else
              match live.index.get docId with
              | none => .unknown
              | some row =>
                  if !live.graphRaises && live.index.graphExcluded today row.id then
                    .notInForce
                  else if row.inForce today then .inForce
                  else .notInForce

/-- Why the lane parks a write. -/
inductive DemotionReason where
  | statusPromotion
  | governedTarget
  | governedTargetUnverified
  deriving DecidableEq

namespace Mapping

/-- `fm.get("status")` when it is a string, else the empty string. -/
def claimedStatus (entries : Mapping) : PyStr :=
  match entries.get "status" with
  | some (.str s) => s
  | _ => []

end Mapping

namespace Runtime

variable (runtime : Runtime)

/-- The two window dates of a `validity` value, each read on its own. -/
def fieldWindow : Option Value → Option Date × Option Date
  | some (.dict block) =>
      ((runtime.validityDate block "valid_from").1,
        (runtime.validityDate block "valid_until").1)
  | _ => (none, none)

/-- `check_status_clamp(postimage)`: the in-force status claimed, if any. -/
def checkStatusClamp (postimage : Text) : Except Raised (Option PyStr) :=
  match runtime.parseFrontmatter postimage with
  | .error (.valueError _) => .ok none
  | .error raised => .error raised
  | .ok (entries, _) =>
      match entries.get "status" with
      | some (.str status) =>
          .ok (if status ∈ inForceStatuses then some status else none)
      | _ => .ok none

/-- `is_base_content_in_force(content, target_path, today=…)`. -/
def isBaseContentInForce (inboxPrefix content : Text) (targetPath : RelPath)
    (today : Date) : Except Raised Bool :=
  (runtime.lenientFrontmatter content).map fun entries =>
    let window := runtime.fieldWindow (entries.get "validity")
    isInForce entries.claimedStatus window.1 window.2 today
      (targetPath.isInbox inboxPrefix)

/-- `evaluate_governed_lane(…)`: the demotion reason. -/
def evaluateGovernedLane (postimage : Text) (targetPath : RelPath)
    (idx : Option LiveIndex) (checkGovernedTarget : Bool) (today : Date) :
    Except Raised (Option DemotionReason) := do
  match ← runtime.checkStatusClamp postimage with
  | some _ => return some .statusPromotion
  | none =>
      if checkGovernedTarget then
        match governedTargetState idx targetPath today with
        | .inForce => return some .governedTarget
        | .unknown => return some .governedTargetUnverified
        | .notInForce => return none
      else return none

end Runtime

end DataOlympus
