import DataOlympus.Audit.Emission
import DataOlympus.Audit.Rotation
import DataOlympus.Gate.Messages

/-!
# The audit of decisions

Every exit of the two propose functions and of the resolve function emits one event before it
returns.  Identities, evidence and the other arguments are checked at the head of a function,
so that an event can be encoded.  What the content gate quotes of a front matter is not
checked, and a rejection that quotes a lone surrogate leaves no event.
-/

namespace DataOlympus

open Lines Transition

/-! ## The serialized commit -/

/-- What a response says. -/
structure Response where
  status : String
  reason : Option PyStr := none
  commitSha : Option Text := none
  pendingId : Option Text := none

/-- The writing-rule findings as `_rule_audit` marks them: `rule@line`, or
`check-failed`. -/
def ruleAudit (marks : List Text) (outcome : String) : Option Text :=
  if marks.isEmpty then none
  else some (outcome.toList ++ ':' :: [','].intercalate marks)

/-- How a gate of the commit ends.  The texts are the program's own, with names of patterns,
ids of git and encodable arguments. -/
inductive GateEnd where
  | passes
  | rejects (reason : Option Text) (matchingPattern : Option Text) (marks : List Text)
  | raises

/-- A rejection with which `_commit_in_worktree` ends. -/
structure Rejection where
  status : String
  reason : Option PyStr
  matchingPattern : Option Text
  marks : List Text

/-- How `_commit_in_worktree` ends. -/
inductive WriteEnd where
  | raised
  | pathLockBusy
  | rejected (rejection : Rejection)
  | demoted (reason : Text)
  | committed (sha : Text) (override : Option Text) (warnings : List Text)

/-- Whether the lock of a path is free. -/
inductive LockEnd where
  | free
  | busy
  | raises
  deriving DecidableEq

/-- The calls of `_commit_in_worktree`. -/
structure CommitCalls where
  lock : LockEnd
  /-- `get_or_create` returns. -/
  opens : Bool
  refreshBase : GateEnd
  messageBuilt : Bool
  safeJoin : GateEnd
  checkCas : GateEnd
  scanTargetPath : GateEnd
  scanPostimage : GateEnd
  writingRuleGate : GateEnd
  idMap : Option (List (PyStr × RelPath))
  worktree : Worktree
  /-- The governed target, unless its check raises. -/
  demotes : Option Bool
  /-- The commit that is made, unless a command fails. -/
  sha : Option Text
  /-- The pattern that an operator overrides. -/
  override : Option Text
  warnings : List Text

namespace CommitCalls

variable (calls : CommitCalls)

/-- The gates before the content gate, with the statuses of their rejections. -/
def gates : List (String × GateEnd) :=
  [("rejected_stale_base", calls.refreshBase),
    ("", if calls.messageBuilt then .passes else .raises),
    ("rejected_symlink_escape", calls.safeJoin),
    ("rejected_stale_base", calls.checkCas),
    ("rejected_secret_detected", calls.scanTargetPath),
    ("rejected_secret_detected", calls.scanPostimage),
    ("rejected_writing_rule", calls.writingRuleGate)]

/-- The first gate that does not pass. -/
def stopAt : List (String × GateEnd) → Option WriteEnd
  | [] => none
  | (_, .passes) :: rest => stopAt rest
  | (status, .rejects reason pattern marks) :: _ =>
      some (.rejected ⟨status, reason.map PyStr.ofText, pattern, marks⟩)
  | (_, .raises) :: _ => some .raised

/-- What ends the commit before the content gate. -/
def stopBefore : Option WriteEnd :=
  match calls.lock with
  | .busy => some .pathLockBusy
  | .raises => some .raised
  | .free => if calls.opens then stopAt calls.gates else some .raised

end CommitCalls

/-- A postimage as the YAML reader sees it: it refuses a lone surrogate like a NUL. -/
def PyStr.readable (s : PyStr) : Text :=
  s.map fun
    | .scalar c => c
    | .surrogate _ => '\x00'

namespace Runtime

variable (runtime : Runtime) (config : GateConfig)

/-- `_commit_in_worktree(…)`. -/
def commitInWorktree (calls : CommitCalls) (targetPath : RelPath) (postimage : PyStr) :
    WriteEnd :=
  match calls.stopBefore with
  | some stop => stop
  | none =>
      match runtime.validatePostimage config targetPath postimage.readable calls.idMap
          (some calls.worktree) [] with
      | .error _ => .raised
      | .ok [] =>
          match calls.demotes with
          | none => .raised
          | some true => .demoted "governed_target".toList
          | some false =>
              if !postimage.encodable then .raised
              else calls.sha.elim .raised fun sha => .committed sha calls.override calls.warnings
      | .ok errors => .rejected {
          status := "rejected_invalid_document"
          reason := some (PyStr.join (PyStr.lit "; ") (errors.map ValidationError.message))
          matchingPattern := none
          marks := [] }

end Runtime

/-! ## Checks of arguments -/

/-- `_reject_unencodable_identity(…)`. -/
def rejectUnencodableIdentity : List (String × Value) → Option PyStr
  | [] => none
  | (name, value) :: rest =>
      match value with
      | .null => rejectUnencodableIdentity rest
      | .str s =>
          if s.encodable then rejectUnencodableIdentity rest
          else some (PyStr.lit name ++ PyStr.lit " is not encodable as UTF-8")
      | _ => some (PyStr.lit name ++ PyStr.lit " must be a string")

/-- `_reject_unencodable_text(…)`. -/
def rejectUnencodableText : List (String × Value) → Option PyStr
  | [] => none
  | (name, value) :: rest =>
      match value with
      | .str s =>
          if s.encodable then rejectUnencodableText rest
          else some (PyStr.lit name ++ PyStr.lit " is not encodable as UTF-8")
      | _ => rejectUnencodableText rest

/-- `type(value).__name__`. -/
def Value.typeName : Value → String
  | .null => "NoneType"
  | .bool _ => "bool"
  | .int _ => "int"
  | .float _ => "float"
  | .str _ => "str"
  | .bytes _ => "bytes"
  | .date _ => "date"
  | .datetime .. => "datetime"
  | .list _ => "list"
  | .tuple _ => "tuple"
  | .set _ => "set"
  | .dict _ => "dict"

/-- `evidence`, with `[]` for `None`. -/
def givenEvidence : Value → Value
  | .null => .list []
  | value => value

/-- The check of the items of `_validate_evidence`: its error, or the items. -/
def evidenceItems : List Value → Except Text (List PyStr)
  | [] => .ok []
  | .str item :: rest =>
      if !item.encodable then .error "evidence items must be encodable as UTF-8".toList
      else if 500 < item.length then
        .error ("evidence item exceeds max 500 chars (got ".toList ++
          Nat.toDigits 10 item.length ++ ")".toList)
      else (evidenceItems rest).map (item :: ·)
  | _ :: _ => .error "evidence items must be strings".toList

/-- `_validate_evidence(evidence)`: its error, or the items. -/
def validateEvidence : Value → Except Text (List PyStr)
  | .list items =>
      if 10 < items.length then
        .error ("evidence exceeds max 10 items (got ".toList ++
          Nat.toDigits 10 items.length ++ ")".toList)
      else evidenceItems items
  | value => .error ("evidence must be a list of strings (got ".toList ++
      value.typeName.toList ++ ")".toList)

/-- `_redact_evidence(evidence) or None`. -/
def redactEvidence (config : GateConfig) (items : List PyStr) : Value :=
  if items.isEmpty then .null
  else .list (items.map fun item =>
    match config.scanSecrets item with
    | some found => .ofText ("[evidence redacted: secret pattern '".toList ++
        found.patternName ++ "' detected]".toList)
    | none => .str item)

/-- `value or None` for a flag. -/
def flagOrNone (flag : Bool) : Value :=
  if flag then .bool true else .null

/-! ## How a function returns -/

inductive CallResult where
  | raised
  /-- A response, after the events were emitted. -/
  | returned (response : Response) (emitted : List Mapping)

/-- A function emits `{**audit_base, …}` and returns. -/
def exit (auditBase : Mapping) (event : List (String × Value)) (response : Response) :
    CallResult :=
  .returned response [auditBase.updated event]

/-- A status of the source. -/
def status (name : String) : String × Value :=
  ("status", .str (PyStr.lit name))

/-- A function has returned, or goes on to commit. -/
inductive Stage where
  | ended (result : CallResult)
  | commits (auditBase : Mapping) (targetPath : RelPath) (postimage : PyStr)

/-- How `pending.enqueue` ends. -/
inductive ParkEnd where
  | queued (pendingId : Text)
  | pathLockBusy
  | queueFull
  | raises

/-- `validate_capture(…)`. -/
inductive CaptureEnd where
  | absent
  | accepted (envelope : List (Text × Text))
  | secret (patternName : Text)
  | invalid (reason : Text)

/-- The accepted envelope, or `None`. -/
def CaptureEnd.value : CaptureEnd → Value
  | .accepted envelope => .dict (envelope.map fun field => (.ofText field.1, .ofText field.2))
  | _ => .null

/-- The name of the pattern that flags a text. -/
def GateConfig.flagged (config : GateConfig) (text : PyStr) : Option Text :=
  (config.scanSecrets text).map SecretMatch.patternName

/-! ## Proposing a memory -/

/-- The arguments of a memory proposal, and how the calls on its way end. -/
structure MemoryCall where
  agentIdentity : Value
  sourceSession : Value
  text : PyStr
  evidence : Value
  confidence : BitVec 64
  remoteAddr : Text
  capture : CaptureEnd
  /-- The path of the inbox, made of the date, the text and the session. -/
  targetPath : Text
  /-- The same path, if it is writable. -/
  writable : Option RelPath
  pathRejectionReason : Text
  targetTier : Text
  blocked : Bool
  allowed : Bool
  /-- `_render_memory(…)`, unless it raises. -/
  rendered : Option Text
  tooLarge : Bool
  /-- The demotion reason, and whether an injection is suspected, unless the check raises. -/
  governed : Option (Option Text × Bool)
  /-- The confidence is low, or the caller may not commit. -/
  unauthorized : Bool
  enqueue : ParkEnd
  commit : CommitCalls

namespace MemoryCall

variable (config : GateConfig) (call : MemoryCall)

def auditBase : Mapping :=
  Mapping.updated [] [("event_type", .str (PyStr.lit "propose_memory")),
    ("agent_identity", call.agentIdentity), ("source_session", call.sourceSession),
    ("target_path", .ofText call.targetPath), ("confidence", .float call.confidence),
    ("remote_addr", .ofText call.remoteAddr)]

/-- The branch that parks the proposal. -/
def park (auditBase : Mapping) (evidence : List PyStr) (postimage : Text)
    (demotionReason : Option Text) (injected : Bool) : CallResult :=
  match call.enqueue with
  | .raises => .raised
  | .pathLockBusy =>
      exit auditBase [status "rejected_path_lock_busy"] { status := "rejected_path_lock_busy" }
  | .queueFull =>
      exit auditBase [status "rejected_pending_queue_full"]
        { status := "rejected_pending_queue_full" }
  | .queued pendingId =>
      exit auditBase
        [status "pending_confirmation", ("pending_id", .ofText pendingId),
          ("matching_pattern", .ofOption (config.flagged (PyStr.ofText postimage))),
          ("evidence", redactEvidence config evidence),
          ("demotion_reason", .ofOption demotionReason),
          ("injection_suspect", flagOrNone injected), ("capture", call.capture.value)]
        { status := "pending_confirmation", pendingId := some pendingId }

/-- What follows the checks of path and rate. -/
def prepareRendered (auditBase : Mapping) (evidence : List PyStr) (targetPath : RelPath) : Stage :=
  match call.rendered with
  | none => .ended .raised
  | some postimage =>
      if call.tooLarge then
        .ended (exit auditBase [status "rejected_payload_too_large"]
          { status := "rejected_payload_too_large" })
      else
        match call.governed with
        | none => .ended .raised
        | some (demotionReason, injected) =>
            if call.unauthorized || demotionReason.isSome then
              .ended (call.park config auditBase evidence postimage demotionReason injected)
            else .commits auditBase targetPath (PyStr.ofText postimage)

/-- What follows the check of the evidence. -/
def prepareChecked (evidence : List PyStr) : Stage :=
  match call.capture with
  | .secret patternName =>
      let reason := "secret pattern '".toList ++ patternName ++ "' detected in capture".toList
      .ended (exit call.auditBase
        [status "rejected_secret_detected", ("reason", .ofText reason),
          ("matching_pattern", .ofText patternName)]
        { status := "rejected_secret_detected", reason := some (PyStr.ofText reason) })
  | .invalid reason =>
      .ended (exit call.auditBase [status "rejected_invalid_capture", ("reason", .ofText reason)]
        { status := "rejected_invalid_capture", reason := some (PyStr.ofText reason) })
  | .absent | .accepted _ =>
      match call.writable with
      | none =>
          .ended (exit call.auditBase
            [status "rejected_path_not_indexable", ("reason", .ofText call.pathRejectionReason)]
            { status := "rejected_path_not_indexable"
              reason := some (PyStr.ofText call.pathRejectionReason) })
      | some targetPath =>
          let auditBase := call.auditBase.set "target_tier" (.ofText call.targetTier)
          if call.blocked then
            .ended (exit auditBase
              [status "rejected_path_blocked", ("reason", .str (PyStr.lit "tier_blocked"))]
              { status := "rejected_path_blocked", reason := some (PyStr.lit "tier_blocked") })
          else if !call.allowed then
            .ended (exit auditBase [status "rejected_rate_limited"]
              { status := "rejected_rate_limited" })
          else call.prepareRendered config auditBase evidence targetPath

/-- `kb_propose_memory_fn(…)`, up to the commit.  A text that cannot be encoded has no file
name. -/
def prepare : Stage :=
  match rejectUnencodableIdentity [("agent_identity", call.agentIdentity),
      ("source_session", call.sourceSession)] with
  | some reason =>
      .ended (.returned { status := "rejected_invalid_encoding", reason := some reason } [])
  | none =>
      if !call.text.encodable then .ended .raised
      else
        match validateEvidence (givenEvidence call.evidence) with
        | .error reason =>
            .ended (exit call.auditBase
              [status "rejected_invalid_evidence", ("reason", .ofText reason)]
              { status := "rejected_invalid_evidence", reason := some (PyStr.ofText reason) })
        | .ok evidence => call.prepareChecked config evidence

/-- The evidence that passed its check. -/
def evidenceGiven : List PyStr :=
  match validateEvidence (givenEvidence call.evidence) with
  | .error _ => []
  | .ok evidence => evidence

/-- What follows the commit. -/
def finish (auditBase : Mapping) : WriteEnd → CallResult
  | .raised | .demoted _ => .raised
  | .pathLockBusy =>
      exit auditBase [status "rejected_path_lock_busy"] { status := "rejected_path_lock_busy" }
  | .rejected rejection =>
      exit auditBase
        [status rejection.status, ("reason", rejection.reason.elim .null .str),
          ("matching_pattern", .ofOption rejection.matchingPattern),
          ("writing_rules", .ofOption (ruleAudit rejection.marks "rejected"))]
        { status := rejection.status, reason := rejection.reason }
  | .committed sha _ warnings =>
      exit auditBase
        [status "committed", ("commit_sha", .ofText sha),
          ("evidence", redactEvidence config call.evidenceGiven),
          ("injection_suspect", flagOrNone (call.governed.any Prod.snd)),
          ("writing_rules", .ofOption (ruleAudit warnings "warned")),
          ("capture", call.capture.value)]
        { status := "committed", commitSha := some sha }

end MemoryCall

/-! ## Proposing an edit -/

/-- `_validate_contest(contest)`. -/
inductive ContestEnd where
  | absent
  | accepted
  | rejected (status : String) (reason : Text) (matchingPattern : Option Text)

/-- The arguments of an edit proposal, and how the calls on its way end. -/
structure EditCall where
  agentIdentity : Value
  sourceSession : Value
  targetPath : Value
  baseCommit : Value
  baseBlobSha : Value
  targetFileHash : Value
  postimage : PyStr
  reason : PyStr
  evidence : Value
  confidence : BitVec 64
  remoteAddr : Text
  contest : ContestEnd
  /-- `_validate_base_markers(…)`. -/
  baseMarkerError : Option Text
  /-- The canonical path, if it is writable. -/
  canonical : Option RelPath
  pathRejectionReason : Text
  targetTier : Text
  blocked : Bool
  allowed : Bool
  /-- `_check_contest_index(…)`: the status and the reason of its rejection. -/
  contestIndexError : Option (String × Text)
  /-- There is a cap on the size. -/
  capped : Bool
  tooLarge : Bool
  governed : Option (Option Text × Bool)
  unauthorized : Bool
  enqueue : ParkEnd
  commit : CommitCalls

/-- `_REDACTED_PATH`. -/
def redactedPath : Text :=
  "[target_path redacted: matched a secret pattern]".toList

namespace EditCall

variable (config : GateConfig) (call : EditCall)

/-- The reason as it is kept: without a secret, and encodable. -/
def safeReason : PyStr :=
  match config.flagged call.reason with
  | some patternName =>
      PyStr.ofText ("[reason redacted: secret pattern '".toList ++ patternName ++
        "' detected]".toList)
  | none =>
      if call.reason.encodable then call.reason
      else PyStr.lit "[reason omitted: not encodable as UTF-8]"

def auditBase : Mapping :=
  Mapping.updated [] [("event_type", .str (PyStr.lit "propose_edit")),
    ("agent_identity", call.agentIdentity), ("source_session", call.sourceSession),
    ("target_path", call.targetPath), ("confidence", .float call.confidence),
    ("reason", .str (call.safeReason config)), ("remote_addr", .ofText call.remoteAddr)]

/-- `_park(park_demotion_reason)`. -/
def park (auditBase : Mapping) (evidence : List PyStr) (demotionReason : Option Text)
    (injected : Bool) : CallResult :=
  match call.enqueue with
  | .raises => .raised
  | .pathLockBusy =>
      exit auditBase [status "rejected_path_lock_busy"] { status := "rejected_path_lock_busy" }
  | .queueFull =>
      exit auditBase [status "rejected_pending_queue_full"]
        { status := "rejected_pending_queue_full" }
  | .queued pendingId =>
      exit auditBase
        [status "pending_confirmation", ("pending_id", .ofText pendingId),
          ("matching_pattern", .ofOption (config.flagged call.postimage)),
          ("evidence", redactEvidence config evidence),
          ("demotion_reason", .ofOption demotionReason),
          ("injection_suspect", flagOrNone injected)]
        { status := "pending_confirmation", pendingId := some pendingId }

/-- What follows the checks of path and rate. -/
def prepareSized (auditBase : Mapping) (evidence : List PyStr) (targetPath : RelPath) : Stage :=
  if call.capped && !call.postimage.encodable then .ended .raised
  else if call.capped && call.tooLarge then
    .ended (exit auditBase [status "rejected_payload_too_large"]
      { status := "rejected_payload_too_large" })
  else
    match call.governed with
    | none => .ended .raised
    | some (demotionReason, injected) =>
        let contested := match call.contest with
          | .accepted => true
          | _ => false
        if call.unauthorized || demotionReason.isSome || contested then
          .ended (call.park config auditBase evidence demotionReason injected)
        else .commits auditBase targetPath call.postimage

/-- What follows the check of the base markers. -/
def preparePath (auditBase : Mapping) (evidence : List PyStr) : Stage :=
  match call.canonical with
  | none =>
      .ended (exit auditBase
        [status "rejected_path_not_indexable", ("reason", .ofText call.pathRejectionReason)]
        { status := "rejected_path_not_indexable"
          reason := some (PyStr.ofText call.pathRejectionReason) })
  | some targetPath =>
      let auditBase := (auditBase.set "target_path" (.ofText targetPath.text)).set "target_tier"
        (.ofText call.targetTier)
      if call.blocked then
        .ended (exit auditBase [status "rejected_path_blocked"]
          { status := "rejected_path_blocked", reason := some (PyStr.lit "tier_blocked") })
      else if !call.allowed then
        .ended (exit auditBase [status "rejected_rate_limited"]
          { status := "rejected_rate_limited" })
      else
        match call.contestIndexError with
        | some (rejected, reason) =>
            .ended (exit auditBase [status rejected, ("reason", .ofText reason)]
              { status := rejected, reason := some (PyStr.ofText reason) })
        | none => call.prepareSized config auditBase evidence targetPath

/-- What follows the scan of the path. -/
def prepareScanned : Stage :=
  let auditBase := call.auditBase config
  match validateEvidence (givenEvidence call.evidence) with
  | .error reason =>
      .ended (exit auditBase [status "rejected_invalid_evidence", ("reason", .ofText reason)]
        { status := "rejected_invalid_evidence", reason := some (PyStr.ofText reason) })
  | .ok evidence =>
      match call.contest with
      | .rejected rejected reason matchingPattern =>
          .ended (exit auditBase
            [status rejected, ("reason", .ofText reason),
              ("matching_pattern", .ofOption matchingPattern)]
            { status := rejected, reason := some (PyStr.ofText reason) })
      | .absent | .accepted =>
          match call.baseMarkerError with
          | some reason =>
              .ended (exit auditBase [status "rejected_invalid_base", ("reason", .ofText reason)]
                { status := "rejected_invalid_base", reason := some (PyStr.ofText reason) })
          | none => call.preparePath config auditBase evidence

/-- `kb_propose_edit_fn(…)`, up to the commit.  The scan raises on a path that is no
string. -/
def prepare : Stage :=
  match (rejectUnencodableIdentity [("agent_identity", call.agentIdentity),
      ("source_session", call.sourceSession), ("target_path", call.targetPath)]).or
      (rejectUnencodableText [("base_commit", call.baseCommit),
        ("base_blob_sha", call.baseBlobSha), ("target_file_hash", call.targetFileHash)]) with
  | some reason =>
      .ended (.returned { status := "rejected_invalid_encoding", reason := some reason } [])
  | none =>
      match call.targetPath with
      | .str targetPath =>
          match config.flagged targetPath with
          | some patternName =>
              let reason := "secret pattern '".toList ++ patternName ++
                "' detected in target_path".toList
              .ended (exit []
                [("event_type", .str (PyStr.lit "propose_edit")),
                  status "rejected_secret_detected", ("agent_identity", call.agentIdentity),
                  ("source_session", call.sourceSession), ("target_path", .ofText redactedPath),
                  ("confidence", .float call.confidence),
                  ("remote_addr", .ofText call.remoteAddr), ("reason", .ofText reason),
                  ("matching_pattern", .ofText patternName)]
                { status := "rejected_secret_detected", reason := some (PyStr.ofText reason) })
          | none => call.prepareScanned config
      | _ => .ended .raised

/-- The evidence that passed its check. -/
def evidenceGiven : List PyStr :=
  match validateEvidence (givenEvidence call.evidence) with
  | .error _ => []
  | .ok evidence => evidence

/-- `resp.reason or reason`. -/
def reasonOr (given : Option PyStr) : PyStr :=
  match given with
  | none | some [] => call.safeReason config
  | some reason => reason

/-- What follows the commit. -/
def finish (auditBase : Mapping) : WriteEnd → CallResult
  | .raised => .raised
  | .demoted reason =>
      call.park config auditBase call.evidenceGiven (some reason) (call.governed.any Prod.snd)
  | .pathLockBusy =>
      exit auditBase [status "rejected_path_lock_busy"] { status := "rejected_path_lock_busy" }
  | .rejected rejection =>
      exit auditBase
        [status rejection.status, ("reason", .str (call.reasonOr config rejection.reason)),
          ("matching_pattern", .ofOption rejection.matchingPattern),
          ("writing_rules", .ofOption (ruleAudit rejection.marks "rejected"))]
        { status := rejection.status, reason := rejection.reason }
  | .committed sha _ warnings =>
      exit auditBase
        [status "committed", ("commit_sha", .ofText sha),
          ("evidence", redactEvidence config call.evidenceGiven),
          ("injection_suspect", flagOrNone (call.governed.any Prod.snd)),
          ("writing_rules", .ofOption (ruleAudit warnings "warned"))]
        { status := "committed", commitSha := some sha }

end EditCall

/-! ## Resolving a pending proposal -/

/-- How `pending.reject` ends. -/
inductive RejectEnd where
  | rejected
  | alreadyResolved
  | raises

/-- How `pending.claim_for_resolve` ends. -/
inductive ClaimEnd where
  | resolved (targetPath : RelPath) (postimage : PyStr)
  | alreadyResolved
  | raises

/-- The arguments of a resolve, and how the calls on its way end. -/
structure ResolveCall where
  agentIdentity : Value
  sourceSession : Value
  pendingId : Value
  editedText : Value
  decision : PyStr
  reject : RejectEnd
  /-- `_with_capture_reattached(…)`: the text to commit, if one is given, unless it raises. -/
  reattached : Option (Option Text)
  tooLarge : Bool
  overrideSecretScan : Bool
  claim : ClaimEnd
  /-- The tier of the path, unless `_classify` raises. -/
  targetTier : Option Text
  /-- `float(…)` of the entry's confidence, unless it raises. -/
  confidence : Option (BitVec 64)
  commit : CommitCalls

namespace ResolveCall

variable (config : GateConfig) (call : ResolveCall)

def auditBase : Mapping :=
  Mapping.updated [] [("event_type", .str (PyStr.lit "resolve")),
    ("agent_identity", call.agentIdentity), ("source_session", call.sourceSession),
    ("pending_id", call.pendingId)]

/-- What follows the claim.  The first `float` is only for the audit; the second raises
where it did. -/
def prepareClaimed (targetPath : RelPath) (postimage : PyStr) : Stage :=
  match call.targetTier, call.confidence with
  | some targetTier, some confidence =>
      let shown :=
        if (config.flagged (PyStr.ofText targetPath.text)).isSome then redactedPath
        else targetPath.text
      .commits (((call.auditBase.set "target_path" (.ofText shown)).set "target_tier"
        (.ofText targetTier)).set "confidence" (.float confidence)) targetPath postimage
  | _, _ => .ended .raised

/-- What follows the decision to commit. -/
def prepareText (text : Option Text) : Stage :=
  if text.isSome && call.tooLarge then
    .ended (exit call.auditBase [status "rejected_edited_text_too_large"]
      { status := "rejected_edited_text_too_large" })
  else
    let found := if call.overrideSecretScan then none
      else text.bind fun edited => config.scanSecrets (PyStr.ofText edited)
    match found with
    | some found =>
        let reason := "secret pattern '".toList ++ found.patternName ++
          "' detected near line ".toList ++ Nat.toDigits 10 found.line
        .ended (exit call.auditBase
          [status "rejected_secret_detected", ("reason", .ofText reason),
            ("matching_pattern", .ofText found.patternName)]
          { status := "rejected_secret_detected", reason := some (PyStr.ofText reason) })
    | none =>
        match call.claim with
        | .raises => .ended .raised
        | .alreadyResolved =>
            .ended (exit call.auditBase [status "already_resolved"]
              { status := "already_resolved" })
        | .resolved targetPath postimage => call.prepareClaimed config targetPath postimage

/-- `kb_resolve_pending_fn(…)`, up to the commit. -/
def prepare : Stage :=
  match rejectUnencodableIdentity [("agent_identity", call.agentIdentity),
      ("source_session", call.sourceSession), ("pending_id", call.pendingId),
      ("edited_text", call.editedText)] with
  | some reason =>
      .ended (.returned { status := "rejected_invalid_encoding", reason := some reason } [])
  | none =>
      if call.decision = PyStr.lit "reject" then
        match call.reject with
        | .raises => .ended .raised
        | .alreadyResolved =>
            .ended (exit call.auditBase [status "already_resolved"]
              { status := "already_resolved" })
        | .rejected => .ended (exit call.auditBase [status "rejected"] { status := "rejected" })
      else if call.decision ≠ PyStr.lit "approve" ∧ call.decision ≠ PyStr.lit "edit" then
        .ended (exit call.auditBase [status "rejected_bad_decision"]
          { status := "rejected_bad_decision" })
      else
        match call.reattached with
        | none => .ended .raised
        | some text => call.prepareText config text

/-- What follows the commit. -/
def finish (auditBase : Mapping) : WriteEnd → CallResult
  | .raised | .pathLockBusy | .demoted _ => .raised
  | .rejected rejection =>
      exit auditBase
        [status rejection.status, ("reason", rejection.reason.elim .null .str),
          ("matching_pattern", .ofOption rejection.matchingPattern),
          ("writing_rules", .ofOption (ruleAudit rejection.marks "rejected"))]
        { status := rejection.status, reason := rejection.reason }
  | .committed sha override warnings =>
      exit auditBase
        ([status "committed", ("commit_sha", .ofText sha)] ++
          (override.elim [] fun patternName =>
            [("secret_scan_override", .bool true), ("matching_pattern", .ofText patternName)]) ++
          (ruleAudit warnings "warned").elim [] fun marks => [("writing_rules", .ofText marks)])
        { status := "committed", commitSha := some sha }

end ResolveCall

/-- A call of one of the three functions. -/
inductive DecisionCall where
  | memory (call : MemoryCall)
  | edit (call : EditCall)
  | resolve (call : ResolveCall)

namespace DecisionCall

/-- The function, up to the commit. -/
def prepare (config : GateConfig) : DecisionCall → Stage
  | memory call => call.prepare config
  | edit call => call.prepare config
  | resolve call => call.prepare config

def commitCalls : DecisionCall → CommitCalls
  | memory call => call.commit
  | edit call => call.commit
  | resolve call => call.commit

/-- What follows the commit. -/
def finish (config : GateConfig) (auditBase : Mapping) (written : WriteEnd) :
    DecisionCall → CallResult
  | memory call => call.finish config auditBase written
  | edit call => call.finish config auditBase written
  | resolve _ => ResolveCall.finish auditBase written

/-- The whole function. -/
def run (runtime : Runtime) (config : GateConfig) (call : DecisionCall) : CallResult :=
  match call.prepare config with
  | .ended result => result
  | .commits auditBase targetPath postimage =>
      call.finish config auditBase
        (runtime.commitInWorktree config call.commitCalls targetPath postimage)

/-- A call that gets to the content gate gives it a front matter of which nothing that the
gate quotes holds a lone surrogate. -/
def QuotesEncodable (runtime : Runtime) (config : GateConfig) (call : DecisionCall) : Prop :=
  match call.prepare config with
  | .ended _ => True
  | .commits _ targetPath postimage => call.commitCalls.stopBefore = none →
      runtime.QuotesEncodable config targetPath postimage.readable call.commitCalls.idMap
        (some call.commitCalls.worktree)

end DecisionCall

/-- One event was appended and ends the live file, with the status, the commit and the pending
id of the response. -/
def Audited (before after : AuditState) (response : Response) : Prop :=
  ∃ event : Mapping, after.written = before.written ++ [event] ∧
    (∃ earlier, after.live = some (earlier ++ [.json (.dict event)])) ∧
    event.get "status" = some (.str (PyStr.lit response.status)) ∧
    (∀ sha, response.commitSha = some sha → event.get "commit_sha" = some (.ofText sha)) ∧
    ∀ id, response.pendingId = some id → event.get "pending_id" = some (.ofText id)

end DataOlympus
