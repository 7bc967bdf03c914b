import DataOlympus.Audit.Exits

/-!
# Returned decisions are audited

Up to the commit every exit of the three functions is told, and the commit starts over a clean
base.  What follows the commit is told exactly if the content gate quotes nothing that cannot
be encoded.
-/

namespace DataOlympus

open Lines Transition

/-- A stage has told its end, or commits over a clean base. -/
def Stage.Sound : Stage → Prop
  | ended result => result.Tells True
  | commits auditBase _ _ => auditBase.Clean

/-- The fields of a rejection. -/
theorem tells_rejection {auditBase : Mapping} (clean : auditBase.Clean) (rejection : Rejection)
    {shown : Value} (same : shown.serializes = true ↔ WriteEnd.Encodable (.rejected rejection)) :
    (exit auditBase
      [status rejection.status, ("reason", shown),
        ("matching_pattern", .ofOption rejection.matchingPattern),
        ("writing_rules", .ofOption (ruleAudit rejection.marks "rejected"))]
      { status := rejection.status, reason := rejection.reason }).Tells
        (WriteEnd.Encodable (.rejected rejection)) := by
  rw [← same]
  apply tells_exit clean
  · exact ⟨by simp [status], by simp [status, auditFields]⟩
  · exact ⟨by simp [status], by simp, by simp⟩
  · simp [status, Value.serializes]

/-- The reason of a rejection, or `None`. -/
theorem serializes_reason_iff (rejection : Rejection) :
    (rejection.reason.elim Value.null Value.str).serializes = true ↔
      WriteEnd.Encodable (.rejected rejection) := by
  obtain ⟨name, reason, pattern, marks⟩ := rejection
  cases reason with
  | none => exact iff_of_true rfl nofun
  | some reason => simp [WriteEnd.Encodable, Value.serializes]

namespace MemoryCall

variable {config : GateConfig} {call : MemoryCall}

theorem clean_auditBase (checked : rejectUnencodableIdentity
    [("agent_identity", call.agentIdentity), ("source_session", call.sourceSession)] = none) :
    call.auditBase.Clean := by
  have identities := serializes_of_rejectUnencodableIdentity checked
  simp only [List.forall_mem_cons] at identities
  apply Mapping.clean_nil.updated
  simp [identities, Value.serializes]

theorem encodable_evidenceGiven : call.evidenceGiven.all PyStr.encodable = true := by
  unfold evidenceGiven
  split
  · rfl
  · rename_i passed
    exact encodable_of_validateEvidence passed

theorem tells_park {auditBase : Mapping} (clean : auditBase.Clean) {evidence : List PyStr}
    (encodable : evidence.all PyStr.encodable = true) (postimage : Text)
    (demotionReason : Option Text) (injected : Bool) :
    (call.park config auditBase evidence postimage demotionReason injected).Tells True := by
  unfold park
  cases call.enqueue with
  | raises => exact tells_raised
  | pathLockBusy => exact tells_status clean _ none
  | queueFull => exact tells_status clean _ none
  | queued pendingId =>
      apply tells_exit_of_serializes clean
      · exact ⟨by simp [status], by simp [status, auditFields]⟩
      · exact ⟨by simp [status], by simp, by simp [status, List.lookup_cons]⟩
      · simp [status, Value.serializes, serializes_redactEvidence config encodable]

theorem sound_prepareRendered {auditBase : Mapping} (clean : auditBase.Clean)
    {evidence : List PyStr} (encodable : evidence.all PyStr.encodable = true)
    (targetPath : RelPath) :
    (call.prepareRendered config auditBase evidence targetPath).Sound := by
  unfold prepareRendered
  cases call.rendered with
  | none => exact tells_raised
  | some postimage =>
      dsimp only
      split
      · exact tells_status clean _ none
      · cases call.governed with
        | none => exact tells_raised
        | some verdict =>
            dsimp only
            split
            · exact tells_park clean encodable postimage verdict.1 verdict.2
            · exact clean

theorem sound_prepareChecked (clean : call.auditBase.Clean) {evidence : List PyStr}
    (encodable : evidence.all PyStr.encodable = true) :
    (call.prepareChecked config evidence).Sound := by
  unfold prepareChecked
  split
  · exact tells_pattern clean _ _ (some _) _
  · exact tells_reason clean _ _ _
  all_goals
    cases call.writable with
    | none => exact tells_reason clean _ _ _
    | some targetPath =>
        have tiered : (call.auditBase.set "target_tier" (.ofText call.targetTier)).Clean :=
          clean.set (serializes_ofText _)
        dsimp only
        split
        · exact tells_reason tiered _ "tier_blocked".toList _
        · split
          · exact tells_status tiered _ none
          · exact sound_prepareRendered tiered encodable targetPath

theorem sound_prepare : (call.prepare config).Sound := by
  unfold prepare
  split
  · exact tells_unencodable
  · rename_i checked
    have clean := clean_auditBase checked
    split
    · exact tells_raised
    · split
      · exact tells_reason clean _ _ _
      · rename_i passed
        exact sound_prepareChecked clean (encodable_of_validateEvidence passed)

theorem tells_finish {auditBase : Mapping} (clean : auditBase.Clean) (written : WriteEnd) :
    (call.finish config auditBase written).Tells written.Encodable := by
  cases written with
  | raised => exact tells_raised
  | demoted => exact tells_raised
  | pathLockBusy => exact tells_status clean _ none
  | rejected rejection => exact tells_rejection clean rejection (serializes_reason_iff rejection)
  | committed sha override warnings =>
      apply tells_exit_of_serializes clean
      · exact ⟨by simp [status], by simp [status, auditFields]⟩
      · exact ⟨by simp [status], by simp [status, List.lookup_cons], by simp⟩
      · simp [status, Value.serializes, serializes_redactEvidence config encodable_evidenceGiven]

end MemoryCall

namespace EditCall

variable {config : GateConfig} {call : EditCall}

/-- The reason that is kept can be encoded. -/
theorem encodable_safeReason : (call.safeReason config).encodable = true := by
  unfold safeReason
  split
  · exact PyStr.encodable_ofText _
  · split
    · assumption
    · exact PyStr.encodable_lit _

theorem clean_auditBase (checked : rejectUnencodableIdentity
    [("agent_identity", call.agentIdentity), ("source_session", call.sourceSession),
      ("target_path", call.targetPath)] = none) : (call.auditBase config).Clean := by
  have identities := serializes_of_rejectUnencodableIdentity checked
  simp only [List.forall_mem_cons] at identities
  apply Mapping.clean_nil.updated
  simp [identities, Value.serializes, encodable_safeReason]

theorem encodable_evidenceGiven : call.evidenceGiven.all PyStr.encodable = true := by
  unfold evidenceGiven
  split
  · rfl
  · rename_i passed
    exact encodable_of_validateEvidence passed

theorem tells_park {auditBase : Mapping} (clean : auditBase.Clean) {evidence : List PyStr}
    (encodable : evidence.all PyStr.encodable = true) (demotionReason : Option Text)
    (injected : Bool) :
    (call.park config auditBase evidence demotionReason injected).Tells True := by
  unfold park
  cases call.enqueue with
  | raises => exact tells_raised
  | pathLockBusy => exact tells_status clean _ none
  | queueFull => exact tells_status clean _ none
  | queued pendingId =>
      apply tells_exit_of_serializes clean
      · exact ⟨by simp [status], by simp [status, auditFields]⟩
      · exact ⟨by simp [status], by simp, by simp [status, List.lookup_cons]⟩
      · simp [status, Value.serializes, serializes_redactEvidence config encodable]

theorem sound_prepareSized {auditBase : Mapping} (clean : auditBase.Clean)
    {evidence : List PyStr} (encodable : evidence.all PyStr.encodable = true)
    (targetPath : RelPath) :
    (call.prepareSized config auditBase evidence targetPath).Sound := by
  unfold prepareSized
  split
  · exact tells_raised
  · split
    · exact tells_status clean _ none
    · cases call.governed with
      | none => exact tells_raised
      | some verdict =>
          dsimp only
          split
          all_goals
            split
            · exact tells_park clean encodable verdict.1 verdict.2
            · exact clean

theorem sound_preparePath {auditBase : Mapping} (clean : auditBase.Clean)
    {evidence : List PyStr} (encodable : evidence.all PyStr.encodable = true) :
    (call.preparePath config auditBase evidence).Sound := by
  unfold preparePath
  cases call.canonical with
  | none => exact tells_reason clean _ _ _
  | some targetPath =>
      have placed : (auditBase.set "target_path" (.ofText targetPath.text)).Clean :=
        clean.set (serializes_ofText _)
      have tiered : ((auditBase.set "target_path" (.ofText targetPath.text)).set "target_tier"
          (.ofText call.targetTier)).Clean := placed.set (serializes_ofText _)
      dsimp only
      split
      · exact tells_status tiered _ _
      · split
        · exact tells_status tiered _ none
        · split
          · exact tells_reason tiered _ _ _
          · exact sound_prepareSized tiered encodable targetPath

theorem sound_prepareScanned (clean : (call.auditBase config).Clean) :
    (call.prepareScanned config).Sound := by
  unfold prepareScanned
  dsimp only
  split
  · exact tells_reason clean _ _ _
  · rename_i passed
    have encodable := encodable_of_validateEvidence passed
    split
    · exact tells_pattern clean _ _ _ _
    all_goals
      split
      · exact tells_reason clean _ _ _
      · exact sound_preparePath clean encodable

theorem sound_prepare : (call.prepare config).Sound := by
  unfold prepare
  split
  · exact tells_unencodable
  · rename_i none
    have checked := (Option.or_eq_none_iff.mp none).1
    split
    · split
      · have identities := serializes_of_rejectUnencodableIdentity checked
        simp only [List.forall_mem_cons] at identities
        apply tells_exit_of_serializes Mapping.clean_nil
        · exact ⟨by simp [status], by simp [status, auditFields]⟩
        · exact ⟨by simp [status, List.lookup_cons], by simp, by simp⟩
        · simp [status, Value.serializes, identities]
      · exact sound_prepareScanned (clean_auditBase checked)
    · exact tells_raised

/-- The reason of a rejection, or the reason of the call. -/
theorem serializes_reasonOr_iff (rejection : Rejection) :
    (Value.str (call.reasonOr config rejection.reason)).serializes = true ↔
      WriteEnd.Encodable (.rejected rejection) := by
  obtain ⟨name, reason, pattern, marks⟩ := rejection
  cases reason with
  | none => exact iff_of_true encodable_safeReason nofun
  | some reason =>
      cases reason with
      | nil =>
          apply iff_of_true encodable_safeReason
          rintro _ ⟨⟩
          rfl
      | cons first rest => simp [WriteEnd.Encodable, Value.serializes, reasonOr]

theorem tells_finish {auditBase : Mapping} (clean : auditBase.Clean) (written : WriteEnd) :
    (call.finish config auditBase written).Tells written.Encodable := by
  cases written with
  | raised => exact tells_raised
  | demoted => exact tells_park clean encodable_evidenceGiven _ _
  | pathLockBusy => exact tells_status clean _ none
  | rejected rejection =>
      exact tells_rejection clean rejection (serializes_reasonOr_iff rejection)
  | committed sha override warnings =>
      apply tells_exit_of_serializes clean
      · exact ⟨by simp [status], by simp [status, auditFields]⟩
      · exact ⟨by simp [status], by simp [status, List.lookup_cons], by simp⟩
      · simp [status, Value.serializes, serializes_redactEvidence config encodable_evidenceGiven]

end EditCall

namespace ResolveCall

variable {config : GateConfig} {call : ResolveCall}

theorem clean_auditBase (checked : rejectUnencodableIdentity
    [("agent_identity", call.agentIdentity), ("source_session", call.sourceSession),
      ("pending_id", call.pendingId), ("edited_text", call.editedText)] = none) :
    call.auditBase.Clean := by
  have identities := serializes_of_rejectUnencodableIdentity checked
  simp only [List.forall_mem_cons] at identities
  apply Mapping.clean_nil.updated
  simp [identities, Value.serializes]

theorem sound_prepareClaimed (clean : call.auditBase.Clean) (targetPath : RelPath)
    (postimage : PyStr) : (call.prepareClaimed config targetPath postimage).Sound := by
  unfold prepareClaimed
  split
  · apply Mapping.Clean.set _ rfl
    apply Mapping.Clean.set _ (serializes_ofText _)
    exact clean.set (serializes_ofText _)
  · exact tells_raised

theorem sound_prepareText (clean : call.auditBase.Clean) (text : Option Text) :
    (call.prepareText config text).Sound := by
  unfold prepareText
  split
  · exact tells_status clean _ none
  · dsimp only
    split
    · exact tells_pattern clean _ _ (some _) _
    · cases call.claim with
      | raises => exact tells_raised
      | alreadyResolved => exact tells_status clean _ none
      | resolved targetPath postimage => exact sound_prepareClaimed clean targetPath postimage

theorem sound_prepare : (call.prepare config).Sound := by
  unfold prepare
  split
  · exact tells_unencodable
  · rename_i checked
    have clean := clean_auditBase checked
    split
    · cases call.reject with
      | raises => exact tells_raised
      | alreadyResolved => exact tells_status clean _ none
      | rejected => exact tells_status clean _ none
    · split
      · exact tells_status clean _ none
      · split
        · exact tells_raised
        · exact sound_prepareText clean _

theorem tells_finish {auditBase : Mapping} (clean : auditBase.Clean) (written : WriteEnd) :
    (finish auditBase written).Tells written.Encodable := by
  cases written with
  | raised => exact tells_raised
  | demoted => exact tells_raised
  | pathLockBusy => exact tells_raised
  | rejected rejection => exact tells_rejection clean rejection (serializes_reason_iff rejection)
  | committed sha override warnings =>
      dsimp only [finish]
      cases override <;> cases ruleAudit warnings "warned" <;>
        (apply tells_exit_of_serializes clean
         · exact ⟨by simp [status], by simp [status, auditFields]⟩
         · exact ⟨by simp [status], by simp [status, List.lookup_cons], by simp⟩
         · simp [status, Value.serializes])

end ResolveCall

namespace DecisionCall

variable {runtime : Runtime} {gateConfig : GateConfig}

theorem sound_prepare (gateConfig : GateConfig) (call : DecisionCall) :
    (call.prepare gateConfig).Sound := by
  cases call with
  | memory call => exact MemoryCall.sound_prepare
  | edit call => exact EditCall.sound_prepare
  | resolve call => exact ResolveCall.sound_prepare

theorem tells_finish (call : DecisionCall) {auditBase : Mapping} (clean : auditBase.Clean)
    (written : WriteEnd) : (call.finish gateConfig auditBase written).Tells written.Encodable := by
  cases call with
  | memory call => exact MemoryCall.tells_finish clean written
  | edit call => exact EditCall.tells_finish clean written
  | resolve call => exact ResolveCall.tells_finish clean written

/-- A failed commit gives no response. -/
theorem finish_raised (call : DecisionCall) (auditBase : Mapping) :
    call.finish gateConfig auditBase .raised = .raised := by
  cases call <;> rfl

/-- A returned decision is told exactly if what the content gate quotes can be encoded. -/
theorem tells_run (call : DecisionCall) :
    (call.run runtime gateConfig).Tells (call.QuotesEncodable runtime gateConfig) := by
  unfold run QuotesEncodable
  have sound := sound_prepare gateConfig call
  cases prepared : call.prepare gateConfig with
  | ended result =>
      rw [prepared] at sound
      exact sound
  | commits auditBase targetPath postimage =>
      rw [prepared] at sound
      dsimp only
      cases ended : runtime.commitInWorktree gateConfig call.commitCalls targetPath postimage with
      | raised =>
          rw [finish_raised]
          exact tells_raised
      | _ =>
          rw [← Runtime.encodable_commitInWorktree_iff ended (by simp)]
          exact tells_finish call sound _

end DecisionCall

/-! ## The log -/

/-- The log does not change the other fields of an event. -/
theorem AuditConfig.get_chained (config : AuditConfig) (last : Value) (event : Mapping)
    (eventId : Text) {field : String} (id : field ≠ "event_id") (prev : field ≠ "prev_hash")
    (hash : field ≠ "hash") : (config.chained last event eventId).get field = event.get field := by
  unfold chained
  rw [Mapping.get_set_of_ne (PyStr.lit_injective.ne hash),
    Mapping.get_set_of_ne (PyStr.lit_injective.ne prev),
    Mapping.get_set_of_ne (PyStr.lit_injective.ne id)]

/-- What was told is in the log unless the event is lost, or links to a hash that cannot be
encoded. -/
theorem audited_iff_of_told {response : Response} {emitted : List Mapping} {good : Prop}
    (told : Told response emitted good) (config : AuditConfig) (emission : Emission)
    (log : AuditState) :
    Audited log (emitted.foldl (config.emitAudit emission) log) response ↔
      good ∧ log.lastHash.serializes = true := by
  obtain ⟨arguments, rfl, status, sha, id, written⟩ := told
  rw [List.foldl_cons, List.foldl_nil, ← written emission.ts, ← Bool.and_eq_true]
  unfold AuditConfig.emitAudit
  dsimp only
  have field : ∀ {name value}, name ∈ auditFields → name ≠ "event_id" → name ≠ "prev_hash" →
      name ≠ "hash" → arguments.get name = some value →
      (config.chained log.lastHash (auditEvent emission.ts arguments) emission.eventId).get name =
        some value := by
    intro name value known id prev hash given
    rw [config.get_chained _ _ _ id prev hash, get_auditEvent _ _ known, given, Option.getD_some]
  constructor
  · rintro ⟨event, appended, -⟩
    by_contra lost
    rw [if_neg lost, AuditConfig.refuse, AuditConfig.written_maybeRotate] at appended
    exact absurd (congrArg List.length appended) (by simp)
  · intro serializes
    rw [if_pos serializes]
    refine ⟨_, rfl, ⟨_, rfl⟩, ?_, ?_, ?_⟩
    · exact field (by decide) (by decide) (by decide) (by decide) status
    · intro commit same
      exact field (by decide) (by decide) (by decide) (by decide) (sha commit same)
    · intro pending same
      exact field (by decide) (by decide) (by decide) (by decide) (id pending same)

/-- A decision that is returned is audited exactly if what the content gate quotes of the
postimage can be encoded, and the last hash of the log can. -/
theorem DecisionCall.audited_iff {runtime : Runtime} {gateConfig : GateConfig}
    {call : DecisionCall} {response : Response} {emitted : List Mapping}
    (returned : call.run runtime gateConfig = .returned response emitted)
    (different : response.status ≠ "rejected_invalid_encoding") (config : AuditConfig)
    (emission : Emission) (log : AuditState) :
    Audited log (emitted.foldl (config.emitAudit emission) log) response ↔
      call.QuotesEncodable runtime gateConfig ∧ log.lastHash.serializes = true :=
  audited_iff_of_told (tells_run call response emitted returned different) config emission log

/-- A document whose status is written as `scalar`. -/
def statusBlock (scalar : String) : Text :=
  "status: ".toList ++ scalar.toList

/-- The loader on that document, when `scalar` denotes `given`. -/
def statusLoader (scalar : String) (given : PyStr) : Runtime :=
  Runtime.ofBlocks [(statusBlock scalar, .dict [(.str (PyStr.lit "status"), .str given)])]

/-- A confident edit that writes that document and passes the other gates. -/
def statusEdit (scalar : String) : EditCall where
  agentIdentity := .str (PyStr.lit "agent")
  sourceSession := .null
  targetPath := .str (PyStr.ofText rulePath.text)
  baseCommit := .null
  baseBlobSha := .null
  targetFileHash := .null
  postimage := PyStr.ofText ("---\n".toList ++ statusBlock scalar ++ "\n---\n".toList)
  reason := PyStr.lit "status"
  evidence := .null
  confidence := 0
  remoteAddr := "::1".toList
  contest := .absent
  baseMarkerError := none
  canonical := some rulePath
  pathRejectionReason := []
  targetTier := "T2".toList
  blocked := false
  allowed := true
  contestIndexError := none
  capped := false
  tooLarge := false
  governed := some (none, false)
  unauthorized := false
  enqueue := .raises
  commit := {
    lock := .free
    opens := true
    refreshBase := .passes
    messageBuilt := true
    safeJoin := .passes
    checkCas := .passes
    scanTargetPath := .passes
    scanPostimage := .passes
    writingRuleGate := .passes
    idMap := none
    worktree := ⟨fun _ => false, some []⟩
    demotes := some false
    sha := some "c0ffee".toList
    override := none
    warnings := [] }

/-- A status that is out of vocabulary is refused, and the refusal is audited. -/
theorem refused_status_is_audited :
    ∃ response emitted, (DecisionCall.edit (statusEdit "final")).run
        (statusLoader "final" (PyStr.lit "final")) .default = .returned response emitted ∧
      response.status = "rejected_invalid_document" ∧
      Audited (.start [] 0)
        (emitted.foldl (sampleConfig.emitAudit ⟨0, "e".toList, 0⟩) (.start [] 0)) response := by
  refine ⟨_, _, rfl, rfl, ?_⟩
  apply (@DecisionCall.audited_iff (statusLoader "final" (PyStr.lit "final")) .default
    (.edit (statusEdit "final")) _ _ rfl (by decide) _ _ _).mpr
  refine ⟨fun _ => ?_, rfl⟩
  apply (Runtime.encodable_validatePostimage_iff rfl).mp
  intro error member
  cases List.mem_singleton.mp member
  rfl

/-- A status that is a lone surrogate is refused, and no event is written. -/
theorem refused_surrogate_is_not_audited :
    ∃ response emitted, (DecisionCall.edit (statusEdit "\"\\uD800\"")).run
        (statusLoader "\"\\uD800\"" [.surrogate 0]) .default = .returned response emitted ∧
      response.status = "rejected_invalid_document" ∧
      ¬Audited (.start [] 0)
        (emitted.foldl (sampleConfig.emitAudit ⟨0, "e".toList, 0⟩) (.start [] 0)) response := by
  refine ⟨_, _, rfl, rfl, ?_⟩
  rintro ⟨event, appended, -⟩
  have nothing : ([] : List Mapping) = [event] := appended
  cases nothing

end DataOlympus
