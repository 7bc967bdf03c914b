import DataOlympus.Enforce.Ledger

/-!
# The consult gate

A governed action passes when explicit consults on record cover it.  A denial suggests
the intent of a consult that would.
-/

namespace DataOlympus

open Lines

/-- `KB_GATE_CLEARANCE`. -/
inductive GateClearance where
  | intent
  | pair
  deriving DecidableEq

/-- The text of a signal. -/
def Signal.text : Signal → Text
  | .keyword word => "keyword:".toList ++ word
  | .command fragment => "command:".toList ++ fragment
  | .path glob => "path:".toList ++ glob

/-- `_quote(value)`. -/
def quote (value : Text) : Text :=
  let q := (['"', '\'', '\x60'].find? fun c => c ∉ value).getD '"'
  q :: value ++ [q]

section Suggestion

variable (classifier : Classifier) (actionPath : Option Text)

/-- The part of `_suggest_intent` for one signal. -/
def suggestPart : Signal → Text
  | .path glob =>
      match actionPath.filter fun path => !path.isEmpty with
      | some path => "edit ".toList ++ quote path
      | none => glob
  | .command fragment =>
      "run ".toList ++ quote (((classifier.commandPattern (.command fragment)).filter
        fun pattern => !pattern.isEmpty).getD fragment)
  | .keyword word => word

/-- The loop of `_suggest_intent`. -/
def addParts (parts : List Text) : List Signal → List Text
  | [] => parts
  | signal :: rest =>
      let part := suggestPart classifier actionPath signal
      if part ∈ parts then addParts parts rest else addParts (parts ++ [part]) rest

/-- The parts in their order: a path leads. -/
def orderedParts (uncovered : List Signal) : List Text :=
  let parts := addParts classifier actionPath [] uncovered
  (parts.filter fun part => "edit ".toList.isPrefixOf part) ++
    parts.filter fun part => !"edit ".toList.isPrefixOf part

/-- `_suggest_intent(uncovered, classifier, action_path)`. -/
def suggestIntent (uncovered : List Signal) : Text :=
  "; ".toList.intercalate (orderedParts classifier actionPath uncovered)

end Suggestion

/-- Why the gate decides as it does. -/
inductive GateReason where
  | notGoverned
  | consulted
  /-- Under pair clearance, no fresh explicit consult. -/
  | noConsult
  /-- Under intent clearance, the uncovered signals and the suggested intent. -/
  | uncovered (signals : List Signal) (intent : Text)
  deriving DecidableEq

/-- `GateCheckResponse`. -/
structure GateCheckResponse where
  reason : GateReason
  sessionId : Text
  workspace : Text

/-- `verdict` is `"allow"`. -/
def GateCheckResponse.allows (response : GateCheckResponse) : Bool :=
  match response.reason with
  | .notGoverned | .consulted => true
  | .noConsult | .uncovered _ _ => false

/-- `_deny_instruction(workspace, session_id, intent)`. -/
def denyInstruction (repr : Text → Text) (workspace sessionId intent : Text) : Text :=
  "Call kb_consult(workspace=".toList ++ repr workspace ++ ", source_session=".toList ++
    repr sessionId ++ ", intent=".toList ++ repr intent ++ ") then retry.".toList

/-- `reason`. -/
def GateCheckResponse.reasonText (repr : Text → Text) (response : GateCheckResponse) : Text :=
  match response.reason with
  | .notGoverned => "action not governed".toList
  | .consulted => "fresh explicit consultation on record".toList
  | .noConsult => "governed action without a fresh explicit consultation. ".toList ++
      denyInstruction repr response.workspace response.sessionId "<what you are doing>".toList
  | .uncovered signals intent =>
      "governed action not covered by a fresh explicit consultation; uncovered signals: ".toList ++
        ", ".toList.intercalate (signals.map Signal.text) ++ ". ".toList ++
          denyInstruction repr response.workspace response.sessionId intent

theorem capital_mem_denyInstruction (repr : Text → Text) (workspace sessionId intent : Text) :
    'C' ∈ denyInstruction repr workspace sessionId intent := by
  have first : 'C' ∈ "Call kb_consult(workspace=".toList := by decide
  unfold denyInstruction
  iterate 6 apply List.mem_append_left
  exact first

/-- Every denial says how to be allowed, and no allowance does. -/
theorem GateCheckResponse.instructs_iff (repr : Text → Text) (response : GateCheckResponse) :
    (∃ intent, denyInstruction repr response.workspace response.sessionId intent <:+:
      response.reasonText repr) ↔ response.allows = false := by
  have silent : ∀ text : Text, 'C' ∉ text → ¬∃ intent, denyInstruction repr
      response.workspace response.sessionId intent <:+: text := by
    rintro text plain ⟨intent, inside⟩
    exact plain (inside.subset (capital_mem_denyInstruction repr _ _ intent))
  obtain ⟨reason, sessionId, workspace⟩ := response
  cases reason with
  | notGoverned =>
      exact iff_of_false (silent "action not governed".toList (by decide))
        (by simp [GateCheckResponse.allows])
  | consulted =>
      exact iff_of_false (silent "fresh explicit consultation on record".toList (by decide))
        (by simp [GateCheckResponse.allows])
  | noConsult => exact iff_of_true ⟨_, (List.suffix_append _ _).isInfix⟩ rfl
  | uncovered signals intent => exact iff_of_true ⟨intent, (List.suffix_append _ _).isInfix⟩ rfl

/-- A code action that is checked. -/
structure GateAction where
  toolName : Text
  path : Option Text
  diff : Text

section GateCheck

variable (unicode : Unicode) (classifier : Classifier)

/-- The signals of an action. -/
def GateAction.signals (action : GateAction) : List Signal :=
  classifier.classify unicode [] action.path action.diff

/-- `kb_gate_check_fn(…)`. -/
def gateCheck (entries : LedgerEntries) (clearance : GateClearance) (key : ConsultKey)
    (action : GateAction) (now ttl : Time) : GateCheckResponse :=
  let signals := action.signals unicode classifier
  let reason :=
    if signals.isEmpty then .notGoverned
    else match clearance with
    | .pair => if entries.isFresh key now ttl true then .consulted else .noConsult
    | .intent =>
        let uncovered := uncoveredSignals signals (entries.freshSignals key now ttl)
        if uncovered.isEmpty then .consulted
        else .uncovered uncovered (suggestIntent classifier action.path uncovered)
  ⟨reason, key.1, key.2⟩

/-- What `kb_consult_fn` records. -/
def recordConsult (search : Text → List Text) (entries : LedgerEntries) (config : LedgerConfig)
    (key : ConsultKey) (intent : Text) (now : Time) (trigger : Text) : LedgerEntries :=
  let intent := intent.take maxConsultIntentChars
  let ruleIds := if (classifier.classify unicode intent none []).isEmpty then [] else search intent
  entries.record config key ruleIds now (Trigger.ofText trigger)
    (classifier.coverage unicode intent)

variable {unicode classifier}

/-- An action has signals, so it is governed. -/
def GateAction.Governed (unicode : Unicode) (classifier : Classifier) (action : GateAction) :
    Prop :=
  action.signals unicode classifier ≠ []

variable {entries : LedgerEntries} {key : ConsultKey} {action : GateAction} {now ttl : Time}

/-- Some signal of a family covers what the list covers. -/
theorem Signal.coveredBy_iff {signal : Signal} {coverage : List Signal} :
    signal.coveredBy coverage = true ↔
      ∃ covering ∈ coverage, signal.coveredBy [covering] = true := by
  unfold Signal.coveredBy
  simp only [Bool.or_eq_true, decide_eq_true_eq, List.any_eq_true, List.mem_map,
    List.map_cons, List.map_nil, List.mem_singleton]
  constructor
  · rintro (⟨covering, member, same⟩ | ⟨keyword, listed, covering, member, same⟩)
    · exact ⟨covering, member, .inl same.symm⟩
    · exact ⟨covering, member, .inr ⟨keyword, listed, same.symm⟩⟩
  · rintro ⟨covering, member, same | ⟨keyword, listed, same⟩⟩
    · exact .inl ⟨covering, member, same.symm⟩
    · exact .inr ⟨keyword, listed, covering, member, same.symm⟩

/-- Under intent clearance, a governed action passes when its signals are covered. -/
theorem gateCheck_intent_allows (governed : action.Governed unicode classifier) :
    (gateCheck unicode classifier entries .intent key action now ttl).allows = true ↔
      ∀ signal ∈ action.signals unicode classifier,
        signal.coveredBy (entries.freshSignals key now ttl) = true := by
  have some_signal : (action.signals unicode classifier).isEmpty = false :=
    List.isEmpty_eq_false_iff.mpr governed
  have empty_iff : (uncoveredSignals (action.signals unicode classifier)
      (entries.freshSignals key now ttl)).isEmpty = true ↔
        ∀ signal ∈ action.signals unicode classifier,
          signal.coveredBy (entries.freshSignals key now ttl) = true := by
    unfold uncoveredSignals
    simp [List.filter_eq_nil_iff]
  rw [← empty_iff]
  simp only [gateCheck, GateCheckResponse.allows, some_signal]
  cases (uncoveredSignals (action.signals unicode classifier)
    (entries.freshSignals key now ttl)).isEmpty <;> simp

/-- Under pair clearance, a governed action passes when an explicit consult is fresh. -/
theorem gateCheck_pair_allows (governed : action.Governed unicode classifier) :
    (gateCheck unicode classifier entries .pair key action now ttl).allows = true ↔
      entries.isFresh key now ttl true = true := by
  have some_signal : (action.signals unicode classifier).isEmpty = false :=
    List.isEmpty_eq_false_iff.mpr governed
  simp only [gateCheck, GateCheckResponse.allows, some_signal]
  cases entries.isFresh key now ttl true <;> simp

theorem mem_uncoveredSignals {signal : Signal} {signals coverage : List Signal} :
    signal ∈ uncoveredSignals signals coverage ↔
      signal ∈ signals ∧ signal.coveredBy coverage = false := by
  unfold uncoveredSignals
  rw [List.mem_filter, Bool.not_eq_true']

/-- What a denial under intent clearance names and suggests. -/
theorem gateCheck_uncovered {signals : List Signal} {intent : Text}
    (blocked : (gateCheck unicode classifier entries .intent key action now ttl).reason =
      .uncovered signals intent) :
    signals = uncoveredSignals (action.signals unicode classifier)
        (entries.freshSignals key now ttl) ∧
      intent = suggestIntent classifier action.path signals := by
  simp only [gateCheck] at blocked
  split at blocked
  · cases blocked
  · split at blocked
    · cases blocked
    · cases blocked
      exact ⟨rfl, rfl⟩

end GateCheck

end DataOlympus
