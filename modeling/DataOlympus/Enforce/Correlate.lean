import DataOlympus.Audit.Readers
import DataOlympus.Control.Except
import DataOlympus.Enforce.Coverage
import DataOlympus.Enforce.Report

/-!
# The detection floor and the gate

The report judges a commit by the consults of the audit log, the gate judges an action by the
ledger.  A consult is recorded in both.  The ledger keeps for each signal the time of the last
explicit consult that covered it and forgets what is older than the retention; the report goes
through all consults again.
-/

namespace DataOlympus

open Lines Python

/-! ## Signals as texts -/

/-- The text of a string without surrogates. -/
def PyStr.toText (s : PyStr) : Option Text :=
  s.mapM fun
    | .scalar c => some c
    | .surrogate _ => none

theorem PyStr.toText_ofText (text : Text) : PyStr.toText (PyStr.ofText text) = some text := by
  induction text with
  | nil => rfl
  | cons c rest ih =>
      unfold PyStr.toText PyStr.ofText at ih ⊢
      rw [List.map_cons, List.mapM_cons, ih]
      rfl

/-- The signal with a text.  No signal of the classifier has another text, and such a text
covers nothing. -/
def Signal.ofText (text : Text) : Option Signal :=
  if "keyword:".toList.isPrefixOf text then some (.keyword (text.drop 8))
  else if "command:".toList.isPrefixOf text then some (.command (text.drop 8))
  else if "path:".toList.isPrefixOf text then some (.path (text.drop 5))
  else none

theorem Signal.ofText_text (signal : Signal) : Signal.ofText signal.text = some signal := by
  cases signal <;> rfl

/-- The signals among strings. -/
def signalsOf (coverage : List PyStr) : List Signal :=
  coverage.filterMap fun s => s.toText.bind Signal.ofText

theorem signalsOf_text (signals : List Signal) :
    signalsOf (signals.map fun signal => PyStr.ofText signal.text) = signals := by
  induction signals with
  | nil => rfl
  | cons signal rest ih =>
      have first : (PyStr.ofText signal.text).toText.bind Signal.ofText = some signal := by
        rw [PyStr.toText_ofText, Option.bind_some, Signal.ofText_text]
      unfold signalsOf at ih ⊢
      rw [List.map_cons, List.filterMap_cons, first, ih]

/-! ## The report -/

/-- How times stand in the log: `write` for a reading of the clock, `read` for
`float(ev.get("ts") or 0.0)`, and the ticks of a second. -/
structure LogClock where
  perSecond : Int
  write : Time → Value
  read : Option Value → Except Raised Time
  read_write : ∀ now, read (some (write now)) = .ok now

namespace Report

/-- `Consult`. -/
structure ConsultRow where
  ts : Time
  agentIdentity : PyStr
  sourceSession : PyStr
  coverage : Option (List PyStr)
  trigger : PyStr

section Extract

variable (runtime : Runtime) (clock : LogClock)

/-- `str(value or default)`. -/
def strOr (default : String) (value : Option Value) : Except Raised PyStr :=
  match value.filter Value.truthy with
  | some value => runtime.str value
  | none => .ok (PyStr.lit default)

/-- `tuple(str(sig) for sig in coverage) if isinstance(coverage, list) else None`. -/
def coverageOf : Option Value → Except Raised (Option (List PyStr))
  | some (.list items) => (items.mapM runtime.str).map some
  | _ => .ok none

/-- The event is a consult for a workspace. -/
def isConsult (workspace : Text) (event : Mapping) : Bool :=
  (event.get "event_type").any (Value.isStr (PyStr.lit "consult")) &&
    (event.get "target_path").any (Value.isStr (PyStr.ofText workspace))

/-- The `Consult` of an event. -/
def consultRow (event : Mapping) : Except Raised ConsultRow := do
  let ts ← clock.read (event.get "ts")
  let agentIdentity ← strOr runtime "unknown" (event.get "agent_identity")
  let sourceSession ← strOr runtime "" (event.get "source_session")
  let coverage ← coverageOf runtime (event.get "coverage")
  let trigger ← strOr runtime "explicit" (event.get "trigger")
  return ⟨ts, agentIdentity, sourceSession, coverage, trigger⟩

/-- `extract_consults(audit_events, workspace)`. -/
def extractConsults (events : List Mapping) (workspace : Text) :
    Except Raised (List ConsultRow) :=
  (events.filter (isConsult workspace)).mapM (consultRow runtime clock)

end Extract

section Correlate

variable (unicode : Unicode) (classifier : Classifier) (clock : LogClock)

/-- The loop of `commit_signals` over the signals of the files. -/
def addSignals (signals : List Signal) : List Signal → List Signal
  | [] => signals
  | signal :: rest =>
      if signal ∈ signals then addSignals signals rest else addSignals (signals ++ [signal]) rest

/-- `commit_signals(commit, classifier)`. -/
def commitSignals (commit : GovernedCommit) : List Signal :=
  addSignals [] (commit.files.flatMap fun file => classifier.classify unicode [] (some file) [])

/-- How a commit is judged. -/
inductive Judgement where
  | verified
  | timingOnly
  /-- With the missing signals, under intent clearance. -/
  | unverified (missing : Option (List Signal))
  deriving DecidableEq

/-- The consults in the window of a commit. -/
def inWindow (commit : GovernedCommit) (consults : List ConsultRow) (windowSec graceSec : Int) :
    List ConsultRow :=
  let lo := (commit.ts - windowSec) * clock.perSecond
  let hi := (commit.ts + graceSec) * clock.perSecond
  consults.filter fun consult => lo ≤ consult.ts && consult.ts ≤ hi

/-- The coverage of the explicit consults. -/
def covered (consults : List ConsultRow) : List PyStr :=
  consults.flatMap fun consult =>
    if consult.trigger = PyStr.lit "explicit" then consult.coverage.getD [] else []

/-- The loop body of `correlate`. -/
def judge (consults : List ConsultRow) (windowSec graceSec : Int) (clearance : GateClearance)
    (commit : GovernedCommit) : Judgement :=
  let window := inWindow clock commit consults windowSec graceSec
  match clearance with
  | .pair => if window.isEmpty then .unverified none else .verified
  | .intent =>
      let missing := uncoveredSignals (commitSignals unicode classifier commit)
        (signalsOf (covered window))
      if missing.isEmpty then .verified
      else if window.any fun consult => consult.coverage.isNone then .timingOnly
      else .unverified (some missing)

end Correlate

/-- `ComplianceReport`. -/
structure ComplianceReport where
  verified : List GovernedCommit
  unverified : List GovernedCommit
  consultCount : Nat
  clearance : GateClearance
  timingOnly : List GovernedCommit
  uncovered : Dict Text (List Signal)

/-- A commit is entered with its judgement. -/
def ComplianceReport.add (report : ComplianceReport) (commit : GovernedCommit) :
    Judgement → ComplianceReport
  | .verified => { report with verified := report.verified ++ [commit] }
  | .timingOnly => { report with
      verified := report.verified ++ [commit]
      timingOnly := report.timingOnly ++ [commit] }
  | .unverified missing => { report with
      unverified := report.unverified ++ [commit]
      uncovered := match missing with
        | some missing => report.uncovered.set commit.sha missing
        | none => report.uncovered }

/-- `correlate(commits, consults, window_sec, grace_sec, classifier, clearance)`. -/
def correlate (unicode : Unicode) (classifier : Classifier) (clock : LogClock)
    (commits : List GovernedCommit) (consults : List ConsultRow) (windowSec graceSec : Int)
    (clearance : GateClearance) : ComplianceReport :=
  commits.foldl (fun report commit => report.add commit
      (judge unicode classifier clock consults windowSec graceSec clearance commit))
    ⟨[], [], consults.length, clearance, [], .empty⟩

end Report

/-! ## Consults in the ledger and in the log -/

/-- What a consult is recorded in. -/
structure Recorded where
  entries : LedgerEntries
  log : AuditState

section Record

variable (unicode : Unicode) (classifier : Classifier) (clock : LogClock) (config : AuditConfig)
  (ledger : LedgerConfig) (search : Text → List Text)

/-- The session and the workspace of a consult. -/
def ConsultCall.key (call : ConsultCall) : ConsultKey :=
  (call.sourceSession, call.workspace)

/-- What a consult covers. -/
def ConsultCall.coverage (call : ConsultCall) : List Signal :=
  classifier.coverage unicode (call.intent.take maxConsultIntentChars)

/-- `kb_consult_fn(…)`, as far as it records. -/
def Recorded.consult (state : Recorded) (call : ConsultCall) : Recorded where
  entries := recordConsult unicode classifier search state.entries ledger call.key call.intent
    call.now call.trigger
  log := config.append state.log (call.event unicode classifier) call.eventId call.now

/-- The consults of a history, one after the other. -/
def recordAll (state : Recorded) (history : List ConsultCall) : Recorded :=
  history.foldl (Recorded.consult unicode classifier config ledger search) state

end Record

/-! ## What the ledger remembers -/

section Remember

variable {ledger : LedgerConfig} {consults : List Consult} {consult : Consult}

/-- Every date is that of a consult that clears, and no such consult within the retention is
dated earlier than it was made. -/
structure Remembers (ledger : LedgerConfig) (entries : LedgerEntries) (consults : List Consult)
    (clock : Time) : Prop extends entries.Backed consults clock where
  complete : ∀ key signal, ∀ consult ∈ consults, consult.Clears key → signal ∈ consult.signals →
    clock - ledger.retentionSec ≤ consult.now →
      ∃ ts, entries.CoveredAt key signal ts ∧ consult.now ≤ ts

theorem LedgerEntries.length_touch_le {entries : LedgerEntries} {key : ConsultKey}
    {ruleIds : List Text} {now : Time} {trigger : Trigger} {signals : List Signal} :
    (entries.touch key ruleIds now trigger signals).items.length ≤ entries.items.length + 1 := by
  have one_more : ∀ entry : LedgerEntry,
      (Dict.set entries key entry).items.length ≤ entries.items.length + 1 := by
    intro entry
    unfold Dict.set
    dsimp only
    split
    · rw [List.length_map]
      exact Nat.le_succ _
    · rw [List.length_append, List.length_singleton]
  cases trigger with
  | explicit => exact one_more _
  | promptHook => exact one_more _

/-- A record within the capacity keeps what the retention keeps. -/
theorem LedgerEntries.coveredAt_record_of_room {entries : LedgerEntries} {key other : ConsultKey}
    {ruleIds : List Text} {now ts : Time} {trigger : Trigger} {signals : List Signal}
    {signal : Signal} (dated : (entries.touch key ruleIds now trigger signals).Dated now)
    (room : entries.items.length < ledger.maxEntries) :
    (entries.record ledger key ruleIds now trigger signals).CoveredAt other signal ts ↔
      (entries.touch key ruleIds now trigger signals).CoveredAt other signal ts ∧
        now - ledger.retentionSec ≤ ts := by
  have pruned : ((entries.touch key ruleIds now trigger signals).prune
      (now - ledger.retentionSec)).items.length ≤ ledger.maxEntries := by
    have fewer : ((entries.touch key ruleIds now trigger signals).prune
        (now - ledger.retentionSec)).items.length ≤
          (entries.touch key ruleIds now trigger signals).items.length := by
      unfold LedgerEntries.prune Dict.mapValues Dict.filter
      rw [List.length_map]
      exact List.length_filter_le _ _
    exact fewer.trans (LedgerEntries.length_touch_le.trans room)
  rw [LedgerEntries.record, LedgerEntries.evict, LedgerEntries.enforceCap_of_length_le pruned]
  exact LedgerEntries.coveredAt_prune dated

/-- A record of one pair leaves the dates of the others. -/
theorem LedgerEntries.coveredAt_touch_of_ne {entries : LedgerEntries} {key other : ConsultKey}
    {ruleIds : List Text} {now ts : Time} {trigger : Trigger} {signals : List Signal}
    {signal : Signal} (different : other ≠ key) (covered : entries.CoveredAt other signal ts) :
    (entries.touch key ruleIds now trigger signals).CoveredAt other signal ts := by
  obtain ⟨entry, member, dated⟩ := covered
  exact ⟨entry, LedgerEntries.mem_touch.mpr (.inr ⟨different, member⟩), dated⟩

/-- A consult takes no coverage away that the retention keeps. -/
theorem LedgerEntries.exists_coveredAt_touch {entries : LedgerEntries} {key other : ConsultKey}
    {ruleIds : List Text} {now ts : Time} {trigger : Trigger} {signals : List Signal}
    {signal : Signal} (dated : entries.Dated now) (covered : entries.CoveredAt other signal ts) :
    ∃ later, (entries.touch key ruleIds now trigger signals).CoveredAt other signal later ∧
      ts ≤ later := by
  by_cases same : other = key
  · subst same
    cases trigger with
    | promptHook => exact ⟨ts, LedgerEntries.coveredAt_touch_promptHook.mpr covered, le_refl ts⟩
    | explicit =>
        by_cases listed : signal ∈ signals
        · obtain ⟨entry, member, at_ts⟩ := covered
          have past := (dated.covered other entry member signal ts at_ts).trans
            (dated.touched other entry member)
          exact ⟨now, LedgerEntries.coveredAt_touch_of_mem listed, past⟩
        · exact ⟨ts, LedgerEntries.coveredAt_touch_of_notMem listed covered, le_refl ts⟩
  · exact ⟨ts, LedgerEntries.coveredAt_touch_of_ne same covered, le_refl ts⟩

theorem Remembers.empty (clock : Time) : Remembers ledger .empty [] clock :=
  ⟨.empty, fun _ _ _ member => absurd member List.not_mem_nil⟩

/-- A consult that finds room is remembered with the others. -/
theorem Remembers.record {entries : LedgerEntries} {clock : Time} {ruleIds : List Text}
    (remembers : Remembers ledger entries consults clock) (onward : clock ≤ consult.now)
    (room : entries.items.length < ledger.maxEntries) :
    Remembers ledger
      (entries.record ledger consult.key ruleIds consult.now consult.trigger consult.signals)
      (consult :: consults) consult.now := by
  have touched : (entries.touch consult.key ruleIds consult.now consult.trigger
      consult.signals).Backed (consult :: consults) consult.now := remembers.touch onward
  have earlier : entries.Dated consult.now :=
    (remembers.mono (fun _ => id) onward).toDated
  refine ⟨remembers.toBacked.record onward, ?_⟩
  intro key signal other member clears listed kept
  have dated : ∃ ts, (entries.touch consult.key ruleIds consult.now consult.trigger
      consult.signals).CoveredAt key signal ts ∧ other.now ≤ ts := by
    rcases List.mem_cons.mp member with rfl | before
    · obtain ⟨explicit, rfl⟩ := clears
      refine ⟨other.now, ?_, le_refl _⟩
      rw [explicit]
      exact LedgerEntries.coveredAt_touch_of_mem listed
    · have in_time : clock - ledger.retentionSec ≤ other.now :=
        (Int.sub_le_sub_right onward _).trans kept
      obtain ⟨ts, covered, past⟩ := remembers.complete key signal other before clears listed in_time
      obtain ⟨later, still, after⟩ := LedgerEntries.exists_coveredAt_touch earlier covered
      exact ⟨later, still, past.trans after⟩
  obtain ⟨ts, covered, past⟩ := dated
  exact ⟨ts, (LedgerEntries.coveredAt_record_of_room touched.toDated room).mpr
    ⟨covered, kept.trans past⟩, past⟩

/-- The fresh signals are those of the consults within the window. -/
theorem Remembers.mem_freshSignals {entries : LedgerEntries} {clock now ttl : Time}
    (remembers : Remembers ledger entries consults clock) (onward : clock ≤ now)
    (kept : ttl ≤ ledger.retentionSec) {key : ConsultKey} {signal : Signal} :
    signal ∈ entries.freshSignals key now ttl ↔ ∃ consult ∈ consults,
      consult.Clears key ∧ signal ∈ consult.signals ∧ now - consult.now ≤ ttl := by
  rw [LedgerEntries.mem_freshSignals]
  constructor
  · rintro ⟨ts, covered, within⟩
    obtain ⟨consult, made, clears, rfl, listed⟩ := remembers.ofCoverage key signal ts covered
    exact ⟨consult, made, clears, listed, within⟩
  · rintro ⟨consult, made, clears, listed, within⟩
    have in_time : clock - consult.now ≤ ledger.retentionSec :=
      (Int.sub_le_sub_right onward _).trans (within.trans kept)
    obtain ⟨ts, covered, past⟩ := remembers.complete key signal consult made clears listed
      (Int.sub_le_of_sub_le in_time)
    exact ⟨ts, covered, (Int.sub_le_sub_left past now).trans within⟩

end Remember

/-! ## What the log holds -/

section Logged

variable {unicode : Unicode} {classifier : Classifier} {clock : LogClock} {config : AuditConfig}
  {ledger : LedgerConfig} {search : Text → List Text}

/-- The consult of a call. -/
def ConsultCall.consult (unicode : Unicode) (classifier : Classifier) (call : ConsultCall) :
    Consult :=
  ⟨call.key, call.now, Trigger.ofText call.trigger, call.coverage unicode classifier⟩

/-- The row of a consult in the report. -/
def ConsultCall.row (unicode : Unicode) (classifier : Classifier) (call : ConsultCall) :
    Report.ConsultRow where
  ts := call.now
  agentIdentity := if call.agentIdentity = [] then PyStr.lit "unknown"
    else PyStr.ofText call.agentIdentity
  sourceSession := PyStr.ofText call.sourceSession
  coverage := some ((call.coverage unicode classifier).map fun signal => PyStr.ofText signal.text)
  trigger := if call.trigger = "prompt_hook".toList then PyStr.lit "prompt_hook"
    else PyStr.lit "explicit"

/-- A field of an event that an append adds to. -/
theorem get_chained (config : AuditConfig) (last : Value) (event : Mapping) (eventId : Text)
    {key : String} (different : key ∉ ["event_id", "prev_hash", "hash"]) :
    (config.chained last event eventId).get key = event.get key := by
  have apart : ∀ other ∈ ["event_id", "prev_hash", "hash"], PyStr.lit key ≠ PyStr.lit other := by
    intro other member same
    rw [PyStr.lit_injective same] at different
    exact different member
  unfold AuditConfig.chained
  dsimp only
  rw [Mapping.get_set_of_ne (apart "hash" (by simp)),
    Mapping.get_set_of_ne (apart "prev_hash" (by simp)),
    Mapping.get_set_of_ne (apart "event_id" (by simp))]

/-- The fields of the event of a consult. -/
theorem ConsultCall.get_event (call : ConsultCall) :
    (call.event unicode classifier).get "ts" = some call.ts ∧
    (call.event unicode classifier).get "event_type" = some (textValue "consult".toList) ∧
    (call.event unicode classifier).get "agent_identity" = some (textValue call.agentIdentity) ∧
    (call.event unicode classifier).get "source_session" = some (textValue call.sourceSession) ∧
    (call.event unicode classifier).get "target_path" = some (textValue call.workspace) ∧
    (call.event unicode classifier).get "trigger" = some (textValue
      (if call.trigger = "prompt_hook".toList then call.trigger else "explicit".toList)) ∧
    (call.event unicode classifier).get "coverage" = some (.list
      ((call.coverage unicode classifier).map fun signal => textValue signal.text)) := by
  unfold ConsultCall.event
  dsimp only
  simp only [Mapping.get_ofFields]
  exact ⟨rfl, rfl, rfl, rfl, rfl, rfl, rfl⟩

/-- The event of a consult is a consult for its workspace and no other. -/
theorem isConsult_chained (last : Value) (call : ConsultCall) (workspace : Text) :
    Report.isConsult workspace (config.chained last (call.event unicode classifier) call.eventId) =
      decide (call.workspace = workspace) := by
  obtain ⟨-, eventType, -, -, target, -, -⟩ := @ConsultCall.get_event unicode classifier call
  unfold Report.isConsult
  rw [get_chained _ _ _ _ (by decide), get_chained _ _ _ _ (by decide), eventType, target]
  have consult : (textValue "consult".toList).isStr (PyStr.lit "consult") = true := rfl
  rw [Option.any_some, Option.any_some, consult, Bool.true_and]
  unfold textValue Value.isStr
  exact decide_eq_decide.mpr PyStr.ofText_injective.eq_iff

theorem mapM_textValue (runtime : Runtime) (signals : List Signal) :
    (signals.map fun signal => textValue signal.text).mapM runtime.str =
      .ok (signals.map fun signal => PyStr.ofText signal.text) := by
  induction signals with
  | nil => rfl
  | cons signal rest ih =>
      rw [List.map_cons, List.mapM_cons, ih]
      rfl

theorem strOr_text (runtime : Runtime) (default : String) {text : Text} (nonempty : text ≠ []) :
    Report.strOr runtime default (some (textValue text)) = .ok (PyStr.ofText text) := by
  have held : (textValue text).truthy = true := by
    simpa [textValue, Value.truthy] using nonempty
  rw [Report.strOr, Option.filter_some, if_pos held]
  rfl

theorem strOr_empty (runtime : Runtime) (default : String) :
    Report.strOr runtime default (some (textValue [])) = .ok (PyStr.lit default) :=
  rfl

/-- The report reads the event of a consult as it was made. -/
theorem consultRow_chained (runtime : Runtime) (last : Value) {call : ConsultCall}
    (stamped : call.ts = clock.write call.now) :
    Report.consultRow runtime clock
        (config.chained last (call.event unicode classifier) call.eventId) =
      .ok (call.row unicode classifier) := by
  obtain ⟨ts, -, agent, session, -, trigger, coverage⟩ := @ConsultCall.get_event unicode classifier call
  unfold Report.consultRow
  rw [get_chained _ _ _ _ (by decide), get_chained _ _ _ _ (by decide),
    get_chained _ _ _ _ (by decide), get_chained _ _ _ _ (by decide),
    get_chained _ _ _ _ (by decide), ts, agent, session, trigger, coverage, stamped,
    clock.read_write]
  have covers : Report.coverageOf runtime (some (.list
      ((call.coverage unicode classifier).map fun signal => textValue signal.text))) =
        .ok (some ((call.coverage unicode classifier).map fun signal =>
          PyStr.ofText signal.text)) := by
    rw [Report.coverageOf, mapM_textValue]
    rfl
  have named : Report.strOr runtime "unknown" (some (textValue call.agentIdentity)) =
      .ok (if call.agentIdentity = [] then PyStr.lit "unknown"
        else PyStr.ofText call.agentIdentity) := by
    by_cases empty : call.agentIdentity = []
    · rw [empty, strOr_empty, if_pos rfl]
    · rw [strOr_text runtime _ empty, if_neg empty]
  have opened : Report.strOr runtime "" (some (textValue call.sourceSession)) =
      .ok (PyStr.ofText call.sourceSession) := by
    by_cases empty : call.sourceSession = []
    · rw [empty, strOr_empty]
      rfl
    · exact strOr_text runtime _ empty
  have triggered : Report.strOr runtime "explicit" (some (textValue
      (if call.trigger = "prompt_hook".toList then call.trigger else "explicit".toList))) =
        .ok (if call.trigger = "prompt_hook".toList then PyStr.lit "prompt_hook"
          else PyStr.lit "explicit") := by
    by_cases hook : call.trigger = "prompt_hook".toList
    · rw [if_pos hook, if_pos hook, hook]
      rfl
    · rw [if_neg hook, if_neg hook]
      rfl
  rw [covers, named, opened, triggered]
  rfl

variable {state : Recorded} {history : List ConsultCall} {call : ConsultCall}

/-- What the log gains is an event for each consult. -/
theorem mem_written_recordAll {event : Mapping} (member : event ∈
      (recordAll unicode classifier config ledger search state history).log.written) :
    event ∈ state.log.written ∨ ∃ call ∈ history, ∃ last,
      event = config.chained last (call.event unicode classifier) call.eventId := by
  induction history generalizing state with
  | nil => exact .inl member
  | cons first rest ih =>
      rcases ih member with before | ⟨call, later, made⟩
      · rcases List.mem_append.mp before with before | last
        · exact .inl before
        · exact .inr ⟨first, List.mem_cons_self, _, List.mem_singleton.mp last⟩
      · exact .inr ⟨call, List.mem_cons_of_mem _ later, made⟩

theorem mem_written_of_mem {event : Mapping} (member : event ∈ state.log.written) :
    event ∈ (recordAll unicode classifier config ledger search state history).log.written := by
  induction history generalizing state with
  | nil => exact member
  | cons first rest ih => exact ih (List.mem_append_left _ member)

theorem exists_written_of_mem (made : call ∈ history) : ∃ last,
    config.chained last (call.event unicode classifier) call.eventId ∈
      (recordAll unicode classifier config ledger search state history).log.written := by
  induction history generalizing state with
  | nil => cases made
  | cons first rest ih =>
      rcases List.mem_cons.mp made with rfl | later
      · have here : config.chained state.log.lastHash (call.event unicode classifier)
            call.eventId ∈ (state.consult unicode classifier config ledger search call).log.written :=
          List.mem_append_right _ (List.mem_singleton_self _)
        exact ⟨_, @mem_written_of_mem unicode classifier config ledger search _ rest _ here⟩
      · exact ih later

/-- The ledger has fewer entries than its capacity whenever a consult is recorded. -/
def Roomy (unicode : Unicode) (classifier : Classifier) (config : AuditConfig)
    (ledger : LedgerConfig) (search : Text → List Text) (state : Recorded)
    (history : List ConsultCall) : Prop :=
  ∀ before call after, history = before ++ call :: after →
    (recordAll unicode classifier config ledger search state before).entries.items.length <
      ledger.maxEntries

/-- The ledger remembers the consults of a history. -/
theorem remembers_recordAll {consults : List Consult} {since : Time}
    (remembers : Remembers ledger state.entries consults since)
    (ordered : history.Pairwise fun first second => first.now ≤ second.now)
    (onward : ∀ call ∈ history, since ≤ call.now)
    (room : Roomy unicode classifier config ledger search state history) :
    ∃ upto, Remembers ledger
        (recordAll unicode classifier config ledger search state history).entries
        ((history.map (ConsultCall.consult unicode classifier)).reverse ++ consults) upto ∧
      ∀ now, since ≤ now → (∀ call ∈ history, call.now ≤ now) → upto ≤ now := by
  induction history generalizing state consults since with
  | nil => exact ⟨since, remembers, fun _ past _ => past⟩
  | cons call rest ih =>
      rw [List.pairwise_cons] at ordered
      have recorded : Remembers ledger
          (state.consult unicode classifier config ledger search call).entries
          (call.consult unicode classifier :: consults) call.now :=
        @Remembers.record _ _ (call.consult unicode classifier) _ _ _ remembers
          (onward call List.mem_cons_self) (room [] call rest rfl)
      obtain ⟨upto, whole, last⟩ := ih recorded ordered.2 ordered.1 (by
        intro before other after split
        exact room (call :: before) other after (congrArg (call :: ·) split))
      refine ⟨upto, ?_, ?_⟩
      · rw [List.map_cons, List.reverse_cons, List.append_assoc]
        exact whole
      · intro now _ late
        exact last now (late call List.mem_cons_self)
          fun other member => late other (List.mem_cons_of_mem _ member)

end Logged

/-! ## How the report judges -/

namespace Report

section Judge

variable {unicode : Unicode} {classifier : Classifier} {clock : LogClock}
  {commit : GovernedCommit} {consults : List ConsultRow} {windowSec graceSec : Int}
  {clearance : GateClearance} {commits : List GovernedCommit} {signals more : List Signal}
  {signal : Signal}

theorem mem_addSignals : signal ∈ addSignals signals more ↔ signal ∈ signals ∨ signal ∈ more := by
  induction more generalizing signals with
  | nil => simp [addSignals]
  | cons first rest ih =>
      rw [addSignals, List.mem_cons]
      split
      · rename_i listed
        rw [ih]
        constructor
        · rintro (before | later)
          · exact .inl before
          · exact .inr (.inr later)
        · rintro (before | rfl | later)
          · exact .inl before
          · exact .inl listed
          · exact .inr later
      · rw [ih, List.mem_append, List.mem_singleton, or_assoc]

theorem nodup_addSignals (once : signals.Nodup) : (addSignals signals more).Nodup := by
  induction more generalizing signals with
  | nil => exact once
  | cons first rest ih =>
      rw [addSignals]
      split
      · exact ih once
      · rename_i absent
        apply ih
        apply once.append (List.nodup_singleton first)
        intro other listed last
        rw [List.mem_singleton.mp last] at listed
        exact absent listed

theorem mem_commitSignals : signal ∈ commitSignals unicode classifier commit ↔
    ∃ file ∈ commit.files, signal ∈ classifier.classify unicode [] (some file) [] := by
  rw [commitSignals, mem_addSignals, List.mem_flatMap]
  simp

theorem nodup_commitSignals : (commitSignals unicode classifier commit).Nodup :=
  nodup_addSignals List.nodup_nil

/-- The signals that a list of consults covers. -/
theorem mem_signalsOf_covered : signal ∈ signalsOf (covered consults) ↔
    ∃ consult ∈ consults, consult.trigger = PyStr.lit "explicit" ∧
      signal ∈ signalsOf (consult.coverage.getD []) := by
  unfold signalsOf covered
  simp only [List.mem_filterMap, List.mem_flatMap]
  constructor
  · rintro ⟨s, ⟨consult, member, listed⟩, read⟩
    split at listed
    · rename_i explicit
      exact ⟨consult, member, explicit, s, listed, read⟩
    · cases listed
  · rintro ⟨consult, member, explicit, s, listed, read⟩
    refine ⟨s, ⟨consult, member, ?_⟩, read⟩
    rw [if_pos explicit]
    exact listed

/-- When every consult has its coverage, a commit is judged by what is missing. -/
theorem judge_intent (recorded : ∀ consult ∈ consults, consult.coverage.isSome = true) :
    judge unicode classifier clock consults windowSec graceSec .intent commit =
      let missing := uncoveredSignals (commitSignals unicode classifier commit)
        (signalsOf (covered (inWindow clock commit consults windowSec graceSec)))
      if missing = [] then .verified else .unverified (some missing) := by
  have no_gap : ((inWindow clock commit consults windowSec graceSec).any fun consult =>
      consult.coverage.isNone) = false := by
    rw [List.any_eq_false]
    intro consult member missing
    have here := recorded consult (List.mem_filter.mp member).1
    rw [Option.isNone_iff_eq_none] at missing
    rw [missing] at here
    cases here
  unfold judge
  simp only [no_gap, List.isEmpty_iff, Bool.false_eq_true, if_false]

/-- The commits that are verified are those judged so. -/
theorem mem_verified (commit : GovernedCommit) :
    commit ∈ (correlate unicode classifier clock commits consults windowSec graceSec
      clearance).verified ↔ commit ∈ commits ∧ ∀ missing,
        judge unicode classifier clock consults windowSec graceSec clearance commit ≠
          .unverified missing := by
  have from_report : ∀ report : ComplianceReport, commit ∈ (commits.foldl (fun report commit =>
      report.add commit (judge unicode classifier clock consults windowSec graceSec clearance
        commit)) report).verified ↔ commit ∈ report.verified ∨ commit ∈ commits ∧ ∀ missing,
          judge unicode classifier clock consults windowSec graceSec clearance commit ≠
            .unverified missing := by
    induction commits with
    | nil => simp
    | cons first rest ih =>
        intro report
        rw [List.foldl_cons, ih, List.mem_cons]
        cases judged : judge unicode classifier clock consults windowSec graceSec clearance first with
        | unverified missing =>
            constructor
            · rintro (before | later)
              · exact .inl before
              · exact .inr ⟨.inr later.1, later.2⟩
            · rintro (before | ⟨rfl | later, good⟩)
              · exact .inl before
              · exact absurd judged (good missing)
              · exact .inr ⟨later, good⟩
        | _ =>
            rw [ComplianceReport.add, List.mem_append, List.mem_singleton]
            constructor
            · rintro ((before | rfl) | later)
              · exact .inl before
              · refine .inr ⟨.inl rfl, fun missing same => ?_⟩
                rw [judged] at same
                cases same
              · exact .inr ⟨.inr later.1, later.2⟩
            · rintro (before | ⟨rfl | later, good⟩)
              · exact .inl (.inl before)
              · exact .inl (.inr rfl)
              · exact .inr ⟨later, good⟩
  rw [correlate, from_report]
  simp

/-- What the report shows for a commit whose name is its own. -/
theorem get_uncovered (distinct : (commits.map GovernedCommit.sha).Nodup)
    (member : commit ∈ commits) :
    (correlate unicode classifier clock commits consults windowSec graceSec
        clearance).uncovered.get commit.sha =
      match judge unicode classifier clock consults windowSec graceSec clearance commit with
      | .unverified missing => missing
      | _ => none := by
  have elsewhere : ∀ (others : List GovernedCommit) (report : ComplianceReport) (sha : Text),
      sha ∉ others.map GovernedCommit.sha → (others.foldl (fun report commit =>
        report.add commit (judge unicode classifier clock consults windowSec graceSec clearance
          commit)) report).uncovered.get sha = report.uncovered.get sha := by
    intro others
    induction others with
    | nil => exact fun _ _ _ => rfl
    | cons first rest ih =>
        intro report sha absent
        rw [List.map_cons, List.mem_cons, not_or] at absent
        rw [List.foldl_cons, ih _ _ absent.2]
        cases judge unicode classifier clock consults windowSec graceSec clearance first with
        | unverified missing =>
            cases missing with
            | none => rfl
            | some missing => exact Dict.get_set_of_ne _ _ absent.1
        | _ => rfl
  have from_report : ∀ report : ComplianceReport, report.uncovered.get commit.sha = none →
      (commits.foldl (fun report commit => report.add commit (judge unicode classifier clock
        consults windowSec graceSec clearance commit)) report).uncovered.get commit.sha =
        match judge unicode classifier clock consults windowSec graceSec clearance commit with
        | .unverified missing => missing
        | _ => none := by
    induction commits with
    | nil => cases member
    | cons first rest ih =>
        intro report nothing
        rw [List.map_cons, List.nodup_cons] at distinct
        rw [List.foldl_cons]
        rcases List.mem_cons.mp member with rfl | later
        · rw [elsewhere rest _ _ distinct.1]
          cases judge unicode classifier clock consults windowSec graceSec clearance commit with
          | unverified missing =>
              cases missing with
              | none => exact nothing
              | some missing => exact Dict.get_set _ _ _
          | _ => exact nothing
        · apply ih distinct.2 later
          have different : commit.sha ≠ first.sha := by
            intro same
            apply distinct.1
            rw [← same]
            exact List.mem_map_of_mem later
          cases judge unicode classifier clock consults windowSec graceSec clearance first with
          | unverified missing =>
              cases missing with
              | none => exact nothing
              | some missing =>
                  rw [← nothing]
                  exact Dict.get_set_of_ne _ _ different
          | _ => exact nothing
  exact from_report _ rfl

end Judge

end Report

/-! ## The two agree -/

section Agree

variable {unicode : Unicode} {classifier : Classifier} {clock : LogClock} {config : AuditConfig}
  {ledger : LedgerConfig} {search : Text → List Text} {history : List ConsultCall}
  {state : Recorded} {workspace session : Text}

/-- What covers a signal does not depend on order or repetition. -/
theorem Signal.coveredBy_congr {signal : Signal} {first second : List Signal}
    (same : ∀ covering, covering ∈ first ↔ covering ∈ second) :
    signal.coveredBy first = signal.coveredBy second := by
  rw [Bool.eq_iff_iff, Signal.coveredBy_iff, Signal.coveredBy_iff]
  simp only [same]

theorem uncoveredSignals_congr {signals first second : List Signal}
    (same : ∀ covering, covering ∈ first ↔ covering ∈ second) :
    uncoveredSignals signals first = uncoveredSignals signals second := by
  unfold uncoveredSignals
  apply List.filter_congr
  intro signal _
  rw [Signal.coveredBy_congr same]

/-- Under intent clearance an action passes exactly when none of its signals is uncovered. -/
theorem gateCheck_intent_iff {entries : LedgerEntries} {key : ConsultKey} {action : GateAction}
    {now ttl : Time} :
    (gateCheck unicode classifier entries .intent key action now ttl).allows = true ↔
      uncoveredSignals (action.signals unicode classifier) (entries.freshSignals key now ttl) =
        [] := by
  by_cases governed : action.Governed unicode classifier
  · rw [gateCheck_intent_allows governed, uncoveredSignals, List.filter_eq_nil_iff]
    simp
  · have none_here : action.signals unicode classifier = [] := not_not.mp governed
    simp only [gateCheck, GateCheckResponse.allows, none_here, List.isEmpty_nil, if_true]
    exact iff_of_true trivial rfl

/-- What a denial under intent clearance names. -/
theorem gateCheck_names_iff {entries : LedgerEntries} {key : ConsultKey} {action : GateAction}
    {now ttl : Time} {signal : Signal} :
    (∃ signals intent, (gateCheck unicode classifier entries .intent key action now ttl).reason =
        .uncovered signals intent ∧ signal ∈ signals) ↔
      signal ∈ uncoveredSignals (action.signals unicode classifier)
        (entries.freshSignals key now ttl) := by
  constructor
  · rintro ⟨signals, intent, blocked, listed⟩
    rw [(gateCheck_uncovered blocked).1] at listed
    exact listed
  · intro listed
    have carried := (mem_uncoveredSignals.mp listed).1
    have some_signal : (action.signals unicode classifier).isEmpty = false :=
      List.isEmpty_eq_false_iff.mpr (List.ne_nil_of_mem carried)
    have some_missing : (uncoveredSignals (action.signals unicode classifier)
        (entries.freshSignals key now ttl)).isEmpty = false :=
      List.isEmpty_eq_false_iff.mpr (List.ne_nil_of_mem listed)
    refine ⟨_, suggestIntent classifier action.path (uncoveredSignals
      (action.signals unicode classifier) (entries.freshSignals key now ttl)), ?_, listed⟩
    simp only [gateCheck, some_signal, some_missing, Bool.false_eq_true, if_false]

/-- The report reads one consult for each consult of the workspace. -/
theorem extractConsults_recordAll (runtime : Runtime) {events : List Mapping}
    (others : ∀ event ∈ state.log.written, Report.isConsult workspace event = false)
    (stamped : ∀ call ∈ history, call.ts = clock.write call.now)
    (read : ∀ event, event ∈ events ↔ event ∈
      (recordAll unicode classifier config ledger search state history).log.written) :
    ∃ rows, Report.extractConsults runtime clock events workspace = .ok rows ∧
      ∀ row, row ∈ rows ↔ ∃ call ∈ history, call.workspace = workspace ∧
        row = call.row unicode classifier := by
  have consults : ∀ event ∈ events.filter (Report.isConsult workspace), ∃ call ∈ history,
      call.workspace = workspace ∧
        Report.consultRow runtime clock event = .ok (call.row unicode classifier) := by
    intro event member
    obtain ⟨listed, here⟩ := List.mem_filter.mp member
    rcases mem_written_recordAll ((read event).mp listed) with before | ⟨call, made, last, rfl⟩
    · rw [others event before] at here
      cases here
    · rw [isConsult_chained] at here
      exact ⟨call, made, of_decide_eq_true here, consultRow_chained runtime last (stamped call made)⟩
  have each : ∀ event ∈ events.filter (Report.isConsult workspace),
      ∃ row, Report.consultRow runtime clock event = .ok row := by
    intro event member
    obtain ⟨call, -, -, row⟩ := consults event member
    exact ⟨_, row⟩
  obtain ⟨rows, extracted⟩ : ∃ rows,
      Report.extractConsults runtime clock events workspace = .ok rows :=
    Except.exists_mapM_ok_iff.mpr each
  refine ⟨rows, extracted, fun row => ⟨?_, ?_⟩⟩
  · intro member
    obtain ⟨event, listed, made⟩ := Except.exists_of_mem_mapM extracted member
    obtain ⟨call, member, here, row_eq⟩ := consults event listed
    exact ⟨call, member, here, Except.ok.inj (made.symm.trans row_eq)⟩
  · rintro ⟨call, made, here, rfl⟩
    obtain ⟨last, written⟩ := @exists_written_of_mem unicode classifier config ledger search state
      history call made
    have listed : config.chained last (call.event unicode classifier) call.eventId ∈
        events.filter (Report.isConsult workspace) := by
      refine List.mem_filter.mpr ⟨(read _).mpr written, ?_⟩
      rw [isConsult_chained]
      exact decide_eq_true here
    obtain ⟨row, member, made_row⟩ := Except.mem_mapM_of_mem extracted listed
    rw [consultRow_chained runtime last (stamped call made)] at made_row
    cases made_row
    exact member

/-- What the consults in the window of a commit cover is what the ledger has fresh. -/
theorem mem_covered_iff_fresh {rows : List Report.ConsultRow} {entries : LedgerEntries}
    {upto : Time} {commit : GovernedCommit} {windowSec : Int}
    (remembers : Remembers ledger entries
      (history.map (ConsultCall.consult unicode classifier)).reverse upto)
    (alone : ∀ call ∈ history, call.workspace = workspace → call.sourceSession = session)
    (retained : windowSec * clock.perSecond ≤ ledger.retentionSec)
    (rows_iff : ∀ row, row ∈ rows ↔ ∃ call ∈ history, call.workspace = workspace ∧
      row = call.row unicode classifier)
    (late : ∀ call ∈ history, call.now ≤ commit.ts * clock.perSecond)
    (onward : upto ≤ commit.ts * clock.perSecond) (signal : Signal) :
    signal ∈ signalsOf (Report.covered (Report.inWindow clock commit rows windowSec 0)) ↔
      signal ∈ entries.freshSignals (session, workspace) (commit.ts * clock.perSecond)
        (windowSec * clock.perSecond) := by
  have explicit_iff : ∀ call : ConsultCall,
      (call.row unicode classifier).trigger = PyStr.lit "explicit" ↔
        Trigger.ofText call.trigger = .explicit := by
    intro call
    unfold ConsultCall.row Trigger.ofText
    dsimp only
    by_cases hook : call.trigger = "prompt_hook".toList
    · rw [if_pos hook, if_pos hook]
      decide
    · rw [if_neg hook, if_neg hook]
      exact iff_of_true rfl rfl
  have in_window : ∀ call ∈ history, call.row unicode classifier ∈
      Report.inWindow clock commit rows windowSec 0 ↔ call.row unicode classifier ∈ rows ∧
        commit.ts * clock.perSecond - call.now ≤ windowSec * clock.perSecond := by
    intro call made
    have before := late call made
    unfold Report.inWindow
    rw [List.mem_filter, Int.add_zero, Int.sub_mul, Bool.and_eq_true, decide_eq_true_eq,
      decide_eq_true_eq]
    apply and_congr_right
    intro _
    change _ ≤ call.now ∧ call.now ≤ _ ↔ _
    constructor
    · rintro ⟨after, -⟩
      exact Int.sub_le_of_sub_le after
    · intro within
      exact ⟨Int.sub_le_of_sub_le within, before⟩
  rw [Report.mem_signalsOf_covered, remembers.mem_freshSignals onward retained]
  constructor
  · rintro ⟨row, member, explicit, covers⟩
    obtain ⟨call, made, here, rfl⟩ := (rows_iff row).mp (List.mem_filter.mp member).1
    have within := ((in_window call made).mp member).2
    refine ⟨call.consult unicode classifier, ?_, ⟨(explicit_iff call).mp explicit, ?_⟩, ?_, within⟩
    · exact List.mem_reverse.mpr (List.mem_map_of_mem made)
    · exact Prod.ext (alone call made here) here
    · rw [ConsultCall.row, Option.getD_some, signalsOf_text] at covers
      exact covers
  · rintro ⟨consult, member, ⟨explicit, key⟩, covers, within⟩
    obtain ⟨call, made, rfl⟩ := List.mem_map.mp (List.mem_reverse.mp member)
    have here : call.workspace = workspace := congrArg Prod.snd key
    refine ⟨call.row unicode classifier, ?_, (explicit_iff call).mpr explicit, ?_⟩
    · exact (in_window call made).mpr ⟨(rows_iff _).mpr ⟨call, made, here, rfl⟩, within⟩
    · rw [ConsultCall.row, Option.getD_some, signalsOf_text]
      exact covers

/-- For consults of one session in a workspace that are recorded in order, and a commit behind
them, the report verifies the commit exactly when the gate, asked at the time of the commit,
lets every one of its files pass; otherwise it names the signals that the gate names for them. -/
theorem report_judges_by_the_gate (runtime : Runtime) {log : AuditState}
    (others : ∀ event ∈ log.written, Report.isConsult workspace event = false)
    (ordered : history.Pairwise fun first second => first.now ≤ second.now)
    (alone : ∀ call ∈ history, call.workspace = workspace → call.sourceSession = session)
    (stamped : ∀ call ∈ history, call.ts = clock.write call.now)
    (room : Roomy unicode classifier config ledger search ⟨.empty, log⟩ history)
    {windowSec : Int} (retained : windowSec * clock.perSecond ≤ ledger.retentionSec)
    {events : List Mapping} (read : ∀ event, event ∈ events ↔ event ∈
      (recordAll unicode classifier config ledger search ⟨.empty, log⟩ history).log.written)
    {commits : List GovernedCommit} (distinct : (commits.map GovernedCommit.sha).Nodup)
    {commit : GovernedCommit} (member : commit ∈ commits)
    (late : ∀ call ∈ history, call.now ≤ commit.ts * clock.perSecond) (toolName : Text) :
    ∃ rows, Report.extractConsults runtime clock events workspace = .ok rows ∧
      let report := Report.correlate unicode classifier clock commits rows windowSec 0 .intent
      let gate := fun file : Text => gateCheck unicode classifier
        (recordAll unicode classifier config ledger search ⟨.empty, log⟩ history).entries .intent
        (session, workspace) ⟨toolName, some file, []⟩ (commit.ts * clock.perSecond)
        (windowSec * clock.perSecond)
      (commit ∈ report.verified ↔ ∀ file ∈ commit.files, (gate file).allows = true) ∧
        (commit ∈ report.verified → report.uncovered.get commit.sha = none) ∧
        (commit ∉ report.verified → ∃ missing, report.uncovered.get commit.sha = some missing ∧
          missing.Nodup ∧ ∀ signal, signal ∈ missing ↔ ∃ file ∈ commit.files,
            ∃ signals intent, (gate file).reason = .uncovered signals intent ∧
              signal ∈ signals) := by
  obtain ⟨rows, extracted, rows_iff⟩ :=
    @extractConsults_recordAll unicode classifier clock config ledger search history ⟨.empty, log⟩
      workspace runtime events others stamped read
  refine ⟨rows, extracted, ?_⟩
  obtain ⟨since, first⟩ : ∃ since : Time, ∀ call ∈ history, since ≤ call.now := by
    cases history with
    | nil => exact ⟨0, List.forall_mem_nil _⟩
    | cons call rest =>
        refine ⟨call.now, List.forall_mem_cons.mpr ⟨le_refl _, ?_⟩⟩
        exact (List.pairwise_cons.mp ordered).1
  obtain ⟨upto, remembers, last⟩ := @remembers_recordAll unicode classifier config ledger search
    ⟨.empty, log⟩ history [] (min since (commit.ts * clock.perSecond)) (Remembers.empty _) ordered
    (fun call made => (min_le_left _ _).trans (first call made)) room
  rw [List.append_nil] at remembers
  have onward := last _ (min_le_right _ _) late
  have same := mem_covered_iff_fresh remembers alone retained rows_iff late onward
  have recorded : ∀ row ∈ rows, row.coverage.isSome = true := by
    intro row listed
    obtain ⟨call, -, -, rfl⟩ := (rows_iff row).mp listed
    rfl
  have judged := @Report.judge_intent unicode classifier clock commit rows windowSec 0 recorded
  rw [uncoveredSignals_congr same] at judged
  -- A signal of the commit is missing when the gate misses it for one of the files.
  have missing_iff : ∀ signal, signal ∈ uncoveredSignals
      (Report.commitSignals unicode classifier commit)
      ((recordAll unicode classifier config ledger search ⟨.empty, log⟩ history).entries.freshSignals
        (session, workspace) (commit.ts * clock.perSecond) (windowSec * clock.perSecond)) ↔
      ∃ file ∈ commit.files, signal ∈ uncoveredSignals
        (GateAction.signals unicode classifier ⟨toolName, some file, []⟩)
        ((recordAll unicode classifier config ledger search ⟨.empty, log⟩
          history).entries.freshSignals (session, workspace) (commit.ts * clock.perSecond)
          (windowSec * clock.perSecond)) := by
    intro signal
    simp only [mem_uncoveredSignals, Report.mem_commitSignals, GateAction.signals]
    constructor
    · rintro ⟨⟨file, listed, carried⟩, open_signal⟩
      exact ⟨file, listed, carried, open_signal⟩
    · rintro ⟨file, listed, carried, open_signal⟩
      exact ⟨⟨file, listed, carried⟩, open_signal⟩
  dsimp only at judged ⊢
  rw [Report.mem_verified, Report.get_uncovered distinct member]
  simp only [gateCheck_intent_iff, gateCheck_names_iff, ← missing_iff, judged]
  by_cases clear : uncoveredSignals (Report.commitSignals unicode classifier commit)
      ((recordAll unicode classifier config ledger search ⟨.empty, log⟩ history).entries.freshSignals
        (session, workspace) (commit.ts * clock.perSecond) (windowSec * clock.perSecond)) = []
  · rw [if_pos clear]
    have passes : commit ∈ commits ∧ ∀ missing : Option (List Signal),
        Report.Judgement.verified ≠ .unverified missing := by
      refine ⟨member, ?_⟩
      intro missing same
      cases same
    refine ⟨iff_of_true passes ?_, fun _ => rfl, fun stuck => absurd passes stuck⟩
    · intro file listed
      rw [List.eq_nil_iff_forall_not_mem]
      intro signal missing
      have somewhere := (missing_iff signal).mpr ⟨file, listed, missing⟩
      rw [clear] at somewhere
      cases somewhere
  · rw [if_neg clear]
    refine ⟨iff_of_false ?_ ?_, ?_, fun _ => ⟨_, rfl, ?_, fun signal => Iff.rfl⟩⟩
    · rintro ⟨-, good⟩
      exact good _ rfl
    · intro every
      obtain ⟨signal, missing⟩ := List.exists_mem_of_ne_nil _ clear
      obtain ⟨file, listed, missing⟩ := (missing_iff signal).mp missing
      rw [every file listed] at missing
      cases missing
    · rintro ⟨-, good⟩
      exact absurd rfl (good _)
    · exact Report.nodup_commitSignals.filter _

/-- A clock of whole seconds. -/
def wholeSeconds : LogClock where
  perSecond := 1
  write now := .int now
  read
    | some (.int n) => .ok n
    | _ => .ok 0
  read_write _ := rfl

/-- An explicit consult about a module file. -/
def moduleCall : ConsultCall where
  workspace := "w".toList
  intent := "edit go.mod".toList
  sourceSession := "s".toList
  agentIdentity := "a".toList
  trigger := "explicit".toList
  now := 3
  ts := .int 3
  ts_printed := by decide
  ttlSeconds := 9
  eventId := "e".toList

/-- A commit of the module file, nine seconds behind the consult. -/
def moduleCommit : GovernedCommit :=
  ⟨"c".toList, 12, "a".toList, ["go.mod".toList]⟩

/-- The consult in a new ledger and a new log. -/
def moduleRecord : Recorded :=
  recordAll .ascii shippedClassifier sampleConfig ⟨false, 9, 2⟩ (fun _ => [])
    ⟨.empty, .start [] 0⟩ [moduleCall]

theorem report_judges_moduleCommit :
    ∃ rows, Report.extractConsults (.ofBlocks []) wholeSeconds moduleRecord.log.written
        "w".toList = .ok rows ∧
      (moduleCommit ∈ (Report.correlate .ascii shippedClassifier wholeSeconds [moduleCommit] rows 9
          0 .intent).verified ↔
        ∀ file ∈ moduleCommit.files, (gateCheck .ascii shippedClassifier moduleRecord.entries
          .intent ("s".toList, "w".toList) ⟨[], some file, []⟩ (12 * 1) (9 * 1)).allows = true) := by
  have room : Roomy .ascii shippedClassifier sampleConfig ⟨false, 9, 2⟩ (fun _ => [])
      ⟨.empty, .start [] 0⟩ [moduleCall] := by
    intro before call after split
    cases before with
    | nil => exact Nat.succ_pos 1
    | cons first rest =>
        rw [List.cons_append, List.cons_eq_cons] at split
        exact absurd split.2.symm (List.append_ne_nil_of_right_ne_nil _ (List.cons_ne_nil _ _))
  obtain ⟨rows, extracted, judged, -⟩ := @report_judges_by_the_gate .ascii shippedClassifier
    wholeSeconds sampleConfig ⟨false, 9, 2⟩ (fun _ => []) [moduleCall] "w".toList "s".toList
    (.ofBlocks []) (.start [] 0) (List.forall_mem_nil _) (List.pairwise_singleton _ _)
    (List.forall_mem_singleton.mpr fun _ => rfl) (List.forall_mem_singleton.mpr rfl) room 9
    (by decide) moduleRecord.log.written (fun _ => Iff.rfl) [moduleCommit]
    (List.nodup_singleton _) moduleCommit (List.mem_singleton_self _)
    (List.forall_mem_singleton.mpr (by decide)) []
  exact ⟨rows, extracted, judged⟩

end Agree

end DataOlympus
