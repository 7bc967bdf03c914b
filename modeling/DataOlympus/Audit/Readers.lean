import DataOlympus.Audit.Torn
import DataOlympus.Enforce.GateCheck
import DataOlympus.Select.Tally

/-!
# The readers of the audit log

Three tools read the log backwards, line by line, and a consult reads it for its own session.
A line may be anything.  Two of the tools ask whether a value is an object before they look
for its fields.
-/

namespace DataOlympus

open Lines Python

/-! ## Lines -/

/-- What `json.loads` makes of a stripped line. -/
inductive LogLine where
  | blank
  /-- `JSONDecodeError`. -/
  | undecodable
  /-- `ValueError` for an integer with too many digits, or `RecursionError`. -/
  | overLimit
  | value (value : Value)

/-- A line as `iter_filtered` takes it.  `limited` are the texts on which the decoder runs into
a limit of the interpreter. -/
def JsonModule.logLine (json : JsonModule) (limited : Text → Bool) (line : Text) : LogLine :=
  let stripped := strip line
  if stripped.isEmpty then .blank
  else if limited stripped then .overLimit
  else (json.loads stripped).elim .undecodable .value

namespace LogLine

/-- The line counts as scanned. -/
def shown : LogLine → Bool
  | .blank => false
  | _ => true

/-- `json.loads` returns or raises `JSONDecodeError`. -/
def bounded : LogLine → Bool
  | .overLimit => false
  | _ => true

/-- The value is an object, if there is one. -/
def plain : LogLine → Bool
  | .value (.dict _) => true
  | .value _ => false
  | _ => true

end LogLine

/-- The lines of the files that a query reads, the last one first. -/
def AuditFiles.backwards (json : JsonModule) (limited : Text → Bool) (files : AuditFiles)
    (includeRotated : Bool) : List LogLine :=
  let rotated := if includeRotated then
    files.rotatedPaths.reverse.map files.rotated.lookup else []
  (files.live :: rotated).flatMap fun text =>
    ((readlines (text.getD [])).map (json.logLine limited)).reverse

/-! ## The scan -/

/-- What ends a reader. -/
inductive ReaderError where
  /-- `ValueError` or `RecursionError` of `json.loads`. -/
  | limit
  /-- `AttributeError` of `ev.get`. -/
  | attribute
  /-- `UnicodeEncodeError` of an append. -/
  | encode
  deriving DecidableEq

/-- What `iter_filtered(…)` yields before it ends or raises. -/
inductive Scan where
  | done
  | raises
  | yields (value : Value) (rest : Scan)

/-- The first items, if there is a limit. -/
def atMost {α : Type} (limit : Option Int) (items : List α) : List α :=
  match limit with
  | none => items
  | some limit => items.take limit.toNat

namespace AuditQuery

variable (query : AuditQuery)

/-- The loop of `iter_filtered`, with `scanned`. -/
def scan (scanned : Nat) : List LogLine → Scan
  | [] => .done
  | line :: rest =>
      if query.maxScanEvents.any fun limit => limit ≤ (scanned : Int) then .done
      else
        match line with
        | .blank => scan scanned rest
        | .undecodable => scan (scanned + 1) rest
        | .overLimit => .raises
        | .value value =>
            match query.examine value with
            | .passes => scan (scanned + 1) rest
            | .stops => .done
            | .yields => .yields value (scan (scanned + 1) rest)

/-- An event that is older than `since`. -/
def ends : LogLine → Bool
  | .value value => match query.examine value with
    | .stops => true
    | _ => false
  | _ => false

/-- The lines within the bounds of the scan: no more than `max_scan_events` that hold something,
and none from the first event on that is older than `since`. -/
def window (lines : List LogLine) : List LogLine :=
  (atMost query.maxScanEvents (lines.filter LogLine.shown)).takeWhile fun line => !query.ends line

/-- The value that is yielded for a line. -/
def yielded : LogLine → Option Value
  | .value value => match query.examine value with
    | .yields => some value
    | _ => none
  | _ => none

end AuditQuery

/-! ## `kb_audit` -/

/-- `AuditResponse`. -/
structure AuditResponse (Event : Type) where
  events : List Event
  returned : Nat
  limitHit : Bool
  skipped : Nat

/-- The response for what was collected. -/
def AuditResponse.of {Event : Type} (limit : Int) (events : List Event) (skipped : Nat) :
    AuditResponse Event where
  events := events
  returned := events.length
  limitHit := limit ≤ events.length
  skipped := skipped

section Audit

variable {Event : Type} (validate : Mapping → Option Event)

/-- `AuditEvent(**ev)`, unless it raises `TypeError` or `ValidationError`. -/
def validEvent : Value → Option Event
  | .dict event => validate event
  | _ => none

/-- The loop of `kb_audit_fn`. -/
def auditLoop (limit : Int) (events : List Event) (skipped : Nat) :
    Scan → Except ReaderError (AuditResponse Event)
  | .done => .ok (.of limit events skipped)
  | .raises => .error .limit
  | .yields value rest =>
      match validEvent validate value with
      | none => auditLoop limit events (skipped + 1) rest
      | some event =>
          let events := events ++ [event]
          if limit ≤ events.length then .ok (.of limit events skipped)
          else auditLoop limit events skipped rest

/-- `_SCAN_MULTIPLE`. -/
def scanMultiple : Int :=
  50

/-- The query of `kb_audit_fn`. -/
def AuditQuery.audit (since : Option (Value → Bool)) (agent status : Option PyStr) (limit : Int) :
    AuditQuery where
  since := since
  agent := agent
  status := status
  includeRotated := since.isSome
  maxScanEvents := some (max 1 limit * scanMultiple)

/-- `kb_audit_fn(…)` on the lines it may read. -/
def kbAudit (query : AuditQuery) (limit : Int) (lines : List LogLine) :
    Except ReaderError (AuditResponse Event) :=
  auditLoop validate limit [] 0 (query.scan 0 lines)

end Audit

/-! ## `kb_session_recap` -/

/-- `SessionRecapResponse`. -/
structure SessionRecap where
  sourceSession : Text
  committed : Nat
  demotedToPending : Nat
  rejected : Nat
  captureDerived : Nat

/-- `value.startswith("rejected")`, for a `str`. -/
def Value.rejected : Value → Bool
  | .str status => (PyStr.lit "rejected").isPrefixOf status
  | _ => false

namespace SessionRecap

/-- Nothing is counted yet. -/
def start (sourceSession : Text) : SessionRecap :=
  ⟨sourceSession, 0, 0, 0, 0⟩

/-- The event was committed or parked and came with a capture envelope. -/
def captured (event : Mapping) (status : Value) : Bool :=
  (status.isStr (PyStr.lit "committed") || status.isStr (PyStr.lit "pending_confirmation")) &&
    (event.get "event_type").any (Value.isStr (PyStr.lit "propose_memory")) &&
      (event.get "capture").any Value.truthy

/-- The body of the loop of `kb_session_recap_fn`. -/
def count (recap : SessionRecap) (event : Mapping) : SessionRecap :=
  if !(event.get "source_session").any (Value.isStr (PyStr.ofText recap.sourceSession)) then recap
  else
    let status := (event.get "status").getD (.str [])
    let counted :=
      if status.isStr (PyStr.lit "committed") then
        { recap with committed := recap.committed + 1 }
      else if status.isStr (PyStr.lit "pending_confirmation") then
        { recap with demotedToPending := recap.demotedToPending + 1 }
      else recap
    if captured event status then { counted with captureDerived := counted.captureDerived + 1 }
    else if status.rejected then { counted with rejected := counted.rejected + 1 }
    else counted

/-- The loop of `kb_session_recap_fn`. -/
def loop (recap : SessionRecap) : Scan → Except ReaderError SessionRecap
  | .done => .ok recap
  | .raises => .error .limit
  | .yields value rest =>
      match value with
      | .dict event => loop (recap.count event) rest
      | _ => .error .attribute

end SessionRecap

/-- `_DEFAULT_MAX_SCAN_EVENTS`. -/
def defaultMaxScanEvents : Int :=
  20000

/-- The query of `kb_session_recap_fn`. -/
def AuditQuery.recap (maxScanEvents : Option Int) : AuditQuery where
  since := none
  agent := none
  status := none
  includeRotated := true
  maxScanEvents := maxScanEvents

/-- `kb_session_recap_fn(…)` on the lines it may read. -/
def kbSessionRecap (sourceSession : Text) (maxScanEvents : Option Int) (lines : List LogLine) :
    Except ReaderError SessionRecap :=
  (SessionRecap.start sourceSession).loop ((AuditQuery.recap maxScanEvents).scan 0 lines)

/-! ## `kb_compliance` -/

/-- `ENFORCE_EVENT_TYPES`. -/
def enforceEventTypes : List PyStr :=
  [PyStr.lit "consult", PyStr.lit "gate_allow", PyStr.lit "gate_block", PyStr.lit "gate_bypass",
    PyStr.lit "gate_degraded"]

/-- `ComplianceResponse`. -/
structure Compliance where
  counts : Dict PyStr Nat
  byAgent : Dict PyStr (Dict PyStr Nat)
  skipped : Nat

/-- One more of a key. -/
def bump (counts : Dict PyStr Nat) (key : PyStr) : Dict PyStr Nat :=
  counts.set key ((counts.get key).getD 0 + 1)

/-- The type of an enforcement event. -/
def enforceType (event : Mapping) : Option PyStr :=
  match event.get "event_type" with
  | some (.str eventType) => if eventType ∈ enforceEventTypes then some eventType else none
  | _ => none

/-- The agent an event is counted for, if it is a `str`. -/
def attributed (event : Mapping) : Option PyStr :=
  match event.get "agent_identity" with
  | none => some (PyStr.lit "unknown")
  | some .null => some (PyStr.lit "unknown")
  | some (.str who) => some (if who.isEmpty then PyStr.lit "unknown" else who)
  | some _ => none

namespace Compliance

/-- Nothing is counted yet. -/
def start : Compliance :=
  ⟨.empty, .empty, 0⟩

/-- The body of the loop of `kb_compliance_fn`. -/
def count (report : Compliance) : Value → Compliance
  | .dict event =>
      match enforceType event with
      | none => report
      | some eventType =>
          match attributed event with
          | none => { report with skipped := report.skipped + 1 }
          | some who => { report with
              counts := bump report.counts eventType
              byAgent := report.byAgent.set who
                (bump ((report.byAgent.get who).getD .empty) eventType) }
  | _ => { report with skipped := report.skipped + 1 }

/-- The loop of `kb_compliance_fn`. -/
def loop (report : Compliance) : Scan → Except ReaderError Compliance
  | .done => .ok report
  | .raises => .error .limit
  | .yields value rest => loop (report.count value) rest

end Compliance

/-- The query of `kb_compliance_fn`. -/
def AuditQuery.compliance (since : Option (Value → Bool)) (agent : Option PyStr) :
    AuditQuery where
  since := since
  agent := agent
  status := none
  includeRotated := since.isSome
  maxScanEvents := none

/-- `kb_compliance_fn(…)` on the lines it may read. -/
def kbCompliance (query : AuditQuery) (lines : List LogLine) : Except ReaderError Compliance :=
  Compliance.start.loop (query.scan 0 lines)

/-! ## The bounds of a scan -/

namespace AuditQuery

variable {query : AuditQuery}

/-- What is yielded for the lines of a window. -/
def stream (query : AuditQuery) : List LogLine → Scan
  | [] => .done
  | .overLimit :: _ => .raises
  | line :: rest =>
      match query.yielded line with
      | some value => .yields value (stream query rest)
      | none => stream query rest

theorem atMost_cons {α : Type} {limit : Option Int} (item : α) (items : List α)
    (within : (limit.any fun limit => limit ≤ 0) = false) :
    atMost limit (item :: items) = item :: atMost (limit.map (· - 1)) items := by
  cases limit with
  | none => rfl
  | some limit =>
      have positive : 0 < limit := by simpa using within
      have one_more : limit.toNat = (limit - 1).toNat + 1 := by omega
      change (item :: items).take limit.toNat = item :: items.take (limit - 1).toNat
      rw [one_more, List.take_succ_cons]

theorem atMost_exhausted {α : Type} {limit : Option Int} (items : List α)
    (spent : (limit.any fun limit => limit ≤ 0) = true) : atMost limit items = [] := by
  cases limit with
  | none => cases spent
  | some limit =>
      have none_left : limit ≤ 0 := by simpa using spent
      rw [atMost, Int.toNat_of_nonpos none_left, List.take_zero]

/-- The scan goes through its window. -/
theorem scan_eq_stream (lines : List LogLine) :
    query.scan 0 lines = query.stream (query.window lines) := by
  have from_count : ∀ scanned : Nat, query.scan scanned lines =
      query.stream ((atMost (query.maxScanEvents.map (· - (scanned : Int)))
        (lines.filter LogLine.shown)).takeWhile fun line => !query.ends line) := by
    induction lines with
    | nil =>
        intro scanned
        cases query.maxScanEvents <;> simp [scan, atMost, stream]
    | cons line rest ih =>
        intro scanned
        have same : (query.maxScanEvents.any fun limit => limit ≤ (scanned : Int)) =
            ((query.maxScanEvents.map (· - (scanned : Int))).any fun limit => limit ≤ 0) := by
          cases query.maxScanEvents with
          | none => rfl
          | some limit => simp
        have onward : (query.maxScanEvents.map (· - (scanned : Int))).map (· - 1) =
            query.maxScanEvents.map (· - ((scanned + 1 : Nat) : Int)) := by
          cases query.maxScanEvents with
          | none => rfl
          | some limit =>
              simp only [Option.map_some, Option.some.injEq]
              omega
        unfold scan
        rw [same]
        cases spent : (query.maxScanEvents.map (· - (scanned : Int))).any fun limit => limit ≤ 0 with
        | true => rw [if_pos rfl, atMost_exhausted _ spent, List.takeWhile_nil, stream]
        | false =>
            rw [if_neg Bool.false_ne_true]
            cases line with
            | blank => exact ih scanned
            | undecodable =>
                rw [List.filter_cons_of_pos rfl, atMost_cons _ _ spent, onward,
                  List.takeWhile_cons_of_pos rfl]
                exact ih (scanned + 1)
            | overLimit =>
                rw [List.filter_cons_of_pos rfl, atMost_cons _ _ spent,
                  List.takeWhile_cons_of_pos rfl]
                rfl
            | value value =>
                rw [List.filter_cons_of_pos rfl, atMost_cons _ _ spent, onward]
                cases seen : query.examine value with
                | stops =>
                    rw [List.takeWhile_cons_of_neg (by simp [ends, seen])]
                    simp [stream, seen]
                | passes =>
                    rw [List.takeWhile_cons_of_pos (by simp [ends, seen])]
                    simp [stream, yielded, seen, ih (scanned + 1)]
                | yields =>
                    rw [List.takeWhile_cons_of_pos (by simp [ends, seen])]
                    simp [stream, yielded, seen, ih (scanned + 1)]
  rw [from_count 0]
  have whole : query.maxScanEvents.map (· - ((0 : Nat) : Int)) = query.maxScanEvents := by
    cases query.maxScanEvents <;> simp
  rw [whole, window]

/-- Some lines of a window are a window. -/
theorem window_filter (p : LogLine → Bool) (lines : List LogLine) :
    query.window ((query.window lines).filter p) = (query.window lines).filter p := by
  have short : ∀ items : List LogLine, items.length ≤ (query.window lines).length →
      atMost query.maxScanEvents items = items := by
    intro items fewer
    unfold window at fewer
    cases limited : query.maxScanEvents with
    | none => rfl
    | some limit =>
        apply List.take_of_length_le
        apply fewer.trans
        apply ((List.takeWhile_prefix _).length_le).trans
        rw [limited, atMost, List.length_take]
        exact min_le_left _ _
  have shown : ∀ line ∈ query.window lines, line.shown = true ∧ query.ends line = false := by
    intro line member
    have kept := List.mem_takeWhile_imp member
    have counted := (List.takeWhile_prefix _).subset member
    have among : line ∈ lines.filter LogLine.shown := by
      unfold atMost at counted
      cases limited : query.maxScanEvents with
      | none => simpa [limited] using counted
      | some limit =>
          rw [limited] at counted
          exact List.mem_of_mem_take counted
    exact ⟨(List.mem_filter.mp among).2, by simpa using kept⟩
  have all_shown : ((query.window lines).filter p).filter LogLine.shown =
      (query.window lines).filter p :=
    List.filter_eq_self.mpr fun line member => (shown line (List.mem_filter.mp member).1).1
  rw [window, all_shown, short _ (List.length_filter_le _ _)]
  apply List.takeWhile_eq_self_iff.mpr
  intro line member
  rw [(shown line (List.mem_filter.mp member).1).2]
  rfl

end AuditQuery

/-! ## What a reader makes of its window -/

section Audit

variable {Event : Type} {validate : Mapping → Option Event} {query : AuditQuery} {limit : Int}

/-- The event of a line, if it is selected and well formed. -/
def lineEvent (validate : Mapping → Option Event) (query : AuditQuery) (line : LogLine) :
    Option Event :=
  (query.yielded line).bind (validEvent validate)

/-- How many events fill a page. -/
def pageSize (limit : Int) : Nat :=
  (max 1 limit).toNat

/-- No line on which the decoder gives up is reached before the page is full. -/
def FillsPage (validate : Mapping → Option Event) (query : AuditQuery) (limit : Int)
    (collected : Nat) (lines : List LogLine) : Prop :=
  (∀ line ∈ lines, line.bounded = true) ∨
    pageSize limit ≤ collected +
      ((lines.takeWhile LogLine.bounded).filterMap (lineEvent validate query)).length

theorem fillsPage_cons {line : LogLine} {lines : List LogLine} {collected : Nat}
    (bounded : line.bounded = true) :
    FillsPage validate query limit collected (line :: lines) ↔
      FillsPage validate query limit
        (collected + (lineEvent validate query line).toList.length) lines := by
  unfold FillsPage
  rw [List.forall_mem_cons, List.takeWhile_cons_of_pos bounded]
  cases read : lineEvent validate query line with
  | none => simp [bounded, read]
  | some event =>
      rw [List.filterMap_cons_some read, List.length_cons]
      simp only [bounded, true_and, Option.toList_some, List.length_singleton]
      apply or_congr_right
      omega

/-- The loop of `kb_audit_fn` on a window. -/
theorem auditLoop_stream {lines : List LogLine} {events : List Event}
    (room : events.length < pageSize limit) (skipped : Nat) :
    (FillsPage validate query limit events.length lines → ∃ skips,
      auditLoop validate limit events skipped (query.stream lines) = .ok (.of limit
        ((events ++ lines.filterMap (lineEvent validate query)).take (pageSize limit)) skips)) ∧
    (¬FillsPage validate query limit events.length lines →
      auditLoop validate limit events skipped (query.stream lines) = .error .limit) := by
  induction lines generalizing events skipped with
  | nil =>
      have fills : FillsPage validate query limit events.length [] := .inl (List.forall_mem_nil _)
      refine ⟨fun _ => ⟨skipped, ?_⟩, fun stuck => absurd fills stuck⟩
      rw [List.filterMap_nil, List.append_nil, List.take_of_length_le room.le]
      rfl
  | cons line rest ih =>
      cases within : line.bounded with
      | false =>
          have spent : line = .overLimit := by
            cases line with
            | overLimit => rfl
            | _ => cases within
          subst spent
          have stuck : ¬FillsPage validate query limit events.length (.overLimit :: rest) := by
            rintro (all | full)
            · cases all _ List.mem_cons_self
            · rw [List.takeWhile_cons_of_neg (by decide), List.filterMap_nil, List.length_nil,
                Nat.add_zero] at full
              omega
          exact ⟨fun fills => absurd fills stuck, fun _ => rfl⟩
      | true =>
          rw [fillsPage_cons within]
          have goes : query.stream (line :: rest) = match query.yielded line with
              | some value => .yields value (query.stream rest)
              | none => query.stream rest := by
            cases line with
            | overLimit => cases within
            | _ => rfl
          rw [goes]
          cases shown : query.yielded line with
          | none =>
              have nothing : lineEvent validate query line = none := by
                rw [lineEvent, shown, Option.bind_none]
              rw [nothing, List.filterMap_cons_none nothing]
              exact ih room skipped
          | some value =>
              have same : lineEvent validate query line = validEvent validate value := by
                rw [lineEvent, shown, Option.bind_some]
              dsimp only
              rw [auditLoop]
              cases read : validEvent validate value with
              | none =>
                  rw [read] at same
                  rw [same, List.filterMap_cons_none same]
                  exact ih room (skipped + 1)
              | some event =>
                  rw [read] at same
                  rw [same, List.filterMap_cons_some same]
                  simp only [Option.toList_some, List.length_singleton]
                  have longer : (events ++ [event]).length = events.length + 1 := by simp
                  have joined : events ++ event :: rest.filterMap (lineEvent validate query) =
                      (events ++ [event]) ++ rest.filterMap (lineEvent validate query) := by simp
                  rw [joined]
                  by_cases full : limit ≤ (events ++ [event]).length
                  · rw [if_pos full]
                    have size : (events ++ [event]).length = pageSize limit := by
                      unfold pageSize at room ⊢
                      omega
                    have fills : FillsPage validate query limit (events.length + 1) rest :=
                      .inr (by omega)
                    refine ⟨fun _ => ⟨skipped, ?_⟩, fun stuck => absurd fills stuck⟩
                    rw [List.take_append_of_le_length size.ge, List.take_of_length_le size.le]
                  · rw [if_neg full]
                    have open_page : (events ++ [event]).length < pageSize limit := by
                      unfold pageSize at room ⊢
                      omega
                    have next := ih open_page skipped
                    rw [longer] at next
                    exact next

theorem fillsPage_of_full {lines : List LogLine} {collected : Nat}
    (full : pageSize limit ≤ collected) : FillsPage validate query limit collected lines :=
  .inr (full.trans (Nat.le_add_right _ _))

/-- Lines without an event do not keep a page from being filled. -/
theorem fillsPage_filter {malformed : LogLine → Bool} {lines : List LogLine} {collected : Nat}
    (eventless : ∀ line, malformed line = true → lineEvent validate query line = none)
    (fills : FillsPage validate query limit collected lines) :
    FillsPage validate query limit collected (lines.filter fun line => !malformed line) := by
  induction lines generalizing collected with
  | nil => exact fills
  | cons line rest ih =>
      cases within : line.bounded with
      | false =>
          apply fillsPage_of_full
          rcases fills with all | full
          · rw [all line List.mem_cons_self] at within
            cases within
          · rwa [List.takeWhile_cons_of_neg (by simp [within])] at full
      | true =>
          have later := ih ((fillsPage_cons within).mp fills)
          cases marked : malformed line with
          | true =>
              rw [List.filter_cons_of_neg (by simp [marked])]
              rwa [eventless line marked] at later
          | false =>
              rw [List.filter_cons_of_pos (by simp [marked])]
              exact (fillsPage_cons within).mpr later

end Audit

/-- The line is an event of the log. -/
def LogLine.wellFormed {Event : Type} (validate : Mapping → Option Event) : LogLine → Bool
  | .value found => (validEvent validate found).isSome
  | _ => false

/-- `kb_audit_fn` raises nothing, and its page is the same, but for the count of what was
skipped, when lines that are no events are taken from what it scans. -/
def AuditTolerates {Event : Type} (validate : Mapping → Option Event) (query : AuditQuery)
    (limit : Int) (lines : List LogLine) : Prop :=
  ∃ response, kbAudit validate query limit lines = .ok response ∧
    ∀ malformed : LogLine → Bool,
      (∀ line, malformed line = true → line.wellFormed validate = false) →
      ∃ skipped, kbAudit validate query limit
        ((query.window lines).filter fun line => !malformed line) =
          .ok { response with skipped := skipped }

theorem auditTolerates_iff {Event : Type} {validate : Mapping → Option Event} {query : AuditQuery}
    {limit : Int} {lines : List LogLine} :
    AuditTolerates validate query limit lines ↔
      FillsPage validate query limit 0 (query.window lines) := by
  have room : ([] : List Event).length < pageSize limit := by
    unfold pageSize
    rw [List.length_nil]
    omega
  constructor
  · rintro ⟨response, answered, -⟩
    by_contra stuck
    rw [kbAudit, AuditQuery.scan_eq_stream, (auditLoop_stream room 0).2 stuck] at answered
    cases answered
  · intro fills
    obtain ⟨skips, answered⟩ := (auditLoop_stream room 0).1 fills
    refine ⟨_, (congrArg _ (AuditQuery.scan_eq_stream lines)).trans answered, ?_⟩
    intro malformed ill
    have eventless : ∀ line, malformed line = true → lineEvent validate query line = none := by
      intro line marked
      have none_here := ill line marked
      cases line with
      | value value =>
          have refused : validEvent validate value = none := by
            simpa [LogLine.wellFormed] using none_here
          cases seen : query.examine value with
          | yields => simp [lineEvent, AuditQuery.yielded, seen, refused]
          | _ => simp [lineEvent, AuditQuery.yielded, seen]
      | _ => rfl
    have kept : ((query.window lines).filter fun line => !malformed line).filterMap
        (lineEvent validate query) = (query.window lines).filterMap (lineEvent validate query) := by
      rw [List.filterMap_filter]
      apply List.filterMap_congr
      intro line _
      cases marked : malformed line with
      | true => simp [eventless line marked]
      | false => simp
    obtain ⟨others, again⟩ := (auditLoop_stream room 0).1 (fillsPage_filter eventless fills)
    rw [kept] at again
    refine ⟨others, ?_⟩
    rw [kbAudit, AuditQuery.scan_eq_stream, AuditQuery.window_filter, again]
    rfl

namespace SessionRecap

/-- What a line adds. -/
def countLine (recap : SessionRecap) : LogLine → SessionRecap
  | .value (.dict event) => recap.count event
  | _ => recap

/-- The loop of `kb_session_recap_fn` on a window. -/
theorem loop_stream {maxScanEvents : Option Int} {lines : List LogLine} (recap : SessionRecap) :
    ((∀ line ∈ lines, line.bounded = true ∧ line.plain = true) →
      recap.loop ((AuditQuery.recap maxScanEvents).stream lines) =
        .ok (lines.foldl countLine recap)) ∧
    (¬(∀ line ∈ lines, line.bounded = true ∧ line.plain = true) →
      ∃ e, recap.loop ((AuditQuery.recap maxScanEvents).stream lines) = .error e) := by
  induction lines generalizing recap with
  | nil => exact ⟨fun _ => rfl, fun stuck => absurd (List.forall_mem_nil _) stuck⟩
  | cons line rest ih =>
      rw [List.forall_mem_cons, List.foldl_cons]
      have passed : (line.bounded = true ∧ line.plain = true) →
          recap.loop ((AuditQuery.recap maxScanEvents).stream (line :: rest)) =
            (recap.countLine line).loop ((AuditQuery.recap maxScanEvents).stream rest) := by
        rintro ⟨within, object⟩
        cases line with
        | overLimit => cases within
        | value value =>
            cases value with
            | dict event => rfl
            | _ => cases object
        | _ => rfl
      have raised : ¬(line.bounded = true ∧ line.plain = true) →
          ∃ e, recap.loop ((AuditQuery.recap maxScanEvents).stream (line :: rest)) = .error e := by
        intro stuck
        cases line with
        | overLimit => exact ⟨.limit, rfl⟩
        | value value =>
            cases value with
            | dict event => exact absurd ⟨rfl, rfl⟩ stuck
            | _ => exact ⟨.attribute, rfl⟩
        | _ => exact absurd ⟨rfl, rfl⟩ stuck
      by_cases good : line.bounded = true ∧ line.plain = true
      · rw [passed good]
        refine ⟨fun all => (ih _).1 all.2, fun stuck => (ih _).2 fun all => stuck ⟨good, all⟩⟩
      · exact ⟨fun all => absurd all.1 good, fun _ => raised good⟩

/-- The counts of one recap are those of two others together. -/
structure Adds (whole kept marked : SessionRecap) : Prop where
  keptSession : kept.sourceSession = whole.sourceSession
  markedSession : marked.sourceSession = whole.sourceSession
  committed : whole.committed = kept.committed + marked.committed
  demotedToPending : whole.demotedToPending = kept.demotedToPending + marked.demotedToPending
  rejected : whole.rejected = kept.rejected + marked.rejected
  captureDerived : whole.captureDerived = kept.captureDerived + marked.captureDerived

theorem Adds.start (sourceSession : Text) :
    Adds (.start sourceSession) (.start sourceSession) (.start sourceSession) :=
  ⟨rfl, rfl, rfl, rfl, rfl, rfl⟩

theorem Adds.swap {whole kept marked : SessionRecap} (adds : Adds whole kept marked) :
    Adds whole marked kept where
  keptSession := adds.markedSession
  markedSession := adds.keptSession
  committed := adds.committed.trans (Nat.add_comm _ _)
  demotedToPending := adds.demotedToPending.trans (Nat.add_comm _ _)
  rejected := adds.rejected.trans (Nat.add_comm _ _)
  captureDerived := adds.captureDerived.trans (Nat.add_comm _ _)

/-- An event counts as much in the whole as in its part. -/
theorem Adds.count {whole kept marked : SessionRecap} (adds : Adds whole kept marked)
    (event : Mapping) : Adds (whole.count event) (kept.count event) marked := by
  obtain ⟨session, committed, demoted, rejected, captured⟩ := whole
  obtain ⟨_, keptCommitted, keptDemoted, keptRejected, keptCaptured⟩ := kept
  obtain ⟨rfl, sameSession, sumCommitted, sumDemoted, sumRejected, sumCaptured⟩ := adds
  dsimp only at sumCommitted sumDemoted sumRejected sumCaptured
  unfold SessionRecap.count
  dsimp only
  split_ifs
  all_goals
    refine ⟨rfl, sameSession, ?_, ?_, ?_, ?_⟩
    all_goals
      dsimp only
      omega

theorem Adds.countLine_left {whole kept marked : SessionRecap} (line : LogLine)
    (adds : Adds whole kept marked) : Adds (whole.countLine line) (kept.countLine line) marked := by
  unfold SessionRecap.countLine
  split
  · exact adds.count _
  · exact adds

end SessionRecap

/-- `kb_session_recap_fn` raises nothing, and whichever lines are taken from what it scans, the
others are counted as they were. -/
def RecapTolerates (sourceSession : Text) (maxScanEvents : Option Int) (lines : List LogLine) :
    Prop :=
  ∃ recap, kbSessionRecap sourceSession maxScanEvents lines = .ok recap ∧
    ∀ malformed : LogLine → Bool,
      let scanned := (AuditQuery.recap maxScanEvents).window lines
      ∃ kept marked, kbSessionRecap sourceSession maxScanEvents
          (scanned.filter fun line => !malformed line) = .ok kept ∧
        kbSessionRecap sourceSession maxScanEvents (scanned.filter malformed) = .ok marked ∧
          SessionRecap.Adds recap kept marked

theorem recapTolerates_iff {sourceSession : Text} {maxScanEvents : Option Int}
    {lines : List LogLine} :
    RecapTolerates sourceSession maxScanEvents lines ↔
      ∀ line ∈ (AuditQuery.recap maxScanEvents).window lines,
        line.bounded = true ∧ line.plain = true := by
  constructor
  · rintro ⟨recap, answered, -⟩
    by_contra stuck
    obtain ⟨e, raised⟩ := (SessionRecap.loop_stream (.start sourceSession)).2 stuck
    rw [kbSessionRecap, AuditQuery.scan_eq_stream, raised] at answered
    cases answered
  · intro good
    have answers : ∀ p : LogLine → Bool, kbSessionRecap sourceSession maxScanEvents
        (((AuditQuery.recap maxScanEvents).window lines).filter p) =
          .ok ((((AuditQuery.recap maxScanEvents).window lines).filter p).foldl
            SessionRecap.countLine (.start sourceSession)) := by
      intro p
      rw [kbSessionRecap, AuditQuery.scan_eq_stream, AuditQuery.window_filter]
      apply (SessionRecap.loop_stream (.start sourceSession)).1
      intro line member
      exact good line (List.mem_filter.mp member).1
    have answered : kbSessionRecap sourceSession maxScanEvents lines =
        .ok (((AuditQuery.recap maxScanEvents).window lines).foldl SessionRecap.countLine
          (.start sourceSession)) := by
      rw [kbSessionRecap, AuditQuery.scan_eq_stream]
      exact (SessionRecap.loop_stream (.start sourceSession)).1 good
    refine ⟨_, answered, fun malformed => ⟨_, _, answers _, answers _, ?_⟩⟩
    apply @Select.foldl_splits _ _ SessionRecap.countLine SessionRecap.Adds
    · intro whole kept marked line adds
      exact adds.countLine_left line
    · intro whole kept marked line adds
      exact (adds.swap.countLine_left line).swap
    · exact SessionRecap.Adds.start sourceSession

namespace Compliance

variable {query : AuditQuery}

/-- What a line adds. -/
def countLine (query : AuditQuery) (report : Compliance) (line : LogLine) : Compliance :=
  match query.yielded line with
  | some value => report.count value
  | none => report

/-- The loop of `kb_compliance_fn` on a window. -/
theorem loop_stream {lines : List LogLine} (report : Compliance) :
    ((∀ line ∈ lines, line.bounded = true) →
      report.loop (query.stream lines) = .ok (lines.foldl (countLine query) report)) ∧
    (¬(∀ line ∈ lines, line.bounded = true) →
      report.loop (query.stream lines) = .error .limit) := by
  induction lines generalizing report with
  | nil => exact ⟨fun _ => rfl, fun stuck => absurd (List.forall_mem_nil _) stuck⟩
  | cons line rest ih =>
      rw [List.forall_mem_cons, List.foldl_cons]
      cases within : line.bounded with
      | false =>
          cases line with
          | overLimit => exact ⟨fun all => absurd all.1 Bool.false_ne_true, fun _ => rfl⟩
          | _ => cases within
      | true =>
          have passed : report.loop (query.stream (line :: rest)) =
              (report.countLine query line).loop (query.stream rest) := by
            have goes : query.stream (line :: rest) = match query.yielded line with
                | some value => .yields value (query.stream rest)
                | none => query.stream rest := by
              cases line with
              | overLimit => cases within
              | _ => rfl
            rw [goes, countLine]
            cases query.yielded line <;> rfl
          rw [passed]
          exact ⟨fun all => (ih _).1 all.2, fun stuck => (ih _).2 fun all => stuck ⟨rfl, all⟩⟩

/-- How often a type was counted. -/
def total (report : Compliance) (eventType : PyStr) : Nat :=
  (report.counts.get eventType).getD 0

/-- How often a type was counted for an agent. -/
def totalOf (report : Compliance) (who eventType : PyStr) : Nat :=
  (((report.byAgent.get who).getD .empty).get eventType).getD 0

/-- The counts of one report are those of two others together. -/
structure Adds (whole kept marked : Compliance) : Prop where
  total : ∀ eventType, whole.total eventType = kept.total eventType + marked.total eventType
  totalOf : ∀ who eventType,
    whole.totalOf who eventType = kept.totalOf who eventType + marked.totalOf who eventType
  skipped : whole.skipped = kept.skipped + marked.skipped

theorem getD_bump (counts : Dict PyStr Nat) (key other : PyStr) :
    ((bump counts key).get other).getD 0 =
      (counts.get other).getD 0 + if other = key then 1 else 0 := by
  unfold bump
  by_cases same : other = key
  · rw [same, Dict.get_set, if_pos rfl, Option.getD_some]
  · rw [Dict.get_set_of_ne _ _ same, if_neg same, Nat.add_zero]

theorem Adds.start : Adds .start .start .start :=
  ⟨fun _ => rfl, fun _ _ => rfl, rfl⟩

theorem Adds.swap {whole kept marked : Compliance} (adds : Adds whole kept marked) :
    Adds whole marked kept where
  total eventType := (adds.total eventType).trans (Nat.add_comm _ _)
  totalOf who eventType := (adds.totalOf who eventType).trans (Nat.add_comm _ _)
  skipped := adds.skipped.trans (Nat.add_comm _ _)

/-- A value counts as much in the whole as in its part. -/
theorem Adds.count {whole kept marked : Compliance} (adds : Adds whole kept marked)
    (value : Value) : Adds (whole.count value) (kept.count value) marked := by
  have one_skipped : Adds { whole with skipped := whole.skipped + 1 }
      { kept with skipped := kept.skipped + 1 } marked := by
    refine ⟨adds.total, adds.totalOf, ?_⟩
    dsimp only
    rw [adds.skipped, Nat.add_right_comm]
  unfold Compliance.count
  split
  · split
    · exact adds
    · split
      · exact one_skipped
      · rename_i eventType _ _ who _
        refine ⟨?_, ?_, adds.skipped⟩
        · intro other
          have summed := adds.total other
          unfold Compliance.total at summed ⊢
          rw [getD_bump, getD_bump, summed, Nat.add_right_comm]
        · intro agent other
          have summed := adds.totalOf agent other
          unfold Compliance.totalOf at summed ⊢
          dsimp only
          by_cases same : agent = who
          · subst same
            rw [Dict.get_set, Dict.get_set, Option.getD_some, Option.getD_some, getD_bump,
              getD_bump, summed, Nat.add_right_comm]
          · rw [Dict.get_set_of_ne _ _ same, Dict.get_set_of_ne _ _ same]
            exact summed
  · exact one_skipped

theorem Adds.countLine_left {whole kept marked : Compliance} (line : LogLine)
    (adds : Adds whole kept marked) :
    Adds (whole.countLine query line) (kept.countLine query line) marked := by
  unfold Compliance.countLine
  split
  · exact adds.count _
  · exact adds

end Compliance

/-- `kb_compliance_fn` raises nothing, and whichever lines are taken from what it scans, the
others are counted as they were. -/
def ComplianceTolerates (query : AuditQuery) (lines : List LogLine) : Prop :=
  ∃ report, kbCompliance query lines = .ok report ∧
    ∀ malformed : LogLine → Bool,
      ∃ kept marked, kbCompliance query
          ((query.window lines).filter fun line => !malformed line) = .ok kept ∧
        kbCompliance query ((query.window lines).filter malformed) = .ok marked ∧
          Compliance.Adds report kept marked

theorem complianceTolerates_iff {query : AuditQuery} {lines : List LogLine} :
    ComplianceTolerates query lines ↔ ∀ line ∈ query.window lines, line.bounded = true := by
  constructor
  · rintro ⟨report, answered, -⟩
    by_contra stuck
    rw [kbCompliance, AuditQuery.scan_eq_stream, (Compliance.loop_stream .start).2 stuck] at answered
    cases answered
  · intro good
    have answers : ∀ p : LogLine → Bool, kbCompliance query ((query.window lines).filter p) =
        .ok (((query.window lines).filter p).foldl (Compliance.countLine query) .start) := by
      intro p
      rw [kbCompliance, AuditQuery.scan_eq_stream, AuditQuery.window_filter]
      apply (Compliance.loop_stream .start).1
      intro line member
      exact good line (List.mem_filter.mp member).1
    have answered : kbCompliance query lines =
        .ok ((query.window lines).foldl (Compliance.countLine query) .start) := by
      rw [kbCompliance, AuditQuery.scan_eq_stream]
      exact (Compliance.loop_stream .start).1 good
    refine ⟨_, answered, fun malformed => ⟨_, _, answers _, answers _, ?_⟩⟩
    apply @Select.foldl_splits _ _ (Compliance.countLine query) Compliance.Adds
    · intro whole kept marked line adds
      exact adds.countLine_left line
    · intro whole kept marked line adds
      exact (adds.swap.countLine_left line).swap
    · exact Compliance.Adds.start

/-! ## The consult -/

/-- The files of a log that are UTF-8, and the process that appends to them. -/
structure OpenLog extends AuditFiles where
  /-- `_last_hash`. -/
  lastHash : Value
  running : process = some lastHash
  decodable : splits = false

/-- What a consult is called with.  `ts` is the time as it is written. -/
structure ConsultCall where
  workspace : Text
  intent : Text
  sourceSession : Text
  agentIdentity : Text
  trigger : Text
  now : Time
  ts : Value
  ts_printed : ts.isJson = true
  ttlSeconds : Int
  eventId : Text

/-- A text of an event. -/
def textValue (text : Text) : Value :=
  .str (PyStr.ofText text)

/-- The event that a consult appends. -/
def ConsultCall.event (unicode : Unicode) (classifier : Classifier) (call : ConsultCall) :
    Mapping :=
  let intent := call.intent.take maxConsultIntentChars
  let trigger := if call.trigger = "prompt_hook".toList then call.trigger else "explicit".toList
  let signals := (classifier.classify unicode intent none []).map Signal.text
  Mapping.ofFields
    [("ts", call.ts), ("event_type", textValue "consult".toList),
      ("status", textValue "recorded".toList), ("agent_identity", textValue call.agentIdentity),
      ("source_session", textValue call.sourceSession),
      ("target_path", textValue call.workspace), ("trigger", textValue trigger),
      ("reason", textValue (",".toList.intercalate signals)),
      ("coverage", .list ((classifier.coverage unicode intent).map fun signal =>
        textValue signal.text))]

theorem isJsonAll_map_textValue {α : Type} (text : α → Text) (items : List α) :
    Value.isJsonAll (items.map fun item => textValue (text item)) = true := by
  induction items with
  | nil => rfl
  | cons item rest ih =>
      rw [List.map_cons, Value.isJsonAll, ih, Bool.and_true]
      exact isJson_ofText _

theorem ConsultCall.isJsonEntries_event (unicode : Unicode) (classifier : Classifier)
    (call : ConsultCall) : Value.isJsonEntries (call.event unicode classifier) = true := by
  have text_json : ∀ text : Text, (textValue text).isJson = true := isJson_ofText
  have covered := isJsonAll_map_textValue Signal.text
    (classifier.coverage unicode (call.intent.take maxConsultIntentChars))
  have keys : ∀ first second : String, first ≠ second →
      (Value.str (PyStr.lit first)).isStr (PyStr.lit second) = false := by
    intro first second different
    simpa [Value.isStr] using fun same => different (PyStr.lit_injective same)
  unfold ConsultCall.event Mapping.ofFields
  simp only [List.map_cons, List.map_nil, Value.isJsonEntries, Value.isKey, Value.isJson,
    PyStr.encodable_lit, call.ts_printed, text_json, covered, List.any_cons, List.any_nil]
  simp [keys]

/-- `ConsultResponse`. -/
structure ConsultAnswer (Hit : Type) where
  isGovernedDecision : Bool
  rules : List Hit
  consultedAt : Time
  ttlSeconds : Int
  pendingActions : Option (List Mapping)

/-- The item for demoted writes. -/
def demotedWrites (liveCount : Nat) : Mapping :=
  Mapping.ofFields
    [("kind", textValue "demoted_writes".toList),
      ("message", textValue (intRepr liveCount ++
        (" write(s) in this session are awaiting operator review (governed-lane write " ++
          "protection or low confidence). Surface this to the operator; run `kb pending` / " ++
          "kb_session_recap for details. Act only on operator confirmation.").toList)),
      ("count", .int liveCount)]

/-- The pending actions of a consult.  `pending` are the entries of the queue, if there is one. -/
def pendingActions (maintenance : Option (List Mapping)) (pending : Option (List Mapping))
    (recap : SessionRecap) : Option (List Mapping) :=
  if 0 < recap.demotedToPending then
    let liveCount := match pending with
      | some entries => entries.countP fun entry =>
          (entry.get "source_session").any (Value.isStr (PyStr.ofText recap.sourceSession))
      | none => recap.demotedToPending
    if 0 < liveCount then some (maintenance.getD [] ++ [demotedWrites liveCount]) else maintenance
  else maintenance

/-- What a consult leaves, and what it answers. -/
structure ConsultOutcome (Hit : Type) where
  entries : LedgerEntries
  files : AuditFiles
  answer : Except ReaderError (ConsultAnswer Hit)

section Consult

variable {Hit : Type} (json : JsonModule) (limited : Text → Bool) (config : AuditConfig)
  (unicode : Unicode) (classifier : Classifier) (search : Text → List Hit) (idOf : Hit → Text)

/-- The log with the event of a consult behind it. -/
def OpenLog.appended (log : OpenLog) (call : ConsultCall) : AuditFiles :=
  (log.append json config ⟨call.event unicode classifier,
    call.isJsonEntries_event unicode classifier⟩ call.eventId call.now).getD log.toAuditFiles

/-- `kb_consult_fn(…)` with an audit log. -/
def kbConsultLogged (ledger : LedgerConfig) (entries : LedgerEntries) (log : OpenLog)
    (maintenance pending : Option (List Mapping)) (call : ConsultCall) : ConsultOutcome Hit :=
  let intent := call.intent.take maxConsultIntentChars
  let governed := !(classifier.classify unicode intent none []).isEmpty
  let recorded := recordConsult unicode classifier (fun query => (search query).map idOf) entries
    ledger (call.sourceSession, call.workspace) call.intent call.now call.trigger
  -- The event links to the last hash, which is encoded with it.
  if !log.lastHash.isJson then
    ⟨recorded, (log.refuse config call.now).getD log.toAuditFiles, .error .encode⟩
  else
    let files := log.appended json config unicode classifier call
    { entries := recorded
      files := files
      answer := (kbSessionRecap call.sourceSession (some defaultMaxScanEvents)
        (files.backwards json limited true)).map fun recap => {
          isGovernedDecision := governed
          rules := if governed then search intent else []
          consultedAt := call.now
          ttlSeconds := call.ttlSeconds
          pendingActions := pendingActions maintenance pending recap } }

/-- `kb_consult_fn` raises nothing, and its recap of the session counts what it should. -/
def ConsultTolerates (ledger : LedgerConfig) (entries : LedgerEntries) (log : OpenLog)
    (maintenance pending : Option (List Mapping)) (call : ConsultCall) : Prop :=
  let outcome := kbConsultLogged json limited config unicode classifier search idOf ledger entries
    log maintenance pending call
  (∃ answer, outcome.answer = .ok answer) ∧
    RecapTolerates call.sourceSession (some defaultMaxScanEvents)
      (outcome.files.backwards json limited true)

variable {json limited config unicode classifier search idOf}

theorem consultTolerates_iff {ledger : LedgerConfig} {entries : LedgerEntries} {log : OpenLog}
    {maintenance pending : Option (List Mapping)} {call : ConsultCall} :
    ConsultTolerates json limited config unicode classifier search idOf ledger entries log
        maintenance pending call ↔
      log.lastHash.isJson = true ∧
        ∀ line ∈ (AuditQuery.recap (some defaultMaxScanEvents)).window
          ((log.appended json config unicode classifier call).backwards json limited true),
          line.bounded = true ∧ line.plain = true := by
  unfold ConsultTolerates kbConsultLogged
  cases encodes : log.lastHash.isJson with
  | false =>
      constructor
      · rintro ⟨⟨answer, answered⟩, -⟩
        cases answered
      · rintro ⟨impossible, -⟩
        cases impossible
  | true =>
      dsimp only [Bool.not_true, Bool.false_eq_true, if_false]
      constructor
      · rintro ⟨-, tolerates⟩
        exact ⟨rfl, recapTolerates_iff.mp tolerates⟩
      · rintro ⟨-, good⟩
        have tolerates : RecapTolerates call.sourceSession (some defaultMaxScanEvents)
            ((log.appended json config unicode classifier call).backwards json limited true) :=
          recapTolerates_iff.mpr good
        obtain ⟨recap, counted, -⟩ := id tolerates
        refine ⟨?_, tolerates⟩
        rw [if_neg (show ¬(!true) = true by decide), counted]
        exact ⟨_, rfl⟩

end Consult

/-- The arguments of `kb_audit_fn`. -/
structure AuditCall where
  since : Option (Value → Bool)
  agent : Option PyStr
  status : Option PyStr
  limit : Int

/-- The query of a call. -/
def AuditCall.query (call : AuditCall) : AuditQuery :=
  .audit call.since call.agent call.status call.limit

/-- On a log of any lines, `kb_audit_fn` and `kb_compliance_fn` work exactly if the decoder does
not run into a limit of the interpreter, the recap exactly if moreover no value it scans is
anything but an object, and a consult exactly if it can append its event and the recap behind it
works. -/
theorem readers_tolerate_iff {Event Hit : Type} (validate : Mapping → Option Event)
    (json : JsonModule) (limited : Text → Bool) (config : AuditConfig) (unicode : Unicode)
    (classifier : Classifier) (search : Text → List Hit) (idOf : Hit → Text) (log : OpenLog) :
    (∀ call : AuditCall, let lines := log.backwards json limited call.query.includeRotated
      AuditTolerates validate call.query call.limit lines ↔
        FillsPage validate call.query call.limit 0 (call.query.window lines)) ∧
    (∀ since agent, let query := AuditQuery.compliance since agent
      let lines := log.backwards json limited query.includeRotated
      ComplianceTolerates query lines ↔ ∀ line ∈ query.window lines, line.bounded = true) ∧
    (∀ session limit, let lines := log.backwards json limited true
      RecapTolerates session limit lines ↔ ∀ line ∈ (AuditQuery.recap limit).window lines,
        line.bounded = true ∧ line.plain = true) ∧
    ∀ ledger entries maintenance pending (call : ConsultCall),
      ConsultTolerates json limited config unicode classifier search idOf ledger entries log
          maintenance pending call ↔
        log.lastHash.isJson = true ∧
          ∀ line ∈ (AuditQuery.recap (some defaultMaxScanEvents)).window
            ((log.appended json config unicode classifier call).backwards json limited true),
            line.bounded = true ∧ line.plain = true :=
  ⟨fun _ => auditTolerates_iff, fun _ _ => complianceTolerates_iff, fun _ _ => recapTolerates_iff,
    fun _ _ _ _ _ => consultTolerates_iff⟩

/-- A log with one line, which holds an empty list. -/
def listLog : OpenLog where
  rotated := ∅
  live := some "[]\n".toList
  splits := false
  maxBytes := 0
  process := some (.str genesis)
  entries := []
  lastHash := .str genesis
  running := rfl
  decodable := rfl

/-- The recap ends with an `AttributeError` on a line that is a list. -/
theorem list_line_ends_the_recap :
    kbSessionRecap "s".toList (some defaultMaxScanEvents)
        (listLog.backwards sampleJson (fun _ => false) true) = .error .attribute ∧
      ¬RecapTolerates "s".toList (some defaultMaxScanEvents)
        (listLog.backwards sampleJson (fun _ => false) true) := by
  have lines : listLog.backwards sampleJson (fun _ => false) true = [.value (.list [])] := by rfl
  rw [lines]
  refine ⟨rfl, ?_⟩
  rintro ⟨recap, answered, -⟩
  cases answered

end DataOlympus
