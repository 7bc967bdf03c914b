import DataOlympus.Audit.Files

/-!
# Queries for recent events

Emitters stamp their events before they wait for the lock of the log, so the order of the
appends need not be that of the stamps.  A query reads the log backwards and ends at the first
event that is too old.
-/

namespace DataOlympus

open Lines Transition

/-! ## The query -/

/-- A query for the events from some time on. -/
def AuditQuery.sinceBound (before : Value → Bool) : AuditQuery where
  since := some before
  agent := none
  status := none
  includeRotated := true
  maxScanEvents := none

/-- `iter_filtered(…)`, which lists the rotated segments before it reads the live file. -/
def AuditState.iterFiltered (query : AuditQuery) (listed log : AuditState) : List Value :=
  let rotated := if query.includeRotated then
    listed.rotatedPaths.reverse.flatMap fun path => ((log.rotated.lookup path).getD []).reverse
  else []
  query.iterLines 0 ((log.live.getD []).reverse ++ rotated)

/-- The time of an event, if it is a number. -/
def Value.eventTime : Value → Option Value
  | .dict event => some ((Mapping.get event "ts").getD (.int 0)) |>.filter Value.isReal
  | _ => none

/-- An event that is too old. -/
def Value.older (before : Value → Bool) (event : Value) : Bool :=
  event.eventTime.any before

/-- An event from the bound on. -/
def Value.recent (before : Value → Bool) (event : Value) : Bool :=
  event.eventTime.any fun ts => !before ts

theorem AuditQuery.examine_sinceBound (before : Value → Bool) (event : Value) :
    (AuditQuery.sinceBound before).examine event =
      if event.older before then .stops else if event.recent before then .yields else .passes := by
  cases event with
  | dict entries =>
      unfold examine Value.older Value.recent Value.eventTime sinceBound
      dsimp only
      cases real : ((Mapping.get entries "ts").getD (.int 0)).isReal with
      | false => simp [Option.filter, real]
      | true =>
          cases early : before ((Mapping.get entries "ts").getD (.int 0)) <;>
            simp [Option.filter, real, early, select]
  | _ => rfl

/-- The scan takes the recent events up to the first that is too old. -/
theorem AuditQuery.iterLines_sinceBound (before : Value → Bool) (scanned : Nat)
    (lines : List AuditLine) : (AuditQuery.sinceBound before).iterLines scanned lines =
      ((records lines).takeWhile fun event => !event.older before).filter
        (Value.recent before) := by
  induction lines generalizing scanned with
  | nil => rfl
  | cons line rest ih =>
      have unlimited : ((sinceBound before).maxScanEvents.any fun limit =>
          limit ≤ (scanned : Int)) = false := rfl
      unfold iterLines
      rw [unlimited, if_neg Bool.false_ne_true]
      cases line with
      | blank => exact ih scanned
      | malformed => exact ih (scanned + 1)
      | json value =>
          have read : records (.json value :: rest) = value :: records rest := rfl
          rw [read]
          dsimp only
          rw [examine_sinceBound]
          cases old : value.older before with
          | true => simp [old]
          | false =>
              cases new : value.recent before with
              | true => simp [old, new, ih (scanned + 1)]
              | false => simp [old, new, ih (scanned + 1)]

/-- Reading the segments backwards is reading the lines backwards. -/
theorem AuditState.iterFiltered_sinceBound (before : Value → Bool) {listed log : AuditState}
    (unrotated : log.rotated = listed.rotated) :
    iterFiltered (.sinceBound before) listed log =
      ((records log.lines).reverse.takeWhile fun event => !event.older before).filter
        (Value.recent before) := by
  have backwards : (log.live.getD []).reverse ++ (listed.rotatedPaths.reverse.flatMap fun path =>
      ((log.rotated.lookup path).getD []).reverse) = log.lines.reverse := by
    unfold lines rotatedPaths
    rw [← unrotated, List.reverse_append, List.reverse_flatMap]
    rfl
  have everything : (AuditQuery.sinceBound before).includeRotated = true := rfl
  unfold iterFiltered
  dsimp only
  rw [everything, if_pos rfl, backwards, AuditQuery.iterLines_sinceBound, records,
    List.filterMap_reverse]
  rfl

/-- A scan up to the first stop misses nothing if nothing is behind a stop. -/
theorem filter_takeWhile_eq_iff {α : Type} {goes takes : α → Bool} {items : List α}
    (apart : ∀ item, goes item = false → takes item = false) :
    (items.takeWhile goes).filter takes = items.filter takes ↔
      items.Pairwise fun first second => goes first = false → takes second = false := by
  induction items with
  | nil => simp
  | cons head tail ih =>
      rw [List.pairwise_cons, ← ih]
      cases going : goes head with
      | true =>
          rw [List.takeWhile_cons_of_pos going, List.filter_cons, List.filter_cons]
          split <;> simp
      | false =>
          rw [List.takeWhile_cons_of_neg (by simp [going]), List.filter_nil,
            List.filter_cons_of_neg (by simp [apart head going]), eq_comm,
            List.filter_eq_nil_iff]
          constructor
          · intro none
            refine ⟨fun item member _ => Bool.eq_false_iff.mpr (none item member), ?_⟩
            rw [ih]
            apply List.pairwise_of_forall_mem_list
            intro first _ second member _
            exact Bool.eq_false_iff.mpr (none second member)
          · rintro ⟨behind, -⟩ item member takes
            rw [behind item member rfl] at takes
            cases takes

/-- The query yields every recent event, the last one first. -/
def AuditState.SinceComplete (before : Value → Bool) (listed log : AuditState) : Prop :=
  iterFiltered (.sinceBound before) listed log =
    (records log.lines).reverse.filter (Value.recent before)

/-- No event that is too old stands behind a recent one. -/
def AuditState.OldFirst (before : Value → Bool) (events : List Value) : Prop :=
  events.Pairwise fun first second => first.recent before = true → second.older before = false

theorem AuditState.sinceComplete_iff {before : Value → Bool} {listed log : AuditState}
    (unrotated : log.rotated = listed.rotated) :
    SinceComplete before listed log ↔ OldFirst before (records log.lines) := by
  have apart : ∀ event : Value, (!event.older before) = false → event.recent before = false := by
    intro event old
    unfold Value.older at old
    unfold Value.recent
    cases ts : event.eventTime with
    | none => rfl
    | some time => simpa [ts] using old
  rw [SinceComplete, iterFiltered_sinceBound before unrotated, filter_takeWhile_eq_iff apart,
    List.pairwise_reverse, OldFirst]
  refine ⟨fun ordered => ordered.imp ?_, fun ordered => ordered.imp ?_⟩
  · intro first second only recent
    by_contra old
    rw [Bool.not_eq_false] at old
    rw [only (by rw [old]; rfl)] at recent
    cases recent
  · intro first second only old
    by_contra recent
    rw [Bool.not_eq_false] at recent
    rw [only recent] at old
    cases old

/-! ## The emitters -/

/-- The events that are stamped but not yet written, and the log. -/
structure Emitters where
  waiting : List Mapping
  log : AuditState

/-- A step of an emitter, with what the clock says, or a restart of the process. -/
inductive EmitOp where
  | stamp (event : Mapping) (now : Time)
  | append (event : Mapping) (eventId : Text) (now : Time)
  | restart (maxBytes : Int)

namespace Emitters

/-- The emitters before they start. -/
def start (legacy : List Value) (maxBytes : Int) : Emitters :=
  ⟨[], .start legacy maxBytes⟩

/-- An emitter stamps its event, and later takes the lock and appends it. -/
inductive Step (config : AuditConfig) (stampOf : Time → Value) : System Emitters EmitOp
  | stamp {source : Emitters} (event : Mapping) (now : Time) :
      Step config stampOf source (.stamp event now)
        ⟨source.waiting ++ [event.set "ts" (stampOf now)], source.log⟩
  | append {source : Emitters} {first rest : List Mapping} {event : Mapping} (eventId : Text)
      (now : Time) (waits : source.waiting = first ++ event :: rest) :
      Step config stampOf source (.append event eventId now)
        ⟨first ++ rest, config.append source.log event eventId now⟩
  | restart {source : Emitters} (maxBytes : Int) :
      Step config stampOf source (.restart maxBytes)
        { source with log := source.log.restart maxBytes }

end Emitters

/-! ## Their runs -/

/-- A line of the log is in one of its segments or in the live file. -/
theorem AuditState.mem_lines_iff {log : AuditState} {line : AuditLine} :
    line ∈ log.lines ↔
      (∃ path segment, log.rotated.lookup path = some segment ∧ line ∈ segment) ∨
        line ∈ log.live.getD [] := by
  rw [lines, List.mem_append, List.mem_flatMap]
  refine or_congr_left ⟨?_, ?_⟩
  · rintro ⟨path, -, member⟩
    cases read : log.rotated.lookup path with
    | none =>
        rw [read] at member
        cases member
    | some segment =>
        rw [read] at member
        exact ⟨path, segment, read, member⟩
  · rintro ⟨path, segment, read, member⟩
    have key : path ∈ log.rotated.keys := by
      rw [← AList.mem_keys, ← AList.lookup_isSome, read]
      rfl
    refine ⟨path, mem_sortedNames.mpr key, ?_⟩
    rw [read]
    exact member

namespace AuditConfig

variable {config : AuditConfig}

/-- A rotation loses no line. -/
theorem mem_lines_maybeRotate {log : AuditState} {line : AuditLine} (now : Time)
    (member : line ∈ log.lines) : line ∈ (config.maybeRotate log now).lines := by
  unfold maybeRotate
  split
  · rw [AuditState.mem_lines_iff] at member ⊢
    left
    obtain ⟨path, segment, read, inside⟩ | live := member
    · refine ⟨path, segment, ?_, inside⟩
      rw [AList.lookup_insert_ne]
      · exact read
      · rintro rfl
        apply rotatedPathFor_not_mem log now
        rw [← AList.mem_keys, ← AList.lookup_isSome, read]
        rfl
    · exact ⟨_, _, AList.lookup_insert _, live⟩
  · exact member

/-- Every event that was written is in the log. -/
def Keeps (log : AuditState) : Prop :=
  ∀ event ∈ log.written, .json (.dict event) ∈ log.lines

theorem Keeps.append {log : AuditState} (keeps : Keeps log) (event : Mapping) (eventId : Text)
    (now : Time) : Keeps (config.append log event eventId now) := by
  intro other member
  rw [lines_append]
  obtain earlier | last := List.mem_append.mp member
  · exact List.mem_append_left _ (mem_lines_maybeRotate now (keeps other earlier))
  · rw [List.mem_singleton.mp last]
    exact List.mem_append_right _ (List.mem_singleton_self _)

end AuditConfig

theorem Emitters.Step.keeps {config : AuditConfig} {stampOf : Time → Value} :
    (Emitters.Step config stampOf).Preserves fun state => AuditConfig.Keeps state.log := by
  intro source op target step keeps
  cases step with
  | stamp event now => exact keeps
  | append eventId now waits => exact keeps.append _ _ _
  | restart maxBytes => exact keeps

/-- An event of a line is among the values that are read. -/
theorem mem_records {lines : List AuditLine} {value : Value} (member : .json value ∈ lines) :
    value ∈ records lines :=
  List.mem_filterMap.mpr ⟨_, member, rfl⟩

/-- Once the emitters have done anything, every event they wrote is in the log, and a query
that no rotation cuts into yields every recent event exactly if no event that is too old
stands behind a recent one. -/
theorem since_query_is_complete_iff_old_first {config : AuditConfig} {stampOf : Time → Value}
    {legacy : List Value} {maxBytes : Int} {ops : List EmitOp} {state : Emitters}
    (run : Run (Emitters.Step config stampOf) (.start legacy maxBytes) ops state) :
    (∀ event ∈ state.log.written, .dict event ∈ records state.log.lines) ∧
      ∀ (before : Value → Bool) (listed : AuditState), state.log.rotated = listed.rotated →
        (AuditState.SinceComplete before listed state.log ↔
          AuditState.OldFirst before (records state.log.lines)) := by
  have keeps := Run.invariant Emitters.Step.keeps run (fun _ member => by cases member)
  exact ⟨fun event member => mem_records (keeps event member),
    fun before listed => AuditState.sinceComplete_iff⟩

/-- The numbers before a bound. -/
def earlierThan (bound : Int) : Value → Bool
  | .int n => n < bound
  | _ => false

/-- An event with nothing but its stamp. -/
def stampedAt (ts : Int) : Mapping :=
  Mapping.set [] "ts" (.int ts)

/-- The event of the first emitter is stamped before that of the second and appended behind
it; the clock does not go back. -/
def lateAppend : List EmitOp :=
  [.stamp [] 1, .stamp [] 2, .append (stampedAt 2) "b".toList 2,
    .append (stampedAt 1) "a".toList 2]

/-- The log of the two emitters. -/
def lateLog : AuditState :=
  sampleConfig.append (sampleConfig.append (.start [] 0) (stampedAt 2) "b".toList 2)
    (stampedAt 1) "a".toList 2

theorem run_lateAppend :
    Run (Emitters.Step sampleConfig .int) (.start [] 0) lateAppend ⟨[], lateLog⟩ := by
  have stamped : Run (Emitters.Step sampleConfig .int) (.start [] 0) [.stamp [] 1, .stamp [] 2]
      ⟨[stampedAt 1, stampedAt 2], .start [] 0⟩ :=
    Run.tail (Run.single (.stamp [] 1)) (.stamp [] 2)
  let ahead := sampleConfig.append (.start [] 0) (stampedAt 2) "b".toList 2
  have second : Emitters.Step sampleConfig .int ⟨[stampedAt 1, stampedAt 2], .start [] 0⟩
      (.append (stampedAt 2) "b".toList 2) ⟨[stampedAt 1] ++ [], ahead⟩ :=
    .append "b".toList 2 rfl
  have first : Emitters.Step sampleConfig .int ⟨[stampedAt 1], ahead⟩
      (.append (stampedAt 1) "a".toList 2) ⟨[] ++ [], lateLog⟩ :=
    .append "a".toList 2 rfl
  exact Run.tail (Run.tail stamped second) first

/-- A query from the second stamp on does not find the event with the second stamp. -/
theorem late_append_hides_a_recent_event :
    ∃ state, Run (Emitters.Step sampleConfig .int) (.start [] 0) lateAppend state ∧
      (∃ event ∈ state.log.written, (Value.dict event).recent (earlierThan 2) = true) ∧
      AuditState.iterFiltered (.sinceBound (earlierThan 2)) state.log state.log = [] := by
  refine ⟨_, run_lateAppend, ⟨_, List.mem_cons_self, by decide⟩, ?_⟩
  rw [AuditState.iterFiltered_sinceBound (earlierThan 2) rfl]
  decide

/-- A query from the first stamp on finds both events. -/
theorem earlier_bound_is_complete :
    (∀ event ∈ lateLog.written, .dict event ∈ records lateLog.lines) ∧
      AuditState.SinceComplete (earlierThan 1) lateLog lateLog := by
  obtain ⟨kept, complete⟩ := since_query_is_complete_iff_old_first run_lateAppend
  refine ⟨kept, (complete (earlierThan 1) lateLog rfl).mpr ?_⟩
  unfold AuditState.OldFirst
  decide

end DataOlympus
