import DataOlympus.Audit.Chain

/-!
# Rotations in the order of time

Appends and restarts in any order keep the events linked, as long as no rotation of an append
that raises gives its segment another than the last name.  The events are read back in the order
in which they were written as long as every rotation gives its segment the last name.
-/

namespace DataOlympus

open Chain Lines Transition

/-- The operations of the log. -/
inductive AuditOp where
  | append (event : Mapping) (eventId : Text) (now : Time)
  | refuse (now : Time)
  | restart (maxBytes : Int)

/-- A live file with records from the time before the chain, or no file. -/
def AuditState.start (legacy : List Value) (maxBytes : Int) : AuditState where
  rotated := ∅
  live := if legacy.isEmpty then none else some (legacy.map .json)
  maxBytes := maxBytes.toNat
  lastHash := .str genesis
  written := []

namespace AuditConfig

variable (config : AuditConfig)

def apply (log : AuditState) : AuditOp → AuditState
  | .append event eventId now => config.append log event eventId now
  | .refuse now => config.refuse log now
  | .restart maxBytes => log.restart maxBytes

/-- One operation of the log. -/
def Step : System AuditState AuditOp :=
  fun source op target => target = config.apply source op

/-- A rotation at this time gives its segment the last name. -/
def RotatesLast (log : AuditState) (now : Time) : Prop :=
  config.rotates log = true →
    ∀ path ∈ log.rotated.keys, nameLe (config.rotatedPathFor log now) path = false

/-- A rotation gives its segment the last name. -/
def Ascends (log : AuditState) : AuditOp → Prop
  | .append _ _ now => config.RotatesLast log now
  | .refuse now => config.RotatesLast log now
  | .restart _ => True

/-- A rotation before an append that raises does. -/
def RefusalAscends (log : AuditState) : AuditOp → Prop
  | .refuse now => config.RotatesLast log now
  | _ => True

instance (log : AuditState) (now : Time) : Decidable (config.RotatesLast log now) :=
  inferInstanceAs (Decidable (config.rotates log = true →
    ∀ path ∈ log.rotated.keys, nameLe (config.rotatedPathFor log now) path = false))

instance (log : AuditState) (op : AuditOp) : Decidable (config.Ascends log op) :=
  match op with
  | .append _ _ now => inferInstanceAs (Decidable (config.RotatesLast log now))
  | .refuse now => inferInstanceAs (Decidable (config.RotatesLast log now))
  | .restart _ => isTrue trivial

variable {config}

/-! ## The name of a segment -/

theorem candidate_injective (stamp : Text) : Function.Injective (config.candidate stamp) := by
  have digits : Function.Injective (Nat.toDigits 10) := by
    intro first second same
    rw [← Nat.ofDigitChars_toDigits (n := first) (by decide) (le_refl 10), same,
      Nat.ofDigitChars_toDigits (by decide) (le_refl 10)]
  intro first second same
  cases first with
  | zero =>
      cases second with
      | zero => rfl
      | succ second =>
          have lengths := congrArg List.length same
          simp [candidate] at lengths
          omega
  | succ first =>
      cases second with
      | zero =>
          have lengths := congrArg List.length same
          simp [candidate] at lengths
          omega
      | succ second =>
          simp only [candidate, List.append_assoc, List.cons_append, List.append_cancel_left_eq,
            List.cons.injEq, true_and, List.append_cancel_right_eq] at same
          exact digits same

theorem candidate_mem_of_firstFree_mem {stamp : Text} {taken : List Text} {fuel n : Nat}
    (busy : config.firstFree stamp taken fuel n ∈ taken) (more : Nat) (within : more ≤ fuel) :
    config.candidate stamp (n + more) ∈ taken := by
  induction fuel generalizing n more with
  | zero =>
      cases Nat.le_zero.mp within
      exact busy
  | succ fuel ih =>
      rw [firstFree] at busy
      split at busy
      · rename_i here
        cases more with
        | zero => exact here
        | succ more =>
            rw [← Nat.add_assoc, Nat.add_right_comm]
            exact ih busy more (Nat.le_of_succ_le_succ within)
      · rename_i free
        exact absurd busy free

/-- Among as many candidates as there are names, one is free. -/
theorem firstFree_not_mem (stamp : Text) (taken : List Text) :
    config.firstFree stamp taken taken.length 0 ∉ taken := by
  intro busy
  let names := (List.range (taken.length + 1)).map (config.candidate stamp)
  have once : names.Nodup := (List.nodup_range).map (candidate_injective stamp)
  have all : names ⊆ taken := by
    intro name member
    obtain ⟨more, within, rfl⟩ := List.mem_map.mp member
    have here := candidate_mem_of_firstFree_mem busy more
      (Nat.le_of_lt_succ (List.mem_range.mp within))
    rwa [Nat.zero_add] at here
  have many := once.length_le_of_subset all
  simp only [names, List.length_map, List.length_range] at many
  exact absurd many (Nat.not_succ_le_self _)

/-- A rotation never takes the name of another segment. -/
theorem rotatedPathFor_not_mem (log : AuditState) (now : Time) :
    config.rotatedPathFor log now ∉ log.rotated.keys :=
  firstFree_not_mem _ _

theorem firstFree_eq_candidate (stamp : Text) (taken : List Text) (fuel n : Nat) :
    ∃ m, config.firstFree stamp taken fuel n = config.candidate stamp m := by
  induction fuel generalizing n with
  | zero => exact ⟨n, rfl⟩
  | succ fuel ih =>
      rw [firstFree]
      split
      · exact ih (n + 1)
      · exact ⟨n, rfl⟩

/-- Behind stamps of one width, the names are in the order of the stamps. -/
theorem candidate_behind {earlier later : Text} (width : later.length = earlier.length)
    (after : nameLe later earlier = false) (m n : Nat) :
    nameLe (config.candidate later m) (config.candidate earlier n) = false := by
  have split : ∀ stamp k, ∃ rest, config.candidate stamp k =
      (config.stem ++ ['-']) ++ (stamp ++ rest) := by
    intro stamp k
    cases k with
    | zero => exact ⟨config.suffix, by simp [candidate]⟩
    | succ k => exact ⟨'-' :: Nat.toDigits 10 (k + 1) ++ config.suffix, by simp [candidate]⟩
  obtain ⟨laterRest, later_eq⟩ := split later m
  obtain ⟨earlierRest, earlier_eq⟩ := split earlier n
  rw [later_eq, earlier_eq, nameLe_append_left]
  exact nameLe_append_of_length_eq width after _ _

/-- A rotation ascends when its stamp is later than those of all segments. -/
theorem rotatesLast_of_later_stamp {log : AuditState} {now : Time}
    (later : ∀ path ∈ log.rotated.keys, ∃ stamp n,
      path = config.candidate stamp n ∧ now.stamp.length = stamp.length ∧
        nameLe now.stamp stamp = false) :
    config.RotatesLast log now := by
  intro _ path member
  obtain ⟨stamp, n, rfl, width, after⟩ := later path member
  obtain ⟨m, name_eq⟩ : ∃ m, config.rotatedPathFor log now = config.candidate now.stamp m :=
    firstFree_eq_candidate _ _ _ _
  rw [name_eq]
  exact candidate_behind width after m n

/-! ## What an append writes -/

section Chained

variable (last : Value) (event : Mapping) (eventId : Text)

theorem unsigned_chained : (config.chained last event eventId).unsigned =
    ((event.set "event_id" (.str (PyStr.ofText eventId))).set "prev_hash" last).unsigned :=
  Mapping.without_set _ _ _

theorem signed_chained : config.Signed (config.chained last event eventId) := by
  unfold Signed Mapping.ownHash
  rw [unsigned_chained, chained, Mapping.get_set]

theorem prevHash_chained : (config.chained last event eventId).prevHash = some last := by
  unfold Mapping.prevHash
  rw [chained, Mapping.get_set_of_ne (by decide), Mapping.get_set]

end Chained

/-- A signed event has a hash. -/
theorem Signed.truthy {event : Mapping} (signed : config.Signed event)
    (nonempty : ∀ body, config.digest body ≠ []) : event.ownHash.any Value.truthy = true := by
  rw [Signed] at signed
  rw [signed]
  simp [Value.truthy, PyStr.ofText_eq_nil_iff, nonempty]

theorem Signed.hashedEvent {event : Mapping} (signed : config.Signed event)
    (nonempty : ∀ body, config.digest body ≠ []) :
    (Value.dict event).hashedEvent = some event :=
  Value.hashedEvent_eq_some_iff.mpr ⟨rfl, signed.truthy nonempty⟩

theorem loadLastHash_concat {lines : List AuditLine} {event : Mapping} {hash last : Value}
    (hashed : (Value.dict event).hashedEvent = some event)
    (own : event.ownHash = some hash) :
    loadLastHash last (lines ++ [.json (.dict event)]) = hash := by
  induction lines generalizing last with
  | nil =>
      simp only [List.nil_append, loadLastHash, hashed]
      rw [show event.get "hash" = some hash from own]
      rfl
  | cons line rest ih =>
      rw [List.cons_append]
      cases line with
      | json value =>
          rw [loadLastHash]
          cases value.hashedEvent <;> exact ih
      | _ => exact ih

theorem lines_append (log : AuditState) (event : Mapping) (eventId : Text) (now : Time) :
    (config.append log event eventId now).lines = (config.maybeRotate log now).lines ++
      [.json (.dict (config.chained log.lastHash event eventId))] := by
  simp [append, AuditState.lines, AuditState.rotatedPaths]

/-- A rotation writes no event. -/
theorem written_maybeRotate (log : AuditState) (now : Time) :
    (config.maybeRotate log now).written = log.written := by
  unfold maybeRotate
  split <;> rfl

theorem lastHash_maybeRotate (log : AuditState) (now : Time) :
    (config.maybeRotate log now).lastHash = log.lastHash := by
  unfold maybeRotate
  split <;> rfl

/-- A segment with the last name is read last. -/
theorem flatMap_insert_last {β γ : Type} (segments : AList fun _ : Text => β)
    (read : Option β → List γ) {path : Text} (content : β) (fresh : path ∉ segments.keys)
    (last : ∀ other ∈ segments.keys, nameLe path other = false) :
    (sortedNames (segments.insert path content).keys).flatMap
        (fun other => read ((segments.insert path content).lookup other)) =
      (sortedNames segments.keys).flatMap (fun other => read (segments.lookup other)) ++
        read (some content) := by
  have keys : (segments.insert path content).keys = path :: segments.keys := by
    rw [AList.insert_of_notMem (mt AList.mem_keys.mp fresh)]
    rfl
  have kept : ∀ other ∈ sortedNames segments.keys,
      read ((segments.insert path content).lookup other) = read (segments.lookup other) := by
    intro other member
    rw [AList.lookup_insert_ne]
    rintro rfl
    exact fresh (mem_sortedNames.mp member)
  rw [keys, sortedNames_cons_of_last last, List.flatMap_append, List.flatMap_congr kept]
  simp

/-- A rotation that gives its segment the last name moves no line. -/
theorem lines_maybeRotate {log : AuditState} {now : Time}
    (ascends : config.RotatesLast log now) : (config.maybeRotate log now).lines = log.lines := by
  unfold maybeRotate
  split
  · rename_i rotates
    have inserted := flatMap_insert_last log.rotated (fun segment => segment.getD [])
      (log.live.getD []) (rotatedPathFor_not_mem log now) (ascends rotates)
    simp only [AuditState.lines, AuditState.rotatedPaths]
    rw [inserted]
    simp
  · rfl

/-! ## Runs -/

/-- The written events are linked, and both the running process and a new one continue
the chain. -/
structure Sound (log : AuditState) : Prop where
  intact : config.Intact genesis log.written
  last : some log.lastHash = Chain.lastHash Mapping.ownHash (some (.str genesis)) log.written
  reload : loadLastHash (.str genesis) log.lines = log.lastHash

theorem lines_start (legacy : List Value) (maxBytes : Int) :
    (AuditState.start legacy maxBytes).lines = legacy.map .json := by
  cases legacy <;> rfl

/-- Records without a hash load no hash. -/
theorem loadLastHash_legacy {legacy : List Value}
    (unhashed : ∀ value ∈ legacy, value.hashedEvent = none) (last : Value) :
    loadLastHash last (legacy.map .json) = last := by
  induction legacy with
  | nil => rfl
  | cons value rest ih =>
      rw [List.map_cons, loadLastHash, unhashed value List.mem_cons_self]
      exact ih fun other member => unhashed other (List.mem_cons_of_mem _ member)

namespace Sound

variable {log : AuditState}

theorem start {legacy : List Value} (unhashed : ∀ value ∈ legacy, value.hashedEvent = none)
    (maxBytes : Int) : config.Sound (.start legacy maxBytes) := by
  refine ⟨⟨.nil _, nofun⟩, rfl, ?_⟩
  rw [lines_start]
  exact loadLastHash_legacy unhashed _

theorem append (sound : config.Sound log) (nonempty : ∀ body, config.digest body ≠ [])
    (event : Mapping) (eventId : Text) (now : Time) :
    config.Sound (config.append log event eventId now) := by
  let record := config.chained log.lastHash event eventId
  have signed : config.Signed record := signed_chained log.lastHash event eventId
  have names : record.prevHash = Chain.lastHash Mapping.ownHash (some (.str genesis))
      log.written := by
    rw [← sound.last]
    exact prevHash_chained log.lastHash event eventId
  have lastHash_eq : some (config.append log event eventId now).lastHash = record.ownHash := by
    rw [signed]
    change some ((record.ownHash).getD .null) = _
    rw [signed]
    rfl
  refine ⟨⟨sound.intact.linked.concat names, ?_⟩, ?_, ?_⟩
  · intro other member
    obtain before | now := List.mem_append.mp member
    · exact sound.intact.signed other before
    · cases List.mem_singleton.mp now
      exact signed
  · rw [lastHash_eq]
    exact (Chain.lastHash_concat _ _ _).symm
  · rw [lines_append]
    exact loadLastHash_concat (signed.hashedEvent nonempty) lastHash_eq.symm

/-- Behind a rotation that moves no line a new process continues the chain as well. -/
theorem refuse (sound : config.Sound log) {now : Time} (ascends : config.RotatesLast log now) :
    config.Sound (config.refuse log now) := by
  unfold AuditConfig.refuse
  refine ⟨?_, ?_, ?_⟩
  · rw [written_maybeRotate]
    exact sound.intact
  · rw [written_maybeRotate, lastHash_maybeRotate]
    exact sound.last
  · rw [lastHash_maybeRotate, lines_maybeRotate ascends]
    exact sound.reload

theorem restart (sound : config.Sound log) (maxBytes : Int) :
    config.Sound (log.restart maxBytes) := by
  refine ⟨sound.intact, ?_, rfl⟩
  rw [AuditState.restart, sound.reload]
  exact sound.last

end Sound

theorem Step.sound (nonempty : ∀ body, config.digest body ≠ []) :
    (System.restrict config.Step config.RefusalAscends).Preserves config.Sound := by
  rintro source op target ⟨ascends, rfl⟩ sound
  cases op with
  | append event eventId now => exact sound.append nonempty event eventId now
  | refuse now => exact sound.refuse ascends
  | restart maxBytes => exact sound.restart maxBytes

theorem Ascends.refusalAscends {log : AuditState} {op : AuditOp}
    (ascends : config.Ascends log op) : config.RefusalAscends log op := by
  cases op with
  | refuse now => exact ascends
  | _ => exact trivial

/-- The log reads as the earlier records and then the events in the order in which they
were written. -/
def InOrder (legacy : List Value) (log : AuditState) : Prop :=
  log.lines = legacy.map .json ++ log.written.map fun event => .json (.dict event)

theorem Step.inOrder (legacy : List Value) :
    (System.restrict config.Step config.Ascends).Preserves (InOrder legacy) := by
  rintro source op target ⟨ascends, rfl⟩ inOrder
  cases op with
  | append event eventId now =>
      unfold InOrder
      rw [apply, lines_append, lines_maybeRotate ascends, inOrder, List.append_assoc]
      simp [append]
  | refuse now =>
      unfold InOrder
      rw [apply, refuse, written_maybeRotate, lines_maybeRotate ascends, inOrder]
  | restart maxBytes => exact inOrder

theorem records_legacy (legacy : List Value) : records (legacy.map .json) = legacy := by
  simp [records, List.filterMap_map, AuditLine.value, Function.comp_def]

theorem records_events (events : List Mapping) :
    records (events.map fun event => .json (.dict event)) = events.map .dict := by
  simp [records, List.filterMap_map, AuditLine.value, Function.comp_def]

/-- Lines in order verify. -/
theorem verify_of_inOrder {legacy : List Value} {log : AuditState}
    (nonempty : ∀ body, config.digest body ≠ [])
    (unhashed : ∀ value ∈ legacy, value.hashedEvent = none) (sound : config.Sound log)
    (inOrder : InOrder legacy log) : config.verify log = (true, -1) := by
  rw [verify, inOrder]
  apply verifyLines_ok_iff.mpr
  refine ⟨legacy, log.written, ?_, ?_, unhashed, nofun, ?_, sound.intact⟩
  · simp
  · rw [records_append, records_legacy, records_events]
  · intro event member
    exact (sound.intact.signed event member).truthy nonempty

/-- In every run whose rotations each give their segment the last name, the log
verifies. -/
theorem ascending_rotations_verify {legacy : List Value} {maxBytes : Int}
    {ops : List AuditOp} {log : AuditState} (nonempty : ∀ body, config.digest body ≠ [])
    (unhashed : ∀ value ∈ legacy, value.hashedEvent = none)
    (run : Run (System.restrict config.Step config.Ascends) (.start legacy maxBytes) ops log) :
    config.verify log = (true, -1) := by
  have sound := Run.invariant (Step.sound nonempty)
    (run.restrict_mono fun _ _ => Ascends.refusalAscends) (.start unhashed maxBytes)
  have inOrder : InOrder legacy log := by
    apply Run.invariant (Step.inOrder legacy) run
    rw [InOrder, lines_start]
    exact (List.append_nil _).symm
  exact verify_of_inOrder nonempty unhashed sound inOrder

end AuditConfig

/-! ## Two rotations -/

/-- A log at `audit.jsonl` whose digests are the event ids behind a letter. -/
def sampleConfig : AuditConfig where
  stem := "audit".toList
  suffix := ".jsonl".toList
  digest body := 'h' :: match body.get "event_id" with
    | some (.str id) => id.filterMap fun
      | .scalar c => some c
      | .surrogate _ => none
    | _ => []
  bytes _ := 1

/-- Midnight of the first of January 2026. -/
def newYear : Time :=
  1767225600 * Time.second

/-- Three appends under a limit of one byte; the last two rotate. -/
def threeAppends (first second : Time) : List AuditOp :=
  [.append [] "1".toList first, .append [] "2".toList first, .append [] "3".toList second]

/-- The log after them. -/
def rotatedTwice (first second : Time) : AuditState :=
  (threeAppends first second).foldl sampleConfig.apply (.start [] 1)

theorem run_rotatedTwice (first second : Time) :
    Run sampleConfig.Step (.start [] 1) (threeAppends first second)
      (rotatedTwice first second) :=
  Run.tail (Run.tail (Run.single rfl) rfl) rfl

/-- Two rotations at one reading of the clock, and a rotation after the clock went back by a
second, leave a log that its own verification rejects at the first line. -/
theorem disordered_rotations_fail_verification :
    (∃ ops log, Run sampleConfig.Step (.start [] 1) ops log ∧
      ops = threeAppends newYear newYear ∧ sampleConfig.verify log = (false, 0)) ∧
    ∃ ops log, Run sampleConfig.Step (.start [] 1) ops log ∧
      ops = threeAppends newYear (newYear - Time.second) ∧ sampleConfig.verify log = (false, 0) :=
  ⟨⟨_, _, run_rotatedTwice _ _, rfl, by decide⟩, ⟨_, _, run_rotatedTwice _ _, rfl, by decide⟩⟩

/-- Rotations one second after the other verify. -/
theorem later_rotation_verifies :
    sampleConfig.verify (rotatedTwice newYear (newYear + Time.second)) = (true, -1) := by
  have ascending : Run (System.restrict sampleConfig.Step sampleConfig.Ascends)
      (.start [] 1) (threeAppends newYear (newYear + Time.second))
      (rotatedTwice newYear (newYear + Time.second)) :=
    Run.tail (Run.tail (Run.single ⟨by decide, rfl⟩) ⟨by decide, rfl⟩) ⟨by decide, rfl⟩
  exact AuditConfig.ascending_rotations_verify (fun _ => List.cons_ne_nil _ _)
    (List.forall_mem_nil _) ascending

end DataOlympus
