import DataOlympus.Audit.Rotation

/-!
# What verification detects

An attacker rewrites the files of a log but computes no digest.  Verification then accepts
exactly the files that read as any records without a hash, followed by a lineage of the events
that were written: the end of the log may be cut off, and the records before the chain may be
exchanged.  The lineages are the first parts of the log, unless an append that raised moved the
last event in front of an earlier one, so that a restart continued the chain from there.
-/

namespace DataOlympus

open Chain Lines Transition

/-- Two JSON objects are equal, in whatever order their keys stand. -/
def SameEvent (first second : Mapping) : Prop :=
  ∀ key, first.get key = second.get key

/-- Two JSON values are equal. -/
def SameRecord (first second : Value) : Prop :=
  first = second ∨ ∃ event other, first = .dict event ∧ second = .dict other ∧
    SameEvent event other

/-- The JSON objects among the lines. -/
def eventsOf (lines : List AuditLine) : List Mapping :=
  (records lines).filterMap fun
    | .dict event => some event
    | _ => none

/-- Reading the altered files gives what was written. -/
def ReadsAs (legacy : List Value) (written : List Mapping) (altered : List AuditLine) : Prop :=
  List.Forall₂ SameRecord (legacy ++ written.map .dict) (records altered)

/-- Every hash in the altered files was in the log. -/
def Reuses (written : List Mapping) (altered : List AuditLine) : Prop :=
  ∀ event ∈ eventsOf altered, event.ownHash.any Value.truthy = true →
    ∃ old ∈ written, old.ownHash = event.ownHash

/-- Written events of which the first names no event, and each other one the one before it. -/
structure Lineage (written lineage : List Mapping) : Prop where
  among : ∀ event ∈ lineage, event ∈ written
  linked : Linked Mapping.prevHash Mapping.ownHash (some (.str genesis)) lineage

/-- The altered files read as records without a hash and a lineage of the events, but not as the
log that was written. -/
structure Curtailed (legacy : List Value) (written : List Mapping)
    (altered : List AuditLine) : Prop where
  differs : ¬ReadsAs legacy written altered
  wellFormed : .malformed ∉ altered
  reads : ∃ other kept, records altered = other ++ kept.map .dict ∧
    (∀ value ∈ other, value.hashedEvent = none) ∧
    ∃ lineage, Lineage written lineage ∧ List.Forall₂ SameEvent lineage kept

theorem SameEvent.refl (event : Mapping) : SameEvent event event :=
  fun _ => rfl

theorem SameEvent.prevHash_eq {first second : Mapping} (same : SameEvent first second) :
    first.prevHash = second.prevHash :=
  same "prev_hash"

theorem SameEvent.ownHash_eq {first second : Mapping} (same : SameEvent first second) :
    first.ownHash = second.ownHash :=
  same "hash"

/-- Events are equal when their hashes and their bodies are. -/
theorem sameEvent_iff {first second : Mapping} : SameEvent first second ↔
    first.ownHash = second.ownHash ∧ SameEvent first.unsigned second.unsigned := by
  have body : ∀ (event : Mapping) {key : String}, key ≠ "hash" →
      event.unsigned.get key = event.get key := fun event key different =>
    Mapping.get_without_of_ne (PyStr.lit_injective.ne different) event
  constructor
  · intro same
    refine ⟨same.ownHash_eq, ?_⟩
    intro key
    by_cases own : key = "hash"
    · subst key
      exact (Mapping.get_without _ _).trans (Mapping.get_without _ _).symm
    · rw [body _ own, body _ own]
      exact same key
  · rintro ⟨hashes, bodies⟩ key
    by_cases own : key = "hash"
    · subst key
      exact hashes
    · rw [← body first own, ← body second own]
      exact bodies key

theorem mem_eventsOf {lines : List AuditLine} {event : Mapping} :
    event ∈ eventsOf lines ↔ .dict event ∈ records lines := by
  unfold eventsOf
  rw [List.mem_filterMap]
  constructor
  · rintro ⟨value, member, found⟩
    cases value with
    | dict entries =>
        cases found
        exact member
    | _ => cases found
  · intro member
    exact ⟨.dict event, member, rfl⟩

namespace AuditConfig

variable (config : AuditConfig)

/-- Different bodies among the events have different digests. -/
def CollisionFree (events : List Mapping) : Prop :=
  ∀ first ∈ events, ∀ second ∈ events,
    config.digest first.unsigned = config.digest second.unsigned →
      SameEvent first.unsigned second.unsigned

variable {config}

/-- Signed events with one hash are equal. -/
theorem CollisionFree.sameEvent {events : List Mapping} (free : config.CollisionFree events)
    {first second : Mapping} (firstIn : first ∈ events) (secondIn : second ∈ events)
    (firstSigned : config.Signed first) (secondSigned : config.Signed second)
    (hashes : first.ownHash = second.ownHash) : SameEvent first second := by
  apply sameEvent_iff.mpr
  refine ⟨hashes, free first firstIn second secondIn ?_⟩
  rw [firstSigned, secondSigned, Option.some.injEq, Value.str.injEq] at hashes
  exact PyStr.ofText_injective hashes

/-- In a linked list of signed events no hash occurs twice. -/
theorem Intact.nodup {events : List Mapping} (intact : config.Intact genesis events)
    (nonempty : ∀ body, config.digest body ≠ []) (free : config.CollisionFree events) :
    (some (.str genesis) :: events.map Mapping.ownHash).Nodup := by
  apply intact.linked.nodup
  · intro first firstIn second secondIn hashes
    exact (free.sameEvent firstIn secondIn (intact.signed first firstIn)
      (intact.signed second secondIn) hashes).prevHash_eq
  · intro impossible
    obtain ⟨event, member, hash⟩ := List.mem_map.mp impossible
    rw [intact.signed event member, Option.some.injEq, Value.str.injEq] at hash
    exact nonempty _ (PyStr.ofText_eq_nil_iff.mp hash)

/-- Equal events are linked and signed alike. -/
theorem Intact.of_forall₂ {prev : PyStr} {events kept : List Mapping}
    (stable : ∀ first second, SameEvent first second →
      config.digest first = config.digest second)
    (intact : config.Intact prev events) (same : List.Forall₂ SameEvent events kept) :
    config.Intact prev kept := by
  have alike : ∀ {event other}, SameEvent event other → config.Signed event →
      config.Signed other := by
    intro event other eq signed
    rw [Signed, ← eq.ownHash_eq, signed, stable _ _ (sameEvent_iff.mp eq).2]
  induction same generalizing prev with
  | nil => exact ⟨.nil _, List.forall_mem_nil _⟩
  | @cons event other rest later eq _ ih =>
      obtain ⟨linked, signed⟩ := intact
      cases linked with
      | cons names further =>
          have here := signed event List.mem_cons_self
          rw [here] at further
          obtain ⟨laterLinked, laterSigned⟩ := ih ⟨further, fun later member =>
            signed later (List.mem_cons_of_mem _ member)⟩
          have otherSigned := alike eq here
          constructor
          · apply Linked.cons (eq.prevHash_eq.symm.trans names)
            rw [← eq.ownHash_eq, here]
            exact laterLinked
          · intro event member
            obtain same | after := List.mem_cons.mp member
            · rw [same]
              exact otherSigned
            · exact laterSigned event after

/-- Every event of a log carries its digest. -/
theorem Step.signed :
    System.Preserves config.Step fun log => ∀ event ∈ log.written, config.Signed event := by
  rintro source op target rfl signed
  cases op with
  | append event eventId now =>
      intro other member
      obtain before | now := List.mem_append.mp member
      · exact signed other before
      · cases List.mem_singleton.mp now
        exact signed_chained source.lastHash event eventId
  | refuse now =>
      have written : (config.refuse source now).written = source.written := written_maybeRotate _ _
      rw [apply, written]
      exact signed
  | restart maxBytes => exact signed

/-- What verification accepts after an attack. -/
theorem lineage_of_accepts {other : List Value} {written kept : List Mapping}
    {altered : List AuditLine} (signed : ∀ event ∈ written, config.Signed event)
    (reuses : Reuses written altered)
    (free : config.CollisionFree (written ++ eventsOf altered))
    (accepts : config.Accepts genesis false altered other kept) :
    ∃ lineage, Lineage written lineage ∧ List.Forall₂ SameEvent lineage kept := by
  have stands : ∀ event ∈ kept, ∃ old ∈ written, SameEvent old event ∧
      old.prevHash = event.prevHash ∧ old.ownHash = event.ownHash := by
    intro event member
    have here : event ∈ eventsOf altered := by
      rw [mem_eventsOf, accepts.reads]
      exact List.mem_append_right _ (List.mem_map_of_mem member)
    obtain ⟨old, oldIn, hashes⟩ := reuses event here (accepts.hashed event member)
    have same := free.sameEvent (List.mem_append_left _ oldIn) (List.mem_append_right _ here)
      (signed old oldIn) (accepts.intact.signed event member) hashes
    exact ⟨old, oldIn, same, same.prevHash_eq, hashes⟩
  obtain ⟨lineage, among, linked, same⟩ := accepts.intact.linked.exists_forall₂ stands
  exact ⟨lineage, ⟨among, linked⟩, same⟩

/-- In a linked log the lineages are the first parts. -/
theorem Intact.lineage_iff {written : List Mapping} (intact : config.Intact genesis written)
    (nonempty : ∀ body, config.digest body ≠ []) (free : config.CollisionFree written)
    {lineage : List Mapping} : Lineage written lineage ↔ ∃ count, lineage = written.take count := by
  constructor
  · rintro ⟨among, linked⟩
    have stands : ∀ event ∈ lineage, ∃ old ∈ written, old = event ∧
        old.prevHash = event.prevHash ∧ old.ownHash = event.ownHash :=
      fun event member => ⟨event, among event member, rfl, rfl, rfl⟩
    obtain ⟨count, same⟩ := intact.linked.forall₂_take (intact.nodup nonempty free) linked stands
    rw [List.forall₂_eq_eq_eq] at same
    exact ⟨count, same.symm⟩
  · rintro ⟨count, rfl⟩
    exact ⟨fun event member => List.mem_of_mem_take member, intact.linked.take count⟩

/-- Verification accepts altered files that do not read as what was written exactly when they
are curtailed.  Where every rotation before an append that raises gives its segment the last
name, what they keep is a first part of the log. -/
theorem tampering_is_detected_iff {legacy : List Value} {maxBytes : Int} {ops : List AuditOp}
    {log altered : AuditState} (nonempty : ∀ body, config.digest body ≠ [])
    (stable : ∀ first second, SameEvent first second →
      config.digest first = config.digest second)
    (unhashed : ∀ value ∈ legacy, value.hashedEvent = none)
    (run : Run config.Step (.start legacy maxBytes) ops log)
    (reuses : Reuses log.written altered.lines)
    (free : config.CollisionFree (log.written ++ eventsOf altered.lines)) :
    ((¬ReadsAs legacy log.written altered.lines → config.verify altered ≠ (true, -1)) ↔
      ¬Curtailed legacy log.written altered.lines) ∧
    (Run (System.restrict config.Step config.RefusalAscends) (.start legacy maxBytes) ops log →
      ∀ lineage, Lineage log.written lineage ↔ ∃ count, lineage = log.written.take count) := by
  have signed := Run.invariant Step.signed run (List.forall_mem_nil _)
  refine ⟨⟨?_, ?_⟩, ?_⟩
  · rintro detects ⟨differs, wellFormed, other, kept, reads, plain, lineage, ⟨among, linked⟩, same⟩
    have lineageIntact : config.Intact genesis lineage :=
      ⟨linked, fun event member => signed event (among event member)⟩
    have keptIntact := lineageIntact.of_forall₂ stable same
    apply detects differs
    apply verifyLines_ok_iff.mpr
    refine ⟨other, kept, wellFormed, reads, plain, nofun, ?_, keptIntact⟩
    intro event member
    exact (keptIntact.signed event member).truthy nonempty
  · intro whole differs verified
    obtain ⟨other, kept, accepts⟩ := verifyLines_ok_iff.mp verified
    apply whole
    exact ⟨differs, accepts.wellFormed, other, kept, accepts.reads, accepts.unhashed,
      lineage_of_accepts signed reuses free accepts⟩
  · intro ascending lineage
    have sound := Run.invariant (Step.sound nonempty) ascending (.start unhashed maxBytes)
    apply sound.intact.lineage_iff nonempty
    intro first firstIn second secondIn
    exact free first (List.mem_append_left _ firstIn) second (List.mem_append_left _ secondIn)

end AuditConfig

/-! ## A log of two events -/

theorem sampleConfig_stable (first second : Mapping) (same : SameEvent first second) :
    sampleConfig.digest first = sampleConfig.digest second := by
  simp only [sampleConfig, same "event_id"]

/-- Two appends to one file. -/
def twoAppends : List AuditOp :=
  [.append [] "1".toList newYear, .append [] "2".toList newYear]

/-- The log after them. -/
def twoEvents : AuditState :=
  twoAppends.foldl sampleConfig.apply (.start [] 0)

/-- Its two events. -/
def firstEvent : Mapping :=
  sampleConfig.chained (.str genesis) [] "1".toList

def secondEvent : Mapping :=
  sampleConfig.chained (.str (PyStr.lit "h1")) [] "2".toList

theorem run_twoEvents : Run sampleConfig.Step (.start [] 0) twoAppends twoEvents :=
  Run.tail (Run.single rfl) rfl

/-- The files with these events in them. -/
def holding (events : List Mapping) : AuditState :=
  { twoEvents with live := some (events.map fun event => .json (.dict event)) }

theorem records_holding (events : List Mapping) :
    records (holding events).lines = events.map .dict :=
  AuditConfig.records_events events

theorem eventsOf_holding (events : List Mapping) : eventsOf (holding events).lines = events := by
  rw [eventsOf, records_holding, List.filterMap_map]
  exact List.filterMap_some

/-- The events an attack leaves are some of the two. -/
theorem collisionFree_twoEvents {events : List Mapping}
    (among : ∀ event ∈ events, event ∈ twoEvents.written) :
    sampleConfig.CollisionFree (twoEvents.written ++ eventsOf (holding events).lines) := by
  have either : ∀ event ∈ twoEvents.written ++ eventsOf (holding events).lines,
      event = firstEvent ∨ event = secondEvent := by
    intro event member
    rw [eventsOf_holding, List.mem_append] at member
    have written : event ∈ [firstEvent, secondEvent] := member.elim id (among event)
    simpa using written
  intro first firstIn second secondIn same
  obtain rfl | rfl := either first firstIn
  · obtain rfl | rfl := either second secondIn
    · exact .refl _
    · exact absurd same (by decide)
  · obtain rfl | rfl := either second secondIn
    · exact absurd same (by decide)
    · exact .refl _

theorem reuses_holding {events : List Mapping}
    (among : ∀ event ∈ events, event ∈ twoEvents.written) :
    Reuses twoEvents.written (holding events).lines := by
  intro event member _
  rw [eventsOf_holding] at member
  exact ⟨event, among event member, rfl⟩

/-- Cutting off the last event leaves a log that verifies. -/
theorem cut_log_verifies :
    let altered := holding [firstEvent]
    Run sampleConfig.Step (.start [] 0) twoAppends twoEvents ∧
      Reuses twoEvents.written altered.lines ∧
      sampleConfig.CollisionFree (twoEvents.written ++ eventsOf altered.lines) ∧
      ¬ReadsAs [] twoEvents.written altered.lines ∧
      sampleConfig.verify altered = (true, -1) := by
  have among : ∀ event ∈ [firstEvent], event ∈ twoEvents.written := by
    intro event member
    cases List.mem_singleton.mp member
    exact List.mem_cons_self
  refine ⟨run_twoEvents, reuses_holding among, collisionFree_twoEvents among, ?_, by decide⟩
  intro same
  exact absurd (List.Forall₂.length_eq same) (by decide)

theorem first_differs_from_second : ¬SameEvent firstEvent secondEvent := by
  intro same
  have digests := sampleConfig_stable _ _ same
  exact absurd digests (by decide)

/-- Exchanging the two events is detected. -/
theorem exchanged_events_are_detected :
    sampleConfig.verify (holding [secondEvent, firstEvent]) ≠ (true, -1) := by
  have among : ∀ event ∈ [secondEvent, firstEvent], event ∈ twoEvents.written := by
    intro event member
    exact List.mem_reverse.mpr member
  apply (AuditConfig.tampering_is_detected_iff (fun _ => List.cons_ne_nil _ _)
    sampleConfig_stable (List.forall_mem_nil _) run_twoEvents (reuses_holding among)
    (collisionFree_twoEvents among)).1.mpr
  · rintro ⟨-, -, other, kept, reads, plain, lineage, ⟨-, linked⟩, same⟩
    change [Value.dict secondEvent, .dict firstEvent] = _ at reads
    cases other with
    | cons value rest =>
        obtain ⟨rfl, -⟩ := List.cons.inj reads
        cases plain _ List.mem_cons_self
    | nil =>
        cases kept with
        | nil => cases reads
        | cons event rest =>
            obtain ⟨here, -⟩ := List.cons.inj reads
            cases here
            cases same with
            | cons equal _ =>
                -- The second event names the first one, and not the beginning.
                cases linked with
                | cons names _ =>
                    rw [equal.prevHash_eq] at names
                    exact absurd (Value.str.inj (Option.some.inj names)) (by decide)
  · intro reads
    cases reads with
    | cons same _ =>
        obtain equal | ⟨_, _, here, there, same⟩ := same
        · obtain equal := Value.dict.inj equal
          exact first_differs_from_second (equal ▸ .refl _)
        · cases here
          cases there
          exact first_differs_from_second same

end DataOlympus
