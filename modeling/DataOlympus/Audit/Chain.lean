import DataOlympus.Audit.Log

/-!
# The chain of the audit log

Verification accepts exactly the lines that read as records without a hash, followed by
signed events each of which names the hash of the one before it.  A log keeps its events
in that order as long as every rotation gives its segment the last name.
-/

namespace DataOlympus

open Chain Lines Transition

/-- `event.get("prev_hash")`. -/
def Mapping.prevHash (event : Mapping) : Option Value :=
  event.get "prev_hash"

/-- `event.get("hash")`. -/
def Mapping.ownHash (event : Mapping) : Option Value :=
  event.get "hash"

/-- The value on a line of JSON. -/
def AuditLine.value : AuditLine → Option Value
  | .json value => some value
  | _ => none

/-- The values that are read back. -/
def records (lines : List AuditLine) : List Value :=
  lines.filterMap AuditLine.value

@[simp]
theorem records_append (first second : List AuditLine) :
    records (first ++ second) = records first ++ records second :=
  List.filterMap_append

theorem Value.hashedEvent_eq_some_iff {value : Value} {event : Mapping} :
    value.hashedEvent = some event ↔
      value = .dict event ∧ event.ownHash.any truthy = true := by
  cases value with
  | dict entries =>
      simp only [hashedEvent]
      split
      · rename_i present
        simp only [Option.some.injEq, dict.injEq]
        constructor
        · rintro rfl
          exact ⟨rfl, present⟩
        · rintro ⟨rfl, -⟩
          rfl
      · rename_i absent
        simp only [reduceCtorEq, dict.injEq, false_iff]
        rintro ⟨rfl, present⟩
        exact absent present
  | _ => simp [hashedEvent]

theorem Option.any_isStr_iff {found : Option Value} {s : PyStr} :
    found.any (Value.isStr s) = true ↔ found = some (.str s) := by
  cases found with
  | none => simp
  | some value => simp [Value.isStr_iff]

namespace AuditConfig

variable (config : AuditConfig)

/-- The event carries the digest of its own body. -/
def Signed (event : Mapping) : Prop :=
  event.ownHash = some (.str (PyStr.ofText (config.digest event.unsigned)))

/-- Signed events, each of which names the hash of the one before it. -/
structure Intact (prev : PyStr) (events : List Mapping) : Prop where
  linked : Linked Mapping.prevHash Mapping.ownHash (some (.str prev)) events
  signed : ∀ event ∈ events, config.Signed event

/-- What verification accepts. -/
structure Accepts (prev : PyStr) (seenHashed : Bool) (lines : List AuditLine)
    (legacy : List Value) (events : List Mapping) : Prop where
  wellFormed : .malformed ∉ lines
  reads : records lines = legacy ++ events.map .dict
  unhashed : ∀ value ∈ legacy, value.hashedEvent = none
  first : seenHashed = true → legacy = []
  hashed : ∀ event ∈ events, event.ownHash.any Value.truthy = true
  intact : config.Intact prev events

variable {config}

namespace Accepts

variable {prev : PyStr} {seenHashed : Bool} {rest : List AuditLine} {legacy : List Value}
  {events : List Mapping} {value : Value} {event : Mapping}

theorem blank_iff : config.Accepts prev seenHashed (.blank :: rest) legacy events ↔
    config.Accepts prev seenHashed rest legacy events := by
  constructor
  · rintro ⟨wellFormed, reads, unhashed, first, hashed, intact⟩
    exact ⟨by simpa using wellFormed, reads, unhashed, first, hashed, intact⟩
  · rintro ⟨wellFormed, reads, unhashed, first, hashed, intact⟩
    exact ⟨by simpa using wellFormed, reads, unhashed, first, hashed, intact⟩

/-- A record without a hash is read only in front of the chain. -/
theorem unhashed_cons_iff (plain : value.hashedEvent = none) :
    config.Accepts prev seenHashed (.json value :: rest) legacy events ↔
      seenHashed = false ∧ ∃ before, legacy = value :: before ∧
        config.Accepts prev seenHashed rest before events := by
  constructor
  · rintro ⟨wellFormed, reads, unhashed, first, hashed, intact⟩
    change value :: records rest = _ at reads
    cases legacy with
    | nil =>
        cases events with
        | nil => cases reads
        | cons event later =>
            obtain ⟨rfl, -⟩ := List.cons.inj reads
            have chained := Value.hashedEvent_eq_some_iff.mpr
              ⟨rfl, hashed event List.mem_cons_self⟩
            rw [plain] at chained
            cases chained
    | cons other before =>
        obtain ⟨rfl, readsRest⟩ := List.cons.inj reads
        have notSeen : seenHashed = false := by
          rw [Bool.eq_false_iff]
          intro seen
          cases first seen
        subst seenHashed
        refine ⟨rfl, before, rfl, by simpa using wellFormed, readsRest, ?_, nofun, hashed,
          intact⟩
        intro later member
        exact unhashed later (List.mem_cons_of_mem _ member)
  · rintro ⟨rfl, before, rfl, wellFormed, reads, unhashed, -, hashed, intact⟩
    have readsAll : records (.json value :: rest) = value :: before ++ events.map Value.dict := by
      change value :: records rest = _
      rw [reads]
      rfl
    refine ⟨by simpa using wellFormed, readsAll, ?_, nofun, hashed, intact⟩
    intro other member
    obtain same | later := List.mem_cons.mp member
    · rw [same]
      exact plain
    · exact unhashed other later

/-- An event with a hash is the next one of the chain. -/
theorem event_cons_iff (truthy : event.ownHash.any Value.truthy = true) :
    config.Accepts prev seenHashed (.json (.dict event) :: rest) legacy events ↔
      event.prevHash = some (.str prev) ∧ config.Signed event ∧ legacy = [] ∧
        ∃ later, events = event :: later ∧ config.Accepts
          (PyStr.ofText (config.digest event.unsigned)) true rest [] later := by
  constructor
  · rintro ⟨wellFormed, reads, unhashed, first, hashed, ⟨linked, signed⟩⟩
    change .dict event :: records rest = _ at reads
    cases legacy with
    | cons other before =>
        obtain ⟨rfl, -⟩ := List.cons.inj reads
        have chained := Value.hashedEvent_eq_some_iff.mpr
          ⟨rfl, truthy⟩
        rw [unhashed _ List.mem_cons_self] at chained
        cases chained
    | nil =>
        cases events with
        | nil => cases reads
        | cons head later =>
            obtain ⟨same, readsRest⟩ := List.cons.inj reads
            cases same
            cases linked with
            | cons names further =>
                have here := signed event List.mem_cons_self
                rw [here] at further
                refine ⟨names, here, rfl, later, rfl, by simpa using wellFormed, readsRest, nofun,
                  fun _ => rfl, ?_, further, ?_⟩
                · intro other member
                  exact hashed other (List.mem_cons_of_mem _ member)
                · intro other member
                  exact signed other (List.mem_cons_of_mem _ member)
  · rintro ⟨names, here, rfl, later, rfl, wellFormed, reads, -, -, hashed, ⟨linked, signed⟩⟩
    have readsAll : records (.json (.dict event) :: rest) =
        [] ++ (event :: later).map Value.dict := by
      change .dict event :: records rest = _
      rw [reads]
      rfl
    refine ⟨by simpa using wellFormed, readsAll, nofun, fun _ => rfl, ?_, .cons names ?_, ?_⟩
    · intro other member
      obtain same | after := List.mem_cons.mp member
      · rw [same]
        exact truthy
      · exact hashed other after
    · rw [here]
      exact linked
    · intro other member
      obtain same | after := List.mem_cons.mp member
      · rw [same]
        exact here
      · exact signed other after

end Accepts

theorem verifyLines_ok_iff {prev : PyStr} {seenHashed : Bool} {index : Nat}
    {lines : List AuditLine} :
    config.verifyLines prev seenHashed index lines = (true, -1) ↔
      ∃ legacy events, config.Accepts prev seenHashed lines legacy events := by
  induction lines generalizing prev seenHashed index with
  | nil =>
      apply iff_of_true rfl
      exact ⟨[], [], nofun, rfl, nofun, fun _ => rfl, nofun, .nil _, nofun⟩
  | cons line rest ih =>
      cases line with
      | blank =>
          simp only [verifyLines, ih, Accepts.blank_iff]
      | malformed =>
          apply iff_of_false nofun
          rintro ⟨legacy, events, accepts⟩
          exact accepts.wellFormed List.mem_cons_self
      | json value =>
          rw [verifyLines]
          cases chained : value.hashedEvent with
          | none =>
              simp only [Accepts.unhashed_cons_iff chained]
              cases seenHashed with
              | true => simp
              | false =>
                  simp only [Bool.false_eq_true, if_false, ih, true_and]
                  constructor
                  · rintro ⟨legacy, events, accepts⟩
                    exact ⟨_, events, legacy, rfl, accepts⟩
                  · rintro ⟨_, events, legacy, -, accepts⟩
                    exact ⟨legacy, events, accepts⟩
          | some event =>
              obtain ⟨rfl, truthy⟩ := Value.hashedEvent_eq_some_iff.mp chained
              simp only [Accepts.event_cons_iff truthy]
              split
              · rename_i checked
                rw [Bool.and_eq_true, Option.any_isStr_iff, Option.any_isStr_iff] at checked
                rw [ih]
                constructor
                · rintro ⟨legacy, events, accepts⟩
                  cases accepts.first rfl
                  exact ⟨[], _, checked.1, checked.2, rfl, events, rfl, accepts⟩
                · rintro ⟨_, _, -, -, -, events, -, accepts⟩
                  exact ⟨[], events, accepts⟩
              · rename_i unchecked
                apply iff_of_false nofun
                rintro ⟨_, _, names, here, -⟩
                apply unchecked
                rw [Bool.and_eq_true, Option.any_isStr_iff, Option.any_isStr_iff]
                exact ⟨names, here⟩

end AuditConfig

end DataOlympus
