import DataOlympus.Audit.Log

/-!
# The emission of events

The write functions append an event to the audit log through one function, which passes over
every exception.  An event that holds a text which cannot be encoded, or that links to one, has
no digest, and is lost.
-/

namespace DataOlympus

open Lines

mutual

/-- `json.dumps(value, ensure_ascii=False).encode("utf-8")` succeeds. -/
def Value.serializes (value : Value) : Bool :=
  match value with
  | .str s => s.encodable
  | .list items => serializesAll items
  | .tuple items => serializesAll items
  | .dict entries => serializesEntries entries
  | .bytes _ => false
  | .date _ => false
  | .datetime .. => false
  | .set _ => false
  | .null => true
  | .bool _ => true
  | .int _ => true
  | .float _ => true
termination_by structural value

def serializesAll : List Value → Bool
  | [] => true
  | item :: rest => item.serializes && serializesAll rest
termination_by structural items => items

/-- Keys are strings here. -/
def serializesEntries : List (Value × Value) → Bool
  | [] => true
  | (key, value) :: rest => key.serializes && value.serializes && serializesEntries rest
termination_by structural entries => entries

end

/-- A text of the program. -/
def Value.ofText (text : Text) : Value :=
  .str (PyStr.ofText text)

/-- A text, or `None`. -/
def Value.ofOption (text : Option Text) : Value :=
  text.elim .null Value.ofText

/-- `{**entries, key: value, …}`. -/
def Mapping.updated (entries : Mapping) (more : List (String × Value)) : Mapping :=
  more.foldl (fun found entry => found.set entry.1 entry.2) entries

/-- The keyword arguments that `_emit_audit` writes. -/
def auditFields : List String :=
  ["event_type", "status", "agent_identity", "source_session", "target_path", "target_tier",
    "confidence", "pending_id", "commit_sha", "reason", "remote_addr", "matching_pattern",
    "secret_scan_override", "evidence", "demotion_reason", "injection_suspect", "writing_rules"]

/-- The event that `_emit_audit` appends. -/
def auditEvent (ts : BitVec 64) (arguments : Mapping) : Mapping :=
  (.str (PyStr.lit "ts"), .float ts) ::
    (auditFields.map fun field =>
      (.str (PyStr.lit field), (arguments.get field).getD .null)) ++
    match arguments.present "capture" with
    | none => []
    | some capture => [(.str (PyStr.lit "capture"), capture)]

/-- What the log adds to an event, and the clock. -/
structure Emission where
  ts : BitVec 64
  eventId : Text
  now : Time

/-- `_emit_audit(audit_log, …)`: where the event, or the hash that it links to, cannot be
encoded, the append raises behind its rotation, and this is passed over. -/
def AuditConfig.emitAudit (config : AuditConfig) (emission : Emission) (log : AuditState)
    (arguments : Mapping) : AuditState :=
  let event := auditEvent emission.ts arguments
  if serializesEntries event && log.lastHash.serializes then
    config.append log event emission.eventId emission.now
  else config.refuse log emission.now

/-! ## Serialization -/

theorem serializesEntries_iff {entries : Mapping} : serializesEntries entries = true ↔
    ∀ entry ∈ entries, entry.1.serializes = true ∧ entry.2.serializes = true := by
  induction entries with
  | nil => exact iff_of_true rfl nofun
  | cons entry rest ih =>
      obtain ⟨key, value⟩ := entry
      rw [serializesEntries, Bool.and_eq_true, Bool.and_eq_true, ih, List.forall_mem_cons]

@[simp]
theorem serializes_ofText (text : Text) : (Value.ofText text).serializes = true :=
  PyStr.encodable_ofText text

@[simp]
theorem serializes_ofOption (text : Option Text) : (Value.ofOption text).serializes = true := by
  cases text with
  | none => rfl
  | some text => exact serializes_ofText text

/-! ## Arguments -/

namespace Mapping

/-- The last assignment to a key counts. -/
theorem get_updated {entries : Mapping} {more : List (String × Value)}
    (once : (more.map Prod.fst).Nodup) (key : String) :
    (entries.updated more).get key = (more.lookup key).or (entries.get key) := by
  induction more generalizing entries with
  | nil => rfl
  | cons entry rest ih =>
      rw [List.map_cons, List.nodup_cons] at once
      rw [updated, List.foldl_cons, ← updated, ih once.2, List.lookup_cons]
      by_cases here : key = entry.1
      · subst here
        have absent : rest.lookup entry.1 = none := by
          rw [List.lookup_eq_none_iff]
          intro other member
          rw [bne_iff_ne]
          intro same
          exact once.1 (same ▸ List.mem_map_of_mem member)
        simp [absent]
      · have other : (key == entry.1) = false := beq_false_of_ne here
        rw [other, get_set_of_ne (PyStr.lit_injective.ne here)]

/-- A mapping from listed names. -/
theorem get_map (names : List String) (value : String → Value) {key : String}
    (listed : key ∈ names) :
    get (names.map fun name => (.str (PyStr.lit name), value name)) key = some (value key) := by
  induction names with
  | nil => cases listed
  | cons first rest ih =>
      rw [List.map_cons, get_cons]
      by_cases here : first = key
      · subst here
        simp [Value.isStr]
      · have other : (Value.str (PyStr.lit first)).isStr (PyStr.lit key) = false :=
          Value.isStr_eq_false (Value.isStr_iff.mpr rfl)
            (PyStr.lit_injective.ne (Ne.symm here))
        rw [other, if_neg Bool.false_ne_true]
        exact ih ((List.mem_cons.mp listed).resolve_left (Ne.symm here))

end Mapping

/-- The event has the arguments. -/
theorem get_auditEvent (ts : BitVec 64) (arguments : Mapping) {field : String}
    (known : field ∈ auditFields) :
    Mapping.get (auditEvent ts arguments) field = some ((arguments.get field).getD .null) := by
  have notTime : (Value.str (PyStr.lit "ts")).isStr (PyStr.lit field) = false := by
    apply Value.isStr_eq_false (Value.isStr_iff.mpr rfl)
    apply PyStr.lit_injective.ne
    rintro rfl
    exact absurd known (by decide)
  have found := Mapping.get_map auditFields (fun name => (arguments.get name).getD .null) known
  rw [auditEvent, List.cons_append, Mapping.get_cons, notTime, if_neg Bool.false_ne_true]
  unfold Mapping.get at found ⊢
  rw [List.find?_append]
  obtain ⟨entry, here, same⟩ := Option.map_eq_some_iff.mp found
  rw [here, Option.some_or, Option.map_some, same]

/-- An event is lost exactly if one of its arguments does not serialize. -/
theorem serializes_auditEvent_iff (ts : BitVec 64) (arguments : Mapping) :
    serializesEntries (auditEvent ts arguments) = true ↔
      ∀ field ∈ "capture" :: auditFields, ∀ value, arguments.get field = some value →
        value.serializes = true := by
  rw [serializesEntries_iff, List.forall_mem_cons]
  constructor
  · intro all
    constructor
    · intro value found
      by_cases absent : value = .null
      · rw [absent]
        rfl
      · have present : arguments.present "capture" = some value := by
          rw [Mapping.present, found]
          cases value with
          | null => exact absurd rfl absent
          | _ => rfl
        have member : (.str (PyStr.lit "capture"), value) ∈ auditEvent ts arguments := by
          apply List.mem_append_right
          rw [present]
          exact List.mem_singleton.mpr rfl
        exact (all _ member).2
    · intro field member value found
      have here : (.str (PyStr.lit field), (arguments.get field).getD .null) ∈
          auditEvent ts arguments :=
        List.mem_append_left _ (List.mem_cons_of_mem _ (List.mem_map.mpr ⟨field, member, rfl⟩))
      have serializes := (all _ here).2
      rwa [found] at serializes
  · rintro ⟨capture, fields⟩ entry member
    rcases List.mem_append.mp member with fixed | last
    · rcases List.mem_cons.mp fixed with rfl | listed
      · exact ⟨PyStr.encodable_lit _, rfl⟩
      · obtain ⟨field, known, rfl⟩ := List.mem_map.mp listed
        refine ⟨PyStr.encodable_lit _, ?_⟩
        cases found : arguments.get field with
        | none => rfl
        | some value => exact fields field known value found
    · cases found : arguments.present "capture" with
      | none =>
          rw [found] at last
          cases last
      | some value =>
          rw [found] at last
          cases List.mem_singleton.mp last
          refine ⟨PyStr.encodable_lit _, ?_⟩
          apply capture
          unfold Mapping.present at found
          split at found
          · cases found
          · exact found

end DataOlympus
