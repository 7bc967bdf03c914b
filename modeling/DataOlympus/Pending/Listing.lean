import DataOlympus.Control.Except
import DataOlympus.Python.Mapping
import DataOlympus.Text.Order

/-!
# The listing of the pending queue

`PendingQueue.list` reads every entry of the directory and projects its JSON document.  A file
that cannot be read or parsed is reported as such; the fields of a document are taken without
a check.
-/

namespace DataOlympus

open Lines

/-! ## What can be served -/

/-- `_UNRENDERABLE_TEXT`. -/
def unrenderableText : PyStr :=
  PyStr.lit "[omitted: not encodable as UTF-8]"

namespace Value

mutual

/-- `_render_safe(value)`. -/
def renderSafe (value : Value) : Value :=
  match value with
  | .str s => .str (if s.encodable then s else unrenderableText)
  | .dict entries => .dict (renderSafeEntries entries)
  | .list items => .list (renderSafeItems items)
  | other => other
termination_by structural value

def renderSafeItems (items : List Value) : List Value :=
  match items with
  | [] => []
  | item :: rest => renderSafe item :: renderSafeItems rest
termination_by structural items

def renderSafeEntries (entries : List (Value × Value)) : List (Value × Value) :=
  match entries with
  | [] => []
  | (key, value) :: rest => (key, renderSafe value) :: renderSafeEntries rest
termination_by structural entries

end

end Value

theorem Mapping.get_renderSafeEntries (entries : Mapping) (key : String) :
    Mapping.get (Value.renderSafeEntries entries) key =
      (Mapping.get entries key).map Value.renderSafe := by
  induction entries with
  | nil => rfl
  | cons entry rest ih =>
      rw [Value.renderSafeEntries, get_cons, get_cons, ih]
      split <;> rfl

/-! ## The capture envelope -/

/-- What a field of a capture envelope may hold. -/
inductive CaptureRule where
  /-- A character of the first kind and at most so many of the second. -/
  | token (first rest : Char → Bool) (most : Nat)
  | hash
  | enum (words : List String)

def CaptureRule.accepts : CaptureRule → PyStr → Bool
  | .token first rest most, s =>
      match s with
      | .scalar c :: others => first c && others.length ≤ most && others.all fun
        | .scalar c => rest c
        | .surrogate _ => false
      | _ => false
  | .hash, s =>
      let digits := s.drop "sha256:".length
      s.take "sha256:".length = PyStr.lit "sha256:" && digits.length = 64 && digits.all fun
        | .scalar c => c.isDigit || ('a' ≤ c && c ≤ 'f')
        | .surrogate _ => false
  | .enum words, s => words.any fun word => s = PyStr.lit word

/-- `_SOURCE_RE`. -/
def captureSource : CaptureRule :=
  .token (fun c => c.isLower || c.isDigit)
    (fun c => c.isLower || c.isDigit || "_.-".toList.contains c) 63

/-- `_EVENT_ID_RE`. -/
def captureEventId : CaptureRule :=
  .token Char.isAlphanum (fun c => c.isAlphanum || "._:-".toList.contains c) 127

/-- `_TRANSFORMATION_RE`. -/
def captureTransformation : CaptureRule :=
  .token Char.isAlphanum (fun c => c.isAlphanum || "._:@/+-".toList.contains c) 127

/-- `FIELDS`, with whether a field is required. -/
def captureFields : List (String × Bool × CaptureRule) :=
  [("capture_source", true, captureSource),
    ("capture_event_id", true, captureEventId),
    ("source_event_hash", true, .hash),
    ("transformation", true, captureTransformation),
    ("raw_retention", true, .enum ["discarded", "redacted", "retained"]),
    ("capture_session", false, captureEventId),
    ("classification", false, .enum ["fact", "decision", "preference", "task_state", "noise"]),
    ("derived_memory_hash", false, .hash)]

/-- `_shape_error(capture) is None`. -/
def captureShapeOk (capture : Mapping) : Bool :=
  !capture.isEmpty &&
    (capture.all fun entry => captureFields.any fun field => entry.1.isStr (PyStr.lit field.1)) &&
      captureFields.all fun field =>
        match capture.present field.1 with
        | none => !field.2.1
        | some (.str s) => field.2.2.accepts s
        | some _ => false

/-- `project_capture(value)`. -/
def projectCapture : Option Value → Value
  | some (.dict capture) =>
      if captureShapeOk capture && (Mapping.present capture "derived_memory_hash").isSome then
        .dict (captureFields.filterMap fun field =>
          (Mapping.present capture field.1).map fun value => (.str (PyStr.lit field.1), value))
      else .null
  | _ => .null

/-! ## The projection of an entry -/

/-- What listing can raise. -/
inductive ListingError where
  /-- `entry["…"]` on what takes no text as an index. -/
  | typeError
  | keyError (key : String)
  /-- `….get(…)` on what is no mapping. -/
  | attributeError
  /-- `json.load` raises something else than `JSONDecodeError`. -/
  | loader (message : PyStr)

/-- `entry["…"]`. -/
def Value.item (entry : Value) (key : String) : Except ListingError Value :=
  match entry with
  | .dict entries => (Mapping.get entries key).elim (.error (.keyError key)) .ok
  | _ => .error .typeError

/-- The receiver of `.get`. -/
def Value.attributes : Value → Except ListingError Mapping
  | .dict entries => .ok entries
  | _ => .error .attributeError

/-- How `json.load` ends, with the text that reports an error. -/
inductive JsonEnd where
  | decodes (value : Value)
  | invalid (report : PyStr)
  | raises (message : PyStr)

/-- A file of the queue. -/
inductive EntryFile where
  /-- `OSError` or `UnicodeDecodeError`, with the text that reports it. -/
  | unreadable (report : PyStr)
  | text (content : Text)

/-- The state that the name of a file tells. -/
inductive EntryState where
  | pending
  | claimed

/-- A file that was found by its name. -/
structure FoundEntry where
  name : Text
  state : EntryState
  file : EntryFile

/-- `json.load`, and `str` of what it gives. -/
structure EntryReader where
  load : Text → JsonEnd
  str : Value → PyStr

namespace EntryReader

variable (reader : EntryReader)

/-- `_as_id_list(value)`. -/
def asIdList : Option Value → List PyStr
  | some (.list items) => (items.map fun item => (reader.str item).strip).filter fun s => !s.isEmpty
  | some (.tuple items) => (items.map fun item => (reader.str item).strip).filter fun s => !s.isEmpty
  | some (.str s) => if s.blank then [] else [s.strip]
  | _ => []

/-- The state of an entry, with a look at `reconcile` if it is claimed. -/
def entryState (entry : Value) : EntryState → Except ListingError String
  | .pending => .ok "pending"
  | .claimed => entry.attributes.map fun entries =>
      match Mapping.get entries "reconcile" with
      | some (.dict reconcile) =>
          if (Mapping.get reconcile "state").any (Value.isStr (PyStr.lit "uncertain")) then
            "uncertain"
          else "claimed"
      | _ => "claimed"

/-- The fields of a record, from those of the entry. -/
def recordFields (state : String) (pendingId proposalType targetPath enqueuedAt : Value)
    (metadata : Mapping) : List (String × Value) :=
  let field key := (Mapping.get metadata key).getD .null
  let flag key := Value.bool ((Mapping.get metadata key).any Value.truthy)
  [("state", .str (PyStr.lit state)),
    ("pending_id", pendingId),
    ("proposal_type", proposalType),
    ("target_path", targetPath),
    ("confidence", field "confidence"),
    ("agent_identity", field "agent_identity"),
    ("created_at", enqueuedAt),
    ("secret_scan_flagged", flag "secret_scan_flagged"),
    ("matching_pattern", field "matching_pattern"),
    ("source_session", field "source_session"),
    ("reason", field "reason"),
    ("evidence", field "evidence"),
    ("demotion_reason", field "demotion_reason"),
    ("injection_suspect", flag "injection_suspect"),
    ("injection_patterns", field "injection_patterns"),
    ("intent", field "intent"),
    ("contest",
      if (Mapping.get metadata "intent").any (Value.isStr (PyStr.lit "contest")) then
        .dict (Mapping.ofFields
          [("contradicts",
              .list ((reader.asIdList (Mapping.get metadata "contradicts")).map .str)),
            ("contest_reason", field "contest_reason")])
      else .null),
    ("capture", projectCapture (Mapping.get metadata "capture"))]

/-- The record of a document. -/
def project (state : EntryState) (entry : Value) : Except ListingError Mapping := do
  let state ← entryState entry state
  let pendingId ← entry.item "pending_id"
  let proposalType ← entry.item "proposal_type"
  let targetPath ← entry.item "target_path"
  let metadata ← entry.item "meta" >>= Value.attributes
  let enqueuedAt ← entry.item "enqueued_at"
  return Value.renderSafeEntries (Mapping.ofFields
    (reader.recordFields state pendingId proposalType targetPath enqueuedAt metadata))

/-- `name.rsplit(".", 1)[0]`. -/
def stemOf (name : Text) : Text :=
  if '.' ∈ name then ((name.reverse.dropWhile (· ≠ '.')).drop 1).reverse else name

/-- The record of a file that cannot be read. -/
def unreadableRecord (name : Text) (report : PyStr) : Mapping :=
  Mapping.ofFields
    [("state", .str (PyStr.lit "unreadable")),
      ("pending_id", .str (PyStr.ofText (stemOf name))),
      ("proposal_type", .str []),
      ("target_path", .str []),
      ("created_at", .float 0),
      ("reason", .str report)]

/-- The body of the loop, for a file that is there. -/
def describe (found : FoundEntry) : Except ListingError Mapping :=
  match found.file with
  | .unreadable report => .ok (unreadableRecord found.name report)
  | .text content =>
      match reader.load content with
      | .invalid report => .ok (unreadableRecord found.name report)
      | .raises message => .error (.loader message)
      | .decodes entry => reader.project found.state entry

/-- The state by the ending of a name. -/
def stateOf (name : Text) : Option EntryState :=
  if ".json".toList.isSuffixOf name then some .pending
  else if ".claimed".toList.isSuffixOf name then some .claimed
  else none

/-- The entries of the directory that the loop finds; a file that is gone is passed over. -/
def foundEntries (names : List Text) (files : Text → Option EntryFile) : List FoundEntry :=
  (sortedNames names).filterMap fun name =>
    match stateOf name, files name with
    | some state, some file => some ⟨name, state, file⟩
    | _, _ => none

/-- `list()`. -/
def list (names : List Text) (files : Text → Option EntryFile) :
    Except ListingError (List Mapping) :=
  (foundEntries names files).mapM reader.describe

end EntryReader

/-! ## What the listing reports -/

/-- The keys that a document is read by, apart from `meta`. -/
def entryKeys : List String :=
  ["pending_id", "proposal_type", "target_path", "enqueued_at"]

namespace Value

/-- An object with all keys, and an object under `meta`. -/
def Listable : Value → Prop
  | .dict entry =>
      (∀ key ∈ entryKeys, (Mapping.get entry key).isSome) ∧
        ∃ metadata, Mapping.get entry "meta" = some (.dict metadata)
  | _ => False

/-- A value that a key of a document may have. -/
def isTyped (key : String) : Value → Bool
  | .str _ => key ≠ "enqueued_at"
  | .int _ => key = "enqueued_at"
  | .float _ => key = "enqueued_at"
  | _ => false

/-- An object with all keys, each of its type. -/
def Intact : Value → Prop
  | .dict entry =>
      (∀ key ∈ entryKeys, (Mapping.get entry key).any (isTyped key) = true) ∧
        ∃ metadata, Mapping.get entry "meta" = some (.dict metadata)
  | _ => False

theorem Intact.listable {entry : Value} (intact : entry.Intact) : entry.Listable := by
  cases entry with
  | dict entries =>
      refine ⟨fun key member => ?_, intact.2⟩
      have typed := intact.1 key member
      cases found : Mapping.get entries key with
      | none => rw [found] at typed; cases typed
      | some value => rfl
  | _ => exact intact

theorem item_eq_ok_iff {entry value : Value} {key : String} :
    entry.item key = .ok value ↔
      ∃ entries, entry = .dict entries ∧ Mapping.get entries key = some value := by
  cases entry with
  | dict entries =>
      unfold item
      cases found : Mapping.get entries key with
      | none => simp [found]
      | some other => simp [found]
  | _ => simp [item]

theorem attributes_eq_ok_iff {value : Value} {entries : Mapping} :
    value.attributes = .ok entries ↔ value = .dict entries := by
  cases value <;> simp [attributes]

end Value

namespace EntryReader

variable {reader : EntryReader}

theorem entryState_dict (entries : Mapping) (state : EntryState) :
    ∃ told, entryState (.dict entries) state = .ok told ∧ told ≠ "unreadable" := by
  cases state with
  | pending => exact ⟨_, rfl, by decide⟩
  | claimed =>
      refine ⟨_, rfl, ?_⟩
      dsimp only
      split
      · split <;> decide
      · decide

/-- What a projection reads, and the record it gives. -/
theorem project_eq_ok_iff {state : EntryState} {entry : Value} {record : Mapping} :
    reader.project state entry = .ok record ↔
      ∃ entries told pendingId proposalType targetPath enqueuedAt metadata,
        entry = .dict entries ∧ entryState entry state = .ok told ∧
        Mapping.get entries "pending_id" = some pendingId ∧
        Mapping.get entries "proposal_type" = some proposalType ∧
        Mapping.get entries "target_path" = some targetPath ∧
        Mapping.get entries "meta" = some (.dict metadata) ∧
        Mapping.get entries "enqueued_at" = some enqueuedAt ∧
        record = Value.renderSafeEntries (Mapping.ofFields
          (reader.recordFields told pendingId proposalType targetPath enqueuedAt metadata)) := by
  constructor
  · intro done
    unfold project at done
    obtain ⟨told, toldOk, done⟩ := Except.bind_eq_ok_iff.mp done
    obtain ⟨pendingId, pendingIdOk, done⟩ := Except.bind_eq_ok_iff.mp done
    obtain ⟨proposalType, proposalTypeOk, done⟩ := Except.bind_eq_ok_iff.mp done
    obtain ⟨targetPath, targetPathOk, done⟩ := Except.bind_eq_ok_iff.mp done
    obtain ⟨metadata, metadataOk, done⟩ := Except.bind_eq_ok_iff.mp done
    obtain ⟨enqueuedAt, enqueuedAtOk, built⟩ := Except.bind_eq_ok_iff.mp done
    obtain ⟨value, valueOk, isMapping⟩ := Except.bind_eq_ok_iff.mp metadataOk
    cases Value.attributes_eq_ok_iff.mp isMapping
    obtain ⟨entries, rfl, pendingIdIs⟩ := Value.item_eq_ok_iff.mp pendingIdOk
    simp only [Value.item_eq_ok_iff, Value.dict.injEq, exists_eq_left'] at *
    exact ⟨entries, told, pendingId, proposalType, targetPath, enqueuedAt, metadata, rfl, toldOk,
      pendingIdIs, proposalTypeOk, targetPathOk, valueOk, enqueuedAtOk, (Except.ok.inj built).symm⟩
  · rintro ⟨entries, told, pendingId, proposalType, targetPath, enqueuedAt, metadata, rfl, toldOk,
      pendingIdIs, proposalTypeIs, targetPathIs, metadataIs, enqueuedAtIs, rfl⟩
    simp only [project, toldOk, Value.item, pendingIdIs, proposalTypeIs, targetPathIs, metadataIs,
      enqueuedAtIs, Option.elim_some]
    rfl

/-- A document is projected if and only if it has what is read. -/
theorem project_ok_iff {state : EntryState} {entry : Value} :
    (∃ record, reader.project state entry = .ok record) ↔ entry.Listable := by
  constructor
  · rintro ⟨record, done⟩
    obtain ⟨entries, told, pendingId, proposalType, targetPath, enqueuedAt, metadata, rfl, -,
      pendingIdIs, proposalTypeIs, targetPathIs, metadataIs, enqueuedAtIs, -⟩ :=
      project_eq_ok_iff.mp done
    refine ⟨?_, metadata, metadataIs⟩
    simp [entryKeys, pendingIdIs, proposalTypeIs, targetPathIs, enqueuedAtIs]
  · intro listable
    cases entry with
    | dict entries =>
        obtain ⟨keys, metadata, metadataIs⟩ := listable
        simp only [entryKeys, List.forall_mem_cons, Option.isSome_iff_exists] at keys
        obtain ⟨⟨_, pendingId⟩, ⟨_, proposalType⟩, ⟨_, targetPath⟩, ⟨_, enqueuedAt⟩, -⟩ := keys
        obtain ⟨told, toldOk, -⟩ := entryState_dict entries state
        exact ⟨_, project_eq_ok_iff.mpr ⟨entries, told, _, _, _, _, metadata, rfl, toldOk, pendingId,
          proposalType, targetPath, metadataIs, enqueuedAt, rfl⟩⟩
    | _ => exact listable.elim

/-- The record of a document names its id and is not marked as damaged. -/
theorem project_spec {state : EntryState} {entries record : Mapping}
    (done : reader.project state (.dict entries) = .ok record) :
    record.get "pending_id" = (Mapping.get entries "pending_id").map Value.renderSafe ∧
      record.get "state" ≠ some (.str (PyStr.lit "unreadable")) := by
  obtain ⟨entries, told, pendingId, proposalType, targetPath, enqueuedAt, metadata, same, toldOk,
    pendingIdIs, -, -, -, -, rfl⟩ := project_eq_ok_iff.mp done
  cases same
  obtain ⟨other, otherOk, readable⟩ := entryState_dict entries state
  cases toldOk.symm.trans otherOk
  rw [Mapping.get_renderSafeEntries, Mapping.get_renderSafeEntries, Mapping.get_ofFields,
    Mapping.get_ofFields, pendingIdIs]
  refine ⟨rfl, ?_⟩
  rw [show (reader.recordFields told pendingId proposalType targetPath enqueuedAt metadata).lookup
    "state" = some (.str (PyStr.lit told)) from rfl, Option.map_some, Value.renderSafe,
    if_pos (PyStr.encodable_lit told)]
  intro same
  injection same with same
  injection same with same
  exact readable (PyStr.lit_injective same)

theorem unreadableRecord_marked (name : Text) (report : PyStr) :
    (unreadableRecord name report).get "state" = some (.str (PyStr.lit "unreadable")) ∧
      (unreadableRecord name report).get "pending_id" =
        some (.str (PyStr.ofText (stemOf name))) := by
  unfold unreadableRecord
  rw [Mapping.get_ofFields, Mapping.get_ofFields]
  exact ⟨rfl, rfl⟩

/-- `json.load` raises nothing but decoding errors, and what it decodes has a property. -/
def Decodes (reader : EntryReader) (property : Value → Prop) : EntryFile → Prop
  | .unreadable _ => True
  | .text content =>
      match reader.load content with
      | .invalid _ => True
      | .raises _ => False
      | .decodes entry => property entry

/-- The record of a file: an intact document with its id, anything else marked as damaged
under the id that its name tells. -/
def Reports (reader : EntryReader) (found : FoundEntry) (record : Mapping) : Prop :=
  (∃ content entries, found.file = .text content ∧ reader.load content = .decodes (.dict entries) ∧
      Value.Intact (.dict entries) ∧
      record.get "pending_id" = (Mapping.get entries "pending_id").map Value.renderSafe ∧
      record.get "state" ≠ some (.str (PyStr.lit "unreadable"))) ∨
    ((∀ content entry, found.file = .text content → reader.load content = .decodes entry →
        ¬ entry.Intact) ∧
      record.get "state" = some (.str (PyStr.lit "unreadable")) ∧
      record.get "pending_id" = some (.str (PyStr.ofText (stemOf found.name))))

theorem describe_ok_iff {found : FoundEntry} :
    (∃ record, reader.describe found = .ok record) ↔
      reader.Decodes Value.Listable found.file := by
  obtain ⟨name, state, file⟩ := found
  cases file with
  | unreadable report => simp [describe, Decodes]
  | text content =>
      unfold describe Decodes
      dsimp only
      cases loaded : reader.load content with
      | invalid report => simp
      | raises message => simp
      | decodes entry => exact project_ok_iff

/-- A file is reported as it should be if and only if it holds nothing but an intact document
once it decodes. -/
theorem describe_reports_iff {found : FoundEntry} :
    (∃ record, reader.describe found = .ok record ∧ reader.Reports found record) ↔
      reader.Decodes Value.Intact found.file := by
  obtain ⟨name, state, file⟩ := found
  cases file with
  | unreadable report =>
      refine iff_of_true ⟨_, rfl, .inr ⟨?_, unreadableRecord_marked _ _⟩⟩ trivial
      rintro content entry ⟨⟩
  | text content =>
      unfold describe Decodes
      dsimp only
      cases loaded : reader.load content with
      | invalid report =>
          refine iff_of_true ⟨_, rfl, .inr ⟨?_, unreadableRecord_marked _ _⟩⟩ trivial
          rintro _ entry ⟨⟩ decoded
          cases loaded.symm.trans decoded
      | raises message => simp
      | decodes entry =>
          dsimp only
          constructor
          · rintro ⟨record, done, reports⟩
            obtain ⟨_, entries, ⟨⟩, decoded, intact, -⟩ | ⟨-, marked, -⟩ := reports
            · cases loaded.symm.trans decoded
              exact intact
            · obtain ⟨entries, rfl⟩ : ∃ entries, entry = .dict entries := by
                obtain ⟨entries, _, _, _, _, _, _, isDict, -⟩ := project_eq_ok_iff.mp done
                exact ⟨entries, isDict⟩
              exact absurd marked (project_spec done).2
          · intro intact
            obtain ⟨record, done⟩ := project_ok_iff.mpr intact.listable
            cases entry with
            | dict entries =>
                exact ⟨record, done, .inl ⟨content, entries, rfl, loaded, intact,
                  project_spec done⟩⟩
            | _ => exact intact.elim

/-- The listing returns, with one record for every file, which reports it as it should. -/
def ListsEverything (reader : EntryReader) (names : List Text) (files : Text → Option EntryFile) :
    Prop :=
  ∃ records, reader.list names files = .ok records ∧
    List.Forall₂ reader.Reports (foundEntries names files) records

/-- The listing returns if and only if every document has the keys that are read, and it
reports every file if and only if every document is intact. -/
theorem listing_reports_everything_iff (reader : EntryReader) (names : List Text)
    (files : Text → Option EntryFile) :
    ((∃ records, reader.list names files = .ok records) ↔
        ∀ found ∈ foundEntries names files, reader.Decodes Value.Listable found.file) ∧
      (reader.ListsEverything names files ↔
        ∀ found ∈ foundEntries names files, reader.Decodes Value.Intact found.file) := by
  constructor
  · unfold list
    rw [Except.exists_mapM_ok_iff]
    exact forall₂_congr fun found _ => describe_ok_iff
  · unfold ListsEverything list
    rw [Except.exists_mapM_ok_forall₂_iff]
    exact forall₂_congr fun found _ => describe_reports_iff

end EntryReader

/-! ## An entry that hides another one -/

/-- A reader that knows no document but the empty list. -/
def sampleReader : EntryReader where
  load text :=
    if text = "[]".toList then .decodes (.list []) else .invalid (PyStr.lit "JSONDecodeError")
  str _ := []

/-- An empty file, and a file with an empty list. -/
def sampleQueue (name : Text) : Option EntryFile :=
  if name = "1.json".toList then some (.text [])
  else if name = "2.json".toList then some (.text "[]".toList)
  else none

/-- An empty list in one file makes the listing raise. -/
theorem empty_list_hides_the_queue :
    ¬ sampleReader.ListsEverything ["1.json".toList, "2.json".toList] sampleQueue ∧
      sampleReader.list ["1.json".toList, "2.json".toList] sampleQueue = .error .typeError := by
  have raised : sampleReader.list ["1.json".toList, "2.json".toList] sampleQueue =
      .error .typeError := by rfl
  refine ⟨?_, raised⟩
  rintro ⟨records, done, -⟩
  rw [raised] at done
  cases done

end DataOlympus
