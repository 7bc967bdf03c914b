import DataOlympus.Index.Build

/-!
# Documents the index can store

A document can be stored when `str` succeeds on every value the index turns into
text and the text of every bound column and edge can be encoded in UTF-8.  This
module reduces that to a condition on the front matter, field by field.
-/

namespace DataOlympus

open Lines

/-- Every text the index keeps of the document can be encoded. -/
structure ParsedDoc.Storable (doc : ParsedDoc) : Prop where
  id : doc.id.encodable = true
  tier : doc.tier.encodable = true
  category : doc.category.encodable = true
  tags : ∀ tag ∈ doc.tags, tag.encodable = true
  title : doc.title.encodable = true
  gitRemoteUrl : ∀ url ∈ doc.gitRemoteUrl, url.encodable = true
  status : doc.status.encodable = true
  docType : doc.docType.encodable = true
  appliesWhen : ∀ phrase ∈ doc.appliesWhen, phrase.encodable = true
  description : doc.description.encodable = true
  supersedes : ∀ target ∈ doc.supersedes, target.encodable = true
  supersededBy : ∀ target ∈ doc.supersededBy, target.encodable = true
  contradicts : ∀ target ∈ doc.contradicts, target.encodable = true
  derivedFrom : ∀ target ∈ doc.derivedFrom, target.encodable = true
  verificationSource : doc.verificationSource.encodable = true

theorem ParsedDoc.encodable_idAt {doc : ParsedDoc} (path : RelPath) :
    (doc.idAt path).encodable = true ↔ doc.id.encodable = true := by
  unfold ParsedDoc.idAt
  split_ifs with empty
  · simp [List.isEmpty_iff.mp empty]
  · rfl

/-- The text of a document or, where it is empty, of its path. -/
theorem encodable_ite_ofText {s : PyStr} {text : Text} :
    (if s.isEmpty then PyStr.ofText text else s).encodable = true ↔
      s.encodable = true := by
  split_ifs with empty
  · simp [List.isEmpty_iff.mp empty]
  · rfl

theorem ParsedFile.encodable_indexedStatus (config : IndexConfig) (file : ParsedFile) :
    (file.indexedStatus config).encodable = true ↔ file.doc.status.encodable = true := by
  unfold ParsedFile.indexedStatus
  split_ifs with autofill
  · simp only [Bool.and_eq_true, List.isEmpty_iff] at autofill
    simp [autofill.1.2]
  · rfl

/-- The insertions succeed exactly on a storable document. -/
theorem ParsedFile.storable_iff (config : IndexConfig) {file : ParsedFile}
    (docId : file.docId = file.doc.idAt file.rel) :
    file.storable config = true ↔ file.doc.Storable := by
  have space : (PyStr.lit " ").encodable = true := PyStr.encodable_lit _
  simp only [ParsedFile.storable, DocRow.storable, ParsedFile.row, ParsedFile.edges,
    Edge.storable, docId, List.all_cons, List.all_nil, List.all_append, List.all_map,
    Bool.and_true, Bool.and_eq_true, List.all_eq_true, Function.comp_apply,
    ParsedDoc.encodable_idAt, encodable_ite_ofText, ParsedFile.encodable_indexedStatus,
    PyStr.encodable_join space, Option.all_eq_true, Option.mem_toList]
  constructor
  · rintro ⟨⟨⟨id, tier, category, status, docType, appliesWhen, description, title, tags,
      source⟩, url⟩, ⟨⟨supersedes, supersededBy⟩, contradicts⟩, derivedFrom⟩
    exact {
      id := id, tier := tier, category := category, tags := tags, title := title
      gitRemoteUrl := url, status := status, docType := docType
      appliesWhen := appliesWhen, description := description
      supersedes := fun target member => (supersedes target member).2
      supersededBy := fun target member => (supersededBy target member).2
      contradicts := fun target member => (contradicts target member).2
      derivedFrom := fun target member => (derivedFrom target member).2
      verificationSource := source }
  · intro stored
    exact ⟨⟨⟨stored.id, stored.tier, stored.category, stored.status, stored.docType,
      stored.appliesWhen, stored.description, stored.title, stored.tags,
      stored.verificationSource⟩, stored.gitRemoteUrl⟩,
      ⟨⟨fun target member => ⟨stored.id, stored.supersedes target member⟩,
        fun target member => ⟨stored.id, stored.supersededBy target member⟩⟩,
        fun target member => ⟨stored.id, stored.contradicts target member⟩⟩,
        fun target member => ⟨stored.id, stored.derivedFrom target member⟩⟩

namespace Runtime

variable (runtime : Runtime)

/-- `str(value)` succeeds with a text that can be encoded. -/
def storableValue (value : Value) : Bool :=
  match runtime.str value with
  | .ok s => s.encodable
  | .error _ => false

theorem storableValue_iff {value : Value} :
    runtime.storableValue value = true ↔
      ∃ s, runtime.str value = .ok s ∧ s.encodable = true := by
  unfold storableValue
  cases runtime.str value <;> simp

/-- The value of a field can be stored as text. -/
def storableField (entries : Mapping) (key : String) : Bool :=
  (entries.get key).all runtime.storableValue

/-- The value of a field that `None` leaves out can be stored as text. -/
def storableOptional (entries : Mapping) (key : String) : Bool :=
  (entries.present key).all runtime.storableValue

/-- The items of a field that is a list can be stored as text. -/
def storableItems (entries : Mapping) (key : String) : Bool :=
  match entries.get key with
  | some (.list items) => items.all runtime.storableValue
  | _ => true

/-- The ids of a relationship field can be stored. -/
def storableIds (entries : Mapping) (key : String) : Bool :=
  match entries.get key with
  | some (.list items) => items.all runtime.storableValue
  | some (.str s) => s.blank || s.encodable
  | _ => true

/-- The verification source of a `validity` block that the index keeps can be
stored. -/
def storableValidity : Option Value → Bool
  | some (.dict block) =>
      runtime.validityMalformed block ||
        runtime.storableOptional block "verification_source"
  | _ => true

theorem storableField_iff {entries : Mapping} {key : String} :
    runtime.storableField entries key = true ↔
      ∃ s, runtime.fieldStr entries key = .ok s ∧ s.encodable = true := by
  unfold storableField fieldStr
  cases entries.get key with
  | none => simp
  | some value => simpa using runtime.storableValue_iff

theorem storableOptional_iff {entries : Mapping} {key : String} :
    runtime.storableOptional entries key = true ↔
      ∃ s, runtime.optionalStr entries key = .ok s ∧ s.encodable = true := by
  unfold storableOptional optionalStr
  cases entries.present key with
  | none => simp
  | some value => simpa using runtime.storableValue_iff

theorem storableItems_iff {entries : Mapping} {key : String} :
    runtime.storableItems entries key = true ↔
      ∃ items, runtime.asStrList entries key = .ok items ∧
        ∀ item ∈ items, item.encodable = true := by
  unfold storableItems asStrList
  cases entries.get key with
  | none => simp
  | some value =>
      cases value with
      | list items =>
          simp only [Except.exists_mapM_ok_all_iff, List.all_eq_true, storableValue_iff]
      | _ => simp

theorem storableIds_iff {entries : Mapping} {key : String} :
    runtime.storableIds entries key = true ↔
      ∃ items, runtime.asIdList entries key = .ok items ∧
        ∀ item ∈ items, item.encodable = true := by
  unfold storableIds asIdList
  cases entries.get key with
  | none => simp
  | some value =>
      cases value with
      | list items =>
          simp only [Except.exists_mapM_ok_all_iff, List.all_eq_true, storableValue_iff]
      | str s => cases blank : s.blank <;> simp [blank]
      | _ => simp

theorem storableValidity_iff {value : Option Value} :
    runtime.storableValidity value = true ↔
      ∃ validity, runtime.parseValidity value = .ok validity ∧
        validity.verificationSource.encodable = true := by
  unfold storableValidity parseValidity
  cases value with
  | none => simp [Validity.open]
  | some value =>
      cases value with
      | dict block =>
          cases malformed : runtime.validityMalformed block with
          | true => simp [malformed, Validity.open]
          | false =>
              simp only [malformed, Bool.false_or, storableOptional_iff, Bool.false_eq_true,
                if_false, Except.bind_eq_ok_iff]
              constructor
              · rintro ⟨source, sourceOk, encodable⟩
                exact ⟨_, ⟨source, sourceOk, rfl⟩, encodable⟩
              · rintro ⟨validity, ⟨source, sourceOk, built⟩, encodable⟩
                cases built
                exact ⟨source, sourceOk, encodable⟩
      | _ => simp [Validity.open]

/-- The enumerated fields can be stored. -/
def vocabularyStorable (entries : Mapping) : Bool :=
  ["type", "status", "tier"].all (runtime.storableField entries)

/-- The fields no gate looks at can be stored. -/
def uncheckedStorable (entries : Mapping) : Bool :=
  entries.explicitId.encodable &&
    ["category", "title"].all (runtime.storableField entries) &&
    runtime.storableOptional entries "description" &&
    ["tags", "applies_when"].all (runtime.storableItems entries) &&
    ["supersedes", "contradicts", "derived_from"].all (runtime.storableIds entries) &&
    ["git_remote_url", "superseded_by"].all
      (fun key => (entries.nonblank key).all PyStr.encodable) &&
    runtime.storableValidity (entries.get "validity")

/-- A front matter yields a storable document exactly when its fields can be
stored. -/
theorem exists_storable_doc_iff {entries : Mapping} {body : Text} :
    (∃ doc, runtime.parsedDoc entries body = .ok doc ∧ doc.Storable) ↔
      runtime.uncheckedStorable entries = true ∧
        runtime.vocabularyStorable entries = true := by
  simp only [uncheckedStorable, vocabularyStorable, List.all_cons, List.all_nil,
    Bool.and_true, Bool.and_eq_true, storableField_iff, storableOptional_iff,
    storableItems_iff, storableIds_iff, storableValidity_iff, Option.all_eq_true]
  constructor
  · rintro ⟨doc, built, stored⟩
    rcases runtime.parsedDoc_eq_ok_iff.mp built with ⟨validity, read⟩
    refine ⟨⟨⟨⟨⟨⟨⟨?_, ⟨_, read.category, stored.category⟩, ⟨_, read.title, stored.title⟩⟩,
      ⟨_, read.description, stored.description⟩⟩, ⟨_, read.tags, stored.tags⟩,
      ⟨_, read.appliesWhen, stored.appliesWhen⟩⟩,
      ⟨_, read.supersedes, stored.supersedes⟩, ⟨_, read.contradicts, stored.contradicts⟩,
      ⟨_, read.derivedFrom, stored.derivedFrom⟩⟩, ?_, ?_⟩, ?_⟩,
      ⟨_, read.docType, stored.docType⟩, ⟨_, read.status, stored.status⟩,
      ⟨_, read.tier, stored.tier⟩⟩
    · exact read.id ▸ stored.id
    · exact read.gitRemoteUrl ▸ stored.gitRemoteUrl
    · exact read.supersededBy ▸ stored.supersededBy
    · exact ⟨validity, read.validityOk, read.verificationSource ▸ stored.verificationSource⟩
  · rintro ⟨⟨⟨⟨⟨⟨⟨id, ⟨category, categoryOk, categoryGood⟩, ⟨title, titleOk, titleGood⟩⟩,
      ⟨description, descriptionOk, descriptionGood⟩⟩, ⟨tags, tagsOk, tagsGood⟩,
      ⟨appliesWhen, appliesWhenOk, appliesWhenGood⟩⟩,
      ⟨supersedes, supersedesOk, supersedesGood⟩,
      ⟨contradicts, contradictsOk, contradictsGood⟩,
      ⟨derivedFrom, derivedFromOk, derivedFromGood⟩⟩, url, supersededBy⟩,
      ⟨validity, validityOk, sourceGood⟩⟩, ⟨docType, docTypeOk, docTypeGood⟩,
      ⟨status, statusOk, statusGood⟩, ⟨tier, tierOk, tierGood⟩⟩
    refine ⟨{
      id := entries.explicitId, tier := tier, category := category, tags := tags
      title := title, body := body
      gitRemoteUrl := entries.nonblank "git_remote_url", status := status
      docType := docType, appliesWhen := appliesWhen, description := description
      supersedes := supersedes, supersededBy := entries.nonblank "superseded_by"
      contradicts := contradicts, derivedFrom := derivedFrom
      validFrom := validity.validFrom, validUntil := validity.validUntil
      lastVerified := validity.lastVerified, recheckBy := validity.recheckBy
      verificationSource := validity.verificationSource
      validityMalformed := validity.malformed }, ?_, ?_⟩
    · exact runtime.parsedDoc_eq_ok_iff.mpr ⟨validity, {
        id := rfl, tier := tierOk, category := categoryOk, tags := tagsOk
        title := titleOk, body := rfl, gitRemoteUrl := rfl, status := statusOk
        docType := docTypeOk, appliesWhen := appliesWhenOk
        description := descriptionOk, supersedes := supersedesOk, supersededBy := rfl
        contradicts := contradictsOk, derivedFrom := derivedFromOk
        validityOk := validityOk, validFrom := rfl, validUntil := rfl
        lastVerified := rfl, recheckBy := rfl, verificationSource := rfl
        malformed := rfl }⟩
    · exact {
        id := id, tier := tierGood, category := categoryGood, tags := tagsGood
        title := titleGood, gitRemoteUrl := url, status := statusGood
        docType := docTypeGood, appliesWhen := appliesWhenGood
        description := descriptionGood, supersedes := supersedesGood
        supersededBy := supersededBy, contradicts := contradictsGood
        derivedFrom := derivedFromGood, verificationSource := sourceGood }

/-- The build can read and store a file exactly when the front matter it finds in it
can be stored. -/
theorem storable_iff (config : IndexConfig) {path : RelPath} {committed : Text} :
    runtime.Storable config path committed ↔
      ∃ entries, runtime.lenientFrontmatter (readBack committed) = .ok entries ∧
        runtime.uncheckedStorable entries = true ∧
        runtime.vocabularyStorable entries = true := by
  constructor
  · rintro ⟨file, parsed, stored⟩
    rcases Except.map_eq_ok_iff.mp parsed with ⟨result, raw, rfl⟩
    rw [Except.mapError_eq_ok_iff] at raw
    have docStored := (ParsedFile.storable_iff config rfl).mp stored
    cases found : runtime.lenientFrontmatter (readBack committed) with
    | error raised =>
        rw [runtime.parseTextChecked_error found] at raw
        cases raw
    | ok entries =>
        rcases runtime.parseTextChecked_ok found with ⟨body, flag, checked⟩
        rw [checked] at raw
        rcases Except.map_eq_ok_iff.mp raw with ⟨doc, docOk, rfl⟩
        exact ⟨entries, rfl, runtime.exists_storable_doc_iff.mp ⟨doc, docOk, docStored⟩⟩
  · rintro ⟨entries, found, fields⟩
    rcases runtime.parseTextChecked_ok found with ⟨body, flag, checked⟩
    have built : ∃ doc, runtime.parsedDoc entries body = .ok doc ∧ doc.Storable :=
      runtime.exists_storable_doc_iff.mpr fields
    rcases built with ⟨doc, docOk, docStored⟩
    refine ⟨_, Except.map_eq_ok_iff.mpr ⟨(doc, flag), ?_, rfl⟩, ?_⟩
    · rw [Except.mapError_eq_ok_iff, checked, docOk]
      rfl
    · exact (ParsedFile.storable_iff config rfl).mpr docStored

end Runtime

end DataOlympus
