import DataOlympus.Document.Frontmatter
import DataOlympus.Importer.Stamp

/-!
# Drafts of a source

A source is a flat file, a directory of decision records or a bundle of concept documents.
Drafts get their ids and file names beside the ids that are in use; the records and the
concepts have an id of their own and are refused if it is taken.
-/

namespace DataOlympus.Importer

open Lines Select

/-- What `run_import` raises. -/
inductive ImportRaised where
  /-- `ImportError_`. -/
  | importError (message : Text)
  /-- An exception of the parser of front matter, of `str`, or of `in` for a set. -/
  | python (raised : Raised)
  /-- `yaml.YAMLError` of the emitter. -/
  | emitter (message : Text)
  /-- `OSError`, or `UnicodeError` where a text is decoded or encoded. -/
  | files (message : Text)

/-- `repr` of a string. -/
abbrev Repr : Type := PyStr → Text

/-- The kinds of a source. -/
inductive Kind where
  | claudeMd
  | agentsMd
  | geminiMd
  | cursorrules
  | adr
  | okf
  deriving DecidableEq

namespace Kind

/-- The name of the kind on the command line. -/
def name : Kind → Text
  | claudeMd => "claude-md".toList
  | agentsMd => "agents-md".toList
  | geminiMd => "gemini-md".toList
  | cursorrules => "cursorrules".toList
  | adr => "adr".toList
  | okf => "okf".toList

/-- `KINDS`. -/
def all : List Kind :=
  [claudeMd, agentsMd, geminiMd, cursorrules, adr, okf]

/-- `_DEFAULT_PREFIX[kind]`, for the flat kinds. -/
def defaultPrefix : Kind → Text
  | claudeMd => "CLAUDE".toList
  | agentsMd => "AGENTS".toList
  | geminiMd => "GEMINI".toList
  | cursorrules => "CURSOR".toList
  | _ => "OKF".toList

end Kind

/-! ## Concept documents -/

/-- A document of a bundle. -/
structure OkfFile where
  name : Text
  /-- `path.stem`. -/
  stem : Text
  text : Except ImportRaised Text
  oneName : '/' ∉ stem

/-- `_ALIASES`. -/
def aliases : List (String × String) :=
  [("identifier", "id"), ("uid", "id"), ("kind", "type"), ("doctype", "type"),
    ("state", "status"), ("level", "tier"), ("name", "title"), ("summary", "description"),
    ("keywords", "tags"), ("updated", "timestamp"), ("date", "timestamp")]

/-- The key that supplies a canonical field. -/
def winner (entries : Mapping) (canonical : String) : Option String :=
  (canonical :: (aliases.filter fun names => names.2 = canonical).map Prod.fst).find?
    fun key => (entries.get key).isSome

/-- A note quotes the value, which raises where `str` does: for an integer of too many digits. -/
def quotable (runtime : Runtime) (value : Value) : Except ImportRaised Unit :=
  ((runtime.str value).mapError .python).map fun _ => ()

/-- What `_apply_aliases` makes of one entry; it quotes a value that it drops. -/
def applyAlias (runtime : Runtime) (entries : Mapping) (entry : Value × Value) :
    Except ImportRaised (Option (Value × Value)) :=
  match aliases.find? fun names => entry.1.isStr (PyStr.lit names.1) with
  | none => .ok (some entry)
  | some (other, canonical) =>
      if winner entries canonical = some other then
        .ok (some (.str (PyStr.lit canonical), entry.2))
      else (quotable runtime entry.2).map fun _ => none

/-- `_apply_aliases`, without the texts of its notes. -/
def applyAliases (runtime : Runtime) (entries : Mapping) : Except ImportRaised Mapping :=
  (entries.mapM (applyAlias runtime entries)).map fun kept => kept.filterMap id

/-- `bool(fm.get(key))`. -/
def filled (entries : Mapping) (key : String) : Bool :=
  (entries.get key).any Value.truthy

/-- `value in words`, for a set of words. -/
def among (words : List String) (value : Value) : Except ImportRaised Bool :=
  if value.unhashable then .error (.python .unhashable)
  else .ok (words.any fun word => value.isStr (PyStr.lit word))

/-- `TYPES`. -/
def types : List String :=
  ["standard", "decision", "workflow", "project", "memory", "reference"]

/-- `STATUSES`. -/
def statuses : List String :=
  ["active", "accepted", "draft", "proposed", "deprecated", "superseded", "rejected"]

/-- `TIERS`. -/
def tiers : List String :=
  ["T1", "T2", "T3", "T4", "meta"]

/-- A required field: its value stays if it is one of the words, else a note quotes it. -/
def normalizeField (runtime : Runtime) (entries : Mapping) (key : String) (words : List String)
    (fallback : Text) : Except ImportRaised Mapping :=
  match (entries.get key).filter Value.truthy with
  | none => .ok (entries.set key (Value.text fallback))
  | some value => do
      if ← among words value then return entries
      quotable runtime value
      return entries.set key (Value.text fallback)

/-- The status becomes `draft`; an old one is looked up and quoted for the notes. -/
def normalizeStatus (runtime : Runtime) (entries : Mapping) : Except ImportRaised Mapping :=
  let stamped := entries.set "status" (Value.text "draft".toList)
  match (entries.get "status").filter Value.truthy with
  | none => .ok stamped
  | some value =>
      if value.isStr (PyStr.lit "draft") then .ok stamped
      else do
        let _ ← among statuses value
        quotable runtime value
        return stamped

/-- `str(fm[key])`. -/
def strAt (runtime : Runtime) (entries : Mapping) (key : String) : Except ImportRaised PyStr :=
  (runtime.str ((entries.get key).getD .null)).mapError .python

/-- `s.replace("-", " ").replace("_", " ").strip()`. -/
def spelledOut (s : PyStr) : PyStr :=
  PyStr.strip (s.map fun point =>
    if point = .scalar '-' ∨ point = .scalar '_' then .scalar ' ' else point)

/-- `_ORDER`. -/
def fieldOrder : List String :=
  ["id", "type", "status", "tier", "category", "title", "description", "tags", "timestamp",
    "generated"]

/-- `_reorder`. -/
def reorder (entries : Mapping) : Mapping :=
  (fieldOrder.filterMap fun key => (entries.get key).map fun value =>
    (Value.str (PyStr.lit key), value)) ++
    entries.filter fun entry => !fieldOrder.any fun key => entry.1.isStr (PyStr.lit key)

section Okf

variable (tables : TextTables) (runtime : Runtime)

/-- A missing title is made of the id, or of the file name. -/
def backfillTitle (entries : Mapping) (stem : Text) : Except ImportRaised Mapping :=
  if filled entries "title" then .ok entries
  else (strAt runtime entries "id").map fun docId =>
    let title := spelledOut docId
    entries.set "title" (if title.isEmpty then Value.text stem else .str title)

/-- A missing description is the first sentence, or the title. -/
def backfillDescription (entries : Mapping) (body : Text) : Except ImportRaised Mapping :=
  let sentence := firstSentence tables body
  if filled entries "description" then .ok entries
  else if sentence.isEmpty then
    (strAt runtime entries "title").map fun title => entries.set "description" (.str title)
  else .ok (entries.set "description" (Value.text sentence))

/-- The tags become a list of strings. -/
def coerceTags (entries : Mapping) : Except ImportRaised Mapping :=
  let tags : Except ImportRaised (List PyStr) :=
    match (entries.get "tags").filter Value.truthy with
    | none => (strAt runtime entries "type").map fun docType => [docType]
    | some (.list items) => (items.mapM runtime.str).mapError .python
    | some value => ((runtime.str value).mapError .python).map fun tag => [tag]
  tags.map fun tags => entries.set "tags" (.list (tags.map .str))

/-- The document gets a time of its content, unless it has one. -/
def stampGenerated (generated : Value) (entries : Mapping) : Mapping :=
  if (entries.get "generated").isSome || filled entries "timestamp" then entries
  else entries.set "generated" generated

/-- The category of the call is for documents without one. -/
def categorize (category : Option Text) (entries : Mapping) : Mapping :=
  match category.filter fun category => !category.isEmpty with
  | some category =>
      if filled entries "category" then entries
      else entries.set "category" (Value.text category)
  | none => entries

/-- `normalize_okf_doc`, without the texts of its notes. -/
def normalizeOkfDoc (defaultTier : Text) (category : Option Text) (generated : Value)
    (file : OkfFile) : Except ImportRaised (Mapping × Text) := do
  let text ← file.text
  let (raw, body) ← (runtime.parseFrontmatter (readBack text)).mapError .python
  let aliased ← applyAliases runtime raw
  let identified :=
    if filled aliased "id" then aliased else aliased.set "id" (Value.text file.stem)
  let typed ← normalizeField runtime identified "type" types "standard".toList
  let drafted ← normalizeStatus runtime typed
  let tiered ← normalizeField runtime drafted "tier" tiers defaultTier
  let titled ← backfillTitle runtime tiered file.stem
  let described ← backfillDescription tables runtime titled body
  let tagged ← coerceTags runtime described
  .ok (reorder (categorize category (stampGenerated generated tagged)), body)

end Okf

/-! ## Decision records -/

/-- A file that matches `NNNN-title.md`. -/
structure AdrFile where
  name : Text
  number : Nat
  /-- The group `slug` of the name. -/
  slug : Text
  text : Except ImportRaised Text

/-- What the text of a decision record says. -/
structure AdrDetails where
  title : Text
  description : Text
  status : Text
  supersedes : List Text
  supersededBy : Option Text

/-- `_canonical_adr_id`. -/
def canonicalAdrId (number : Nat) : Text :=
  "ADR-".toList ++ Time.padded 4 number

/-- The fields beside those that every draft has. -/
def AdrDetails.extra (details : AdrDetails) : Mapping :=
  Mapping.ofFields ([("source_status", Value.text details.status)] ++
    (match details.supersedes with
      | [] => []
      | [target] => [("supersedes", Value.text target)]
      | targets => [("supersedes", .list (targets.map Value.text))]) ++
    ((details.supersededBy.filter fun target => !target.isEmpty).elim [] fun target =>
      [("superseded_by", Value.text target)]))

/-! ## The drafts of a source -/

/-- What the source path holds, as each kind reads it. -/
structure Source where
  path : Text
  /-- `source_path.exists()`. -/
  present : Bool
  /-- The text of the source, if it is a file. -/
  flat : Option (Except ImportRaised Text)
  /-- `discover_adr_files(source)`. -/
  adr : List AdrFile
  /-- `discover_okf_files(source)`. -/
  okf : List OkfFile

/-- The options that reach the drafts. -/
structure DraftOptions where
  kind : Kind
  tier : Text
  category : Option Text
  idPrefix : Option Text
  /-- `tool_generated()`. -/
  generated : Value

/-- The characters of a string, with another mark for a lone surrogate: neither is part of a
slug. -/
def slugText (s : PyStr) : Text :=
  s.map fun
    | .scalar c => c
    | .surrogate _ => '\uFFFD'

section Drafts

variable (tables : TextTables) (runtime : Runtime) (repr : Repr)

/-- The reading of a decision record, by its number and the slug of its name. -/
abbrev AdrReader : Type := Nat → Text → Text → AdrDetails

variable (readAdr : AdrReader) (source : Source) (options : DraftOptions)

/-- The file name of a decision record, beside these. -/
def adrStem (file : AdrFile) (names : List Text) : Text :=
  uniqueStem (tables.lower (canonicalAdrId file.number) ++ '-' ::
    slugify tables file.slug "concept".toList) names

/-- The draft of a decision record. -/
def adrDraft (file : AdrFile) (body : Text) (names : List Text) : DraftDoc :=
  let details := readAdr file.number file.slug body
  { filename := adrStem tables file names ++ ".md".toList
    frontmatter := DraftFields.frontmatter {
      docId := PyStr.ofText (canonicalAdrId file.number)
      docType := "decision".toList
      tier := options.tier
      category := options.category
      title := PyStr.ofText details.title
      description := PyStr.ofText details.description
      tags := (tagsFromText tables (details.title ++ '\n' :: body) "decision".toList).map
        PyStr.ofText
      generated := options.generated
      extra := details.extra }
    body := body }

/-- The error for an id that is taken. -/
def collision (label : String) (docId : PyStr) (name : Text) (place : String) : ImportRaised :=
  .importError (label.toList ++ " id collision: ".toList ++ repr docId ++ " (from ".toList ++
    name ++ ") already exists in ".toList ++ place.toList)

/-- The loop of `_adr_drafts`. -/
def adrLoop : (seen : List PyStr) → (names : List Text) → List AdrFile →
    Except ImportRaised (List DraftDoc)
  | _, _, [] => .ok []
  | seen, names, file :: rest => do
      let text ← file.text
      let docId := PyStr.ofText (canonicalAdrId file.number)
      if docId ∈ seen then
        .error (collision repr "ADR" docId file.name
          "the output bundle. Resolve the duplicate ADR number or choose a fresh --out directory.")
      else
        let later ← adrLoop (docId :: seen) (adrStem tables file names :: names) rest
        .ok (adrDraft tables readAdr options file (readBack text) names :: later)

/-- The loop of `_okf_drafts`. -/
def okfLoop : (seen : List PyStr) → (names : List Text) → List OkfFile →
    Except ImportRaised (List DraftDoc)
  | _, _, [] => .ok []
  | seen, names, file :: rest => do
      let (entries, body) ← normalizeOkfDoc tables runtime options.tier options.category
        options.generated file
      let docId ← strAt runtime entries "id"
      if docId ∈ seen then
        .error (collision repr "OKF" docId file.name
          ("the output bundle or was produced by another imported doc. Give the source docs " ++
            "distinct ids or choose a fresh --out directory."))
      else
        let stem := uniqueStem (slugify tables (slugText docId) file.stem) names
        let later ← okfLoop (docId :: seen) (stem :: names) rest
        .ok (⟨stem ++ ".md".toList, entries, body⟩ :: later)

/-- The options of a flat file. -/
def DraftOptions.flat : FlatOptions where
  kind := options.kind.name
  tier := options.tier
  category := options.category
  idPrefix := (options.idPrefix.filter fun text => !text.isEmpty).getD options.kind.defaultPrefix
  generated := options.generated

/-- The drafts by kind, beside the ids that are in use. -/
def sourceDrafts (existing : List PyStr) :
    Except ImportRaised (List DraftDoc × List SkippedSection) :=
  match options.kind with
  | .adr =>
      if source.adr.isEmpty then
        .error (.importError ("no adr-tools files (NNNN-title.md) found under ".toList ++
          source.path ++ ". Point --kind adr at a doc/adr directory.".toList))
      else (adrLoop tables repr readAdr options existing [] source.adr).map fun drafts =>
        (drafts, [])
  | .okf =>
      if source.okf.isEmpty then
        .error (.importError ("no markdown files to normalize under ".toList ++ source.path))
      else (okfLoop tables runtime repr options existing [] source.okf).map fun drafts =>
        (drafts, [])
  | kind =>
      match source.flat with
      | none => .error (.importError ("--kind ".toList ++ kind.name ++
          " expects a file, got directory ".toList ++ source.path))
      | some (.error raised) => .error raised
      | some (.ok text) => .ok (flatDrafts tables options.flat existing (readBack text))

end Drafts

end DataOlympus.Importer
