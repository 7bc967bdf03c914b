import DataOlympus.Control.Except
import DataOlympus.Document.Frontmatter
import DataOlympus.Document.Validity

/-!
# Documents as the index parses them

`parse_text_checked` reads every field of the front matter leniently: a value of
the wrong shape becomes text or is dropped, and only `str` itself can raise.  The
`validity` block fails open as a whole when one of its dates is malformed.
-/

namespace DataOlympus

open Lines

/-- The fields the index keeps of one document. -/
structure ParsedDoc where
  id : PyStr
  tier : PyStr
  category : PyStr
  tags : List PyStr
  title : PyStr
  body : Text
  gitRemoteUrl : Option PyStr
  status : PyStr
  docType : PyStr
  appliesWhen : List PyStr
  description : PyStr
  supersedes : List PyStr
  supersededBy : Option PyStr
  contradicts : List PyStr
  derivedFrom : List PyStr
  validFrom : Option Date
  validUntil : Option Date
  lastVerified : Option Date
  recheckBy : Option Date
  verificationSource : PyStr
  validityMalformed : Bool

/-- What `_parse_validity` returns. -/
structure Validity where
  validFrom : Option Date
  validUntil : Option Date
  lastVerified : Option Date
  recheckBy : Option Date
  verificationSource : PyStr
  malformed : Bool

/-- The block that fails open, malformed or absent. -/
def Validity.open (malformed : Bool) : Validity :=
  ⟨none, none, none, none, [], malformed⟩

/-- `fm.get(key)` when it is a string that is not blank. -/
def Mapping.nonblank (entries : Mapping) (key : String) : Option PyStr :=
  match entries.get key with
  | some (.str s) => if s.blank then none else some s
  | _ => none

/-- The explicit `id`, or the empty string where the index drops it. -/
def Mapping.explicitId (entries : Mapping) : PyStr :=
  match entries.get "id" with
  | some (.str s) => if CodePoint.scalar ':' ∈ s then [] else s
  | _ => []

namespace Runtime

variable (runtime : Runtime)

/-- `str(fm.get(key, ""))`. -/
def fieldStr (entries : Mapping) (key : String) : Except Raised PyStr :=
  match entries.get key with
  | none => .ok []
  | some value => runtime.str value

/-- `str(fm.get(key)) if fm.get(key) is not None else ""`. -/
def optionalStr (entries : Mapping) (key : String) : Except Raised PyStr :=
  match entries.present key with
  | none => .ok []
  | some value => runtime.str value

/-- `_as_str_list(fm.get(key, []))`. -/
def asStrList (entries : Mapping) (key : String) : Except Raised (List PyStr) :=
  match entries.get key with
  | some (.list items) => items.mapM runtime.str
  | _ => .ok []

/-- `_as_id_list(fm.get(key))`. -/
def asIdList (entries : Mapping) (key : String) : Except Raised (List PyStr) :=
  match entries.get key with
  | some (.list items) => items.mapM runtime.str
  | some (.str s) => .ok (if s.blank then [] else [s])
  | _ => .ok []

/-- `validity.get(key)` normalized. -/
def validityDate (block : Mapping) (key : String) : Option Date × Bool :=
  runtime.normalizeValidityDate (block.get key)

/-- One of the date fields of a `validity` block is malformed. -/
def validityMalformed (block : Mapping) : Bool :=
  ["valid_from", "valid_until", "last_verified", "recheck_by"].any fun key =>
    (runtime.validityDate block key).2

/-- `_parse_validity(validity)`. -/
def parseValidity : Option Value → Except Raised Validity
  | none => .ok (Validity.open false)
  | some .null => .ok (Validity.open false)
  | some (.dict block) =>
      if runtime.validityMalformed block then .ok (Validity.open true)
      else do
        let source ← runtime.optionalStr block "verification_source"
        return {
          validFrom := (runtime.validityDate block "valid_from").1
          validUntil := (runtime.validityDate block "valid_until").1
          lastVerified := (runtime.validityDate block "last_verified").1
          recheckBy := (runtime.validityDate block "recheck_by").1
          verificationSource := source
          malformed := false }
  | some _ => .ok (Validity.open true)

/-- The document `parse_text_checked` builds from a front matter and a body. -/
def parsedDoc (entries : Mapping) (body : Text) : Except Raised ParsedDoc := do
  let validity ← runtime.parseValidity (entries.get "validity")
  return {
    id := entries.explicitId
    tier := ← runtime.fieldStr entries "tier"
    category := ← runtime.fieldStr entries "category"
    tags := ← runtime.asStrList entries "tags"
    title := ← runtime.fieldStr entries "title"
    body := body
    gitRemoteUrl := entries.nonblank "git_remote_url"
    status := ← runtime.fieldStr entries "status"
    docType := ← runtime.fieldStr entries "type"
    appliesWhen := ← runtime.asStrList entries "applies_when"
    description := ← runtime.optionalStr entries "description"
    supersedes := ← runtime.asIdList entries "supersedes"
    supersededBy := entries.nonblank "superseded_by"
    contradicts := ← runtime.asIdList entries "contradicts"
    derivedFrom := ← runtime.asIdList entries "derived_from"
    validFrom := validity.validFrom
    validUntil := validity.validUntil
    lastVerified := validity.lastVerified
    recheckBy := validity.recheckBy
    verificationSource := validity.verificationSource
    validityMalformed := validity.malformed }

/-- The document holds in each field what its own reading of the front matter
returns. -/
structure ParsedFrom (entries : Mapping) (body : Text) (validity : Validity)
    (doc : ParsedDoc) : Prop where
  id : doc.id = entries.explicitId
  tier : runtime.fieldStr entries "tier" = .ok doc.tier
  category : runtime.fieldStr entries "category" = .ok doc.category
  tags : runtime.asStrList entries "tags" = .ok doc.tags
  title : runtime.fieldStr entries "title" = .ok doc.title
  body : doc.body = body
  gitRemoteUrl : doc.gitRemoteUrl = entries.nonblank "git_remote_url"
  status : runtime.fieldStr entries "status" = .ok doc.status
  docType : runtime.fieldStr entries "type" = .ok doc.docType
  appliesWhen : runtime.asStrList entries "applies_when" = .ok doc.appliesWhen
  description : runtime.optionalStr entries "description" = .ok doc.description
  supersedes : runtime.asIdList entries "supersedes" = .ok doc.supersedes
  supersededBy : doc.supersededBy = entries.nonblank "superseded_by"
  contradicts : runtime.asIdList entries "contradicts" = .ok doc.contradicts
  derivedFrom : runtime.asIdList entries "derived_from" = .ok doc.derivedFrom
  validityOk : runtime.parseValidity (entries.get "validity") = .ok validity
  validFrom : doc.validFrom = validity.validFrom
  validUntil : doc.validUntil = validity.validUntil
  lastVerified : doc.lastVerified = validity.lastVerified
  recheckBy : doc.recheckBy = validity.recheckBy
  verificationSource : doc.verificationSource = validity.verificationSource
  malformed : doc.validityMalformed = validity.malformed

/-- A document is built exactly when every one of its fields can be read. -/
theorem parsedDoc_eq_ok_iff {entries : Mapping} {body : Text} {doc : ParsedDoc} :
    runtime.parsedDoc entries body = .ok doc ↔
      ∃ validity, runtime.ParsedFrom entries body validity doc := by
  unfold parsedDoc
  simp only [Except.bind_eq_ok_iff]
  constructor
  · rintro ⟨validity, validityOk, tier, tierOk, category, categoryOk, tags, tagsOk,
      title, titleOk, status, statusOk, docType, docTypeOk, appliesWhen, appliesWhenOk,
      description, descriptionOk, supersedes, supersedesOk, contradicts, contradictsOk,
      derivedFrom, derivedFromOk, last⟩
    cases last
    exact ⟨validity, {
      id := rfl, tier := tierOk, category := categoryOk, tags := tagsOk,
      title := titleOk, body := rfl, gitRemoteUrl := rfl, status := statusOk,
      docType := docTypeOk, appliesWhen := appliesWhenOk,
      description := descriptionOk, supersedes := supersedesOk, supersededBy := rfl,
      contradicts := contradictsOk, derivedFrom := derivedFromOk,
      validityOk := validityOk, validFrom := rfl, validUntil := rfl,
      lastVerified := rfl, recheckBy := rfl, verificationSource := rfl,
      malformed := rfl }⟩
  · rintro ⟨validity, read⟩
    refine ⟨validity, read.validityOk, _, read.tier, _, read.category, _, read.tags,
      _, read.title, _, read.status, _, read.docType, _, read.appliesWhen,
      _, read.description, _, read.supersedes, _, read.contradicts,
      _, read.derivedFrom, ?_⟩
    rw [← read.id, ← read.body, ← read.gitRemoteUrl, ← read.supersededBy,
      ← read.validFrom, ← read.validUntil, ← read.lastVerified, ← read.recheckBy,
      ← read.verificationSource, ← read.malformed]
    rfl

/-- `text.lstrip().startswith("---")`. -/
def opensBlock (text : Text) : Bool :=
  "---".toList.isPrefixOf (text.dropWhile isSpace)

/-- `parse_text_checked(path, text)`: the document, and whether a block was present
but broken. -/
def parseTextChecked (text : Text) : Except Raised (ParsedDoc × Bool) :=
  match runtime.parseFrontmatter text with
  | .ok (entries, body) => (runtime.parsedDoc entries body).map fun doc => (doc, false)
  | .error (.valueError _) =>
      (runtime.parsedDoc [] text).map fun doc => (doc, opensBlock text)
  | .error raised => .error raised

/-- The document of a text is built from the front matter its lenient parse
finds. -/
theorem parseTextChecked_ok {text : Text} {entries : Mapping}
    (found : runtime.lenientFrontmatter text = .ok entries) :
    ∃ body flag, runtime.parseTextChecked text =
      (runtime.parsedDoc entries body).map fun doc => (doc, flag) := by
  unfold lenientFrontmatter parseLenient at found
  unfold parseTextChecked
  cases parsed : runtime.parseFrontmatter text with
  | ok result =>
      simp only [parsed, Except.map, Except.ok.injEq] at found
      exact ⟨result.2, false, by rw [← found]⟩
  | error raised =>
      cases raised with
      | valueError message =>
          simp only [parsed, Except.map, Except.ok.injEq] at found
          exact ⟨text, opensBlock text, by rw [← found]⟩
      | unhashable => simp [parsed, Except.map] at found
      | loader message => simp [parsed, Except.map] at found

/-- When the lenient parse raises, so does the parse of the document. -/
theorem parseTextChecked_error {text : Text} {raised : Raised}
    (failed : runtime.lenientFrontmatter text = .error raised) :
    runtime.parseTextChecked text = .error raised := by
  unfold lenientFrontmatter parseLenient at failed
  unfold parseTextChecked
  cases parsed : runtime.parseFrontmatter text with
  | ok result => simp [parsed, Except.map] at failed
  | error found =>
      cases found with
      | valueError message => simp [parsed, Except.map] at failed
      | unhashable => simpa [parsed, Except.map] using failed
      | loader message => simpa [parsed, Except.map] using failed

end Runtime

end DataOlympus
