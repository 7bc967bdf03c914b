import DataOlympus.Document.Render
import DataOlympus.Importer.Flat
import DataOlympus.Python.Clock
import DataOlympus.Select.Fresh
import DataOlympus.Text.Case
import DataOlympus.Text.Match

/-!
# Stamping drafts

Titles, descriptions, tags, ids and file names of the drafts of a flat file.  Each section that
is long enough becomes one draft, and every other one is reported.
-/

namespace DataOlympus.Importer

open Lines Select

/-- The tables of the Unicode standard, and `\d`. -/
structure TextTables extends Unicode where
  isDecimal : Char → Bool

section Texts

/-- `title_from_heading`. -/
def titleFromHeading (heading fallback : Text) : Text :=
  let emphasis := "*_`".toList
  let inner := ((strip heading).dropWhile (· ∈ emphasis)).rdropWhile (· ∈ emphasis)
  let title := strip inner
  if title.isEmpty then fallback else title

variable (tables : TextTables)

/-- A line without its list marker. -/
def dropMarker (line : Text) : Text :=
  let number := line.takeWhile tables.isDecimal
  match line.drop number.length with
  | mark :: c :: rest =>
      if (if number.isEmpty then mark ∈ "-*+".toList else mark ∈ ".)".toList) && isSpace c then
        rest.dropWhile isSpace
      else line
  | _ => line

/-- The text up to the first blank behind a mark that ends a sentence. -/
def upToSentenceEnd : (before : Option Char) → Text → Text
  | _, [] => []
  | before, c :: rest =>
      if before.any (· ∈ ".!?".toList) && isSpace c then []
      else c :: upToSentenceEnd (some c) rest

/-- Each run of other characters becomes one mark. -/
def replaceRuns (keep : Char → Bool) (mark : Char) : (inside : Bool) → Text → Text
  | _, [] => []
  | inside, c :: rest =>
      if keep c then c :: replaceRuns keep mark false rest
      else if inside then replaceRuns keep mark true rest
      else mark :: replaceRuns keep mark true rest

/-- A description of at most 200 characters. -/
def sentenceOf (line : Text) : Text :=
  let sentence := replaceRuns (fun c => !isSpace c) ' ' false
    (strip (upToSentenceEnd none line))
  if 200 < sentence.length then (sentence.take 199).rdropWhile isSpace ++ ['…'] else sentence

/-- `first_sentence`. -/
def firstSentence (body : Text) : Text :=
  let lines := (splitlines body).filterMap fun raw =>
    if isBlank raw || (headingText raw).isSome then none
    else
      let line := dropMarker tables (strip raw)
      if line.isEmpty then none else some (sentenceOf line)
  lines.head?.getD []

/-- `_TAG_KEYWORDS`. -/
def tagKeywords : List (String × String) :=
  [("security", "security"), ("secret", "security"), ("credential", "security"),
    ("auth", "auth"), ("test", "testing"), ("git", "git"), ("commit", "git"),
    ("deploy", "deployment"), ("kubernetes", "kubernetes"), ("k8s", "kubernetes"),
    ("docker", "docker"), ("database", "database"), ("sql", "database"), ("api", "api"),
    ("style", "style"), ("format", "style"), ("review", "review"), ("workflow", "workflow"),
    ("python", "python"), ("typescript", "typescript"), ("documentation", "docs")]

/-- `tags_from_text`. -/
def tagsFromText (text fallback : Text) : List Text :=
  let lowered := tables.lower text
  let seen := tagKeywords.foldl (fun seen entry =>
    if (find entry.1.toList lowered).isSome && !seen.contains entry.2.toList then
      seen ++ [entry.2.toList]
    else seen) []
  if seen.isEmpty then [fallback] else seen

/-- A text without these characters around it. -/
def stripChar (mark : Char) (text : Text) : Text :=
  (text.dropWhile (· = mark)).rdropWhile (· = mark)

/-- A character of a slug. -/
def isSlugChar (c : Char) : Bool :=
  ('a' ≤ c && c ≤ 'z') || ('0' ≤ c && c ≤ '9')

/-- `slugify`. -/
def slugify (text fallback : Text) : Text :=
  let slug := stripChar '-' (replaceRuns isSlugChar '-' false (tables.lower text))
  if slug.isEmpty then fallback else slug

end Texts

/-- `sanitize_id_prefix`. -/
def sanitizeIdPrefix (idPrefix : Text) : Text :=
  let cleaned := stripChar '-' (replaceRuns (fun c => isSlugChar c.toLower) '-' false idPrefix)
  if cleaned.isEmpty then "IMP".toList else cleaned

/-! ## Ids and file names -/

/-- `IdAllocator`. -/
structure IdAllocator where
  idPrefix : Text
  used : List PyStr
  counter : Nat

/-- The id of this number. -/
def IdAllocator.candidate (alloc : IdAllocator) (number : Nat) : Text :=
  alloc.idPrefix ++ '-' :: Time.padded 3 number

/-- `IdAllocator(prefix, existing)`. -/
def IdAllocator.new (idPrefix : Text) (existing : List PyStr) : IdAllocator :=
  ⟨sanitizeIdPrefix idPrefix, existing, 0⟩

/-- `next`. -/
def IdAllocator.next (alloc : IdAllocator) : Text × IdAllocator :=
  let counter := freshFrom (fun number => PyStr.ofText (alloc.candidate number)) alloc.used
    (alloc.counter + 1)
  (alloc.candidate counter,
    { alloc with used := PyStr.ofText (alloc.candidate counter) :: alloc.used
                 counter := counter })

/-- The names that `_unique_stem` tries. -/
def stemCandidate (stem : Text) : Nat → Text
  | 0 => if stem.isEmpty then "concept".toList else stem
  | n + 1 => stem ++ '-' :: Nat.toDigits 10 (n + 2)

/-- `_unique_stem`, but for the note that the name is used. -/
def uniqueStem (stem : Text) (used : List Text) : Text :=
  stemCandidate stem (freshFrom (stemCandidate stem) used 0)

theorem IdAllocator.candidate_injective (alloc : IdAllocator) :
    (fun number => PyStr.ofText (alloc.candidate number)).Injective := by
  intro first second same
  have digits := List.append_cancel_left (PyStr.ofText_injective same)
  exact Time.padded_injective 3 (List.cons.inj digits).2

theorem toDigits_injective : (Nat.toDigits 10).Injective := by
  intro first second same
  have read := congrArg (fun digits => Nat.ofDigitChars 10 digits 0) same
  simpa only [Nat.ofDigitChars_ten_toDigits] using read

theorem stemCandidate_injective (stem : Text) : (stemCandidate stem).Injective := by
  have differs : ∀ n, stemCandidate stem 0 ≠ stemCandidate stem (n + 1) := by
    intro n same
    cases stem with
    | nil =>
        have first := congrArg List.head? same
        simp [stemCandidate] at first
    | cons c rest =>
        have longer := congrArg List.length same
        simp only [stemCandidate, List.isEmpty_cons, Bool.false_eq_true, if_false,
          List.length_append, List.length_cons] at longer
        omega
  intro first second same
  cases first with
  | zero =>
      cases second with
      | zero => rfl
      | succ n => exact absurd same (differs n)
  | succ m =>
      cases second with
      | zero => exact absurd same.symm (differs m)
      | succ n =>
          have digits := List.append_cancel_left same
          have numbers := toDigits_injective (List.cons.inj digits).2
          omega

theorem uniqueStem_not_mem (stem : Text) (used : List Text) : uniqueStem stem used ∉ used :=
  candidate_freshFrom_not_mem (stemCandidate_injective stem) used 0

/-! ## Drafts -/

/-- The fields of a draft that `build_frontmatter` puts into a mapping. -/
structure DraftFields where
  docId : PyStr
  docType : Text
  tier : Text
  category : Option Text
  title : PyStr
  description : PyStr
  tags : List PyStr
  /-- `tool_generated()`. -/
  generated : Value
  extra : Mapping

/-- A text as a value. -/
def Value.text (text : Text) : Value :=
  .str (PyStr.ofText text)

/-- `build_frontmatter(…)` of a draft. -/
def DraftFields.frontmatter (fields : DraftFields) : Mapping :=
  Mapping.ofFields ([("id", .str fields.docId), ("type", Value.text fields.docType),
    ("status", Value.text "draft".toList), ("tier", Value.text fields.tier)] ++
      ((fields.category.filter fun category => !category.isEmpty).elim [] fun category =>
        [("category", Value.text category)]) ++
      [("title", .str fields.title), ("description", .str fields.description),
        ("tags", .list (fields.tags.map .str)), ("generated", fields.generated)]) ++
    fields.extra

/-- `DraftDoc`. -/
structure DraftDoc where
  filename : Text
  frontmatter : Mapping
  body : Text

/-- `SkippedSection`. -/
structure SkippedSection where
  heading : Text
  reason : Text

/-- `render_document`. -/
def renderDocument (safeDump : Mapping → Text) (frontmatter : Mapping) (body : Text) : Text :=
  "---\n".toList ++ (safeDump frontmatter ++
    ("---\n\n".toList ++ (body.rdropWhile (· = '\n') ++ ['\n'])))

/-- The options of an import of a flat file. -/
structure FlatOptions where
  kind : Text
  tier : Text
  category : Option Text
  idPrefix : Text
  generated : Value

section Drafts

variable (tables : TextTables) (options : FlatOptions)

/-- `kind.replace("-md", "")`. -/
def fallbackTag (kind : Text) : Text :=
  match find "-md".toList kind with
  | none => kind
  | some place => kind.take place ++ kind.drop (place + 3)

/-- The file name of a section with this id, beside these. -/
def flatStem (sec : Section) (docId : Text) (names : List Text) : Text :=
  uniqueStem (slugify tables (titleFromHeading sec.heading docId) (tables.lower docId)) names

/-- The draft of a section with this id, beside these file names. -/
def flatDraft (sec : Section) (docId : Text) (names : List Text) : DraftDoc :=
  let title := titleFromHeading sec.heading docId
  let sentence := firstSentence tables sec.body
  { filename := flatStem tables sec docId names ++ ".md".toList
    frontmatter := DraftFields.frontmatter {
      docId := PyStr.ofText docId
      docType := "standard".toList
      tier := options.tier
      category := options.category
      title := PyStr.ofText title
      description := PyStr.ofText (if sentence.isEmpty then title else sentence)
      tags := (tagsFromText tables (sec.heading ++ '\n' :: sec.body)
        (fallbackTag options.kind)).map PyStr.ofText
      generated := options.generated
      extra := [] }
    body := sec.body }

/-- The loop of `_flat_drafts`. -/
def flatLoop : IdAllocator → (names : List Text) → List Section →
    List DraftDoc × List SkippedSection
  | _, _, [] => ([], [])
  | alloc, names, sec :: rest =>
      if sec.bodyLen < minBodyChars then
        let later := flatLoop alloc names rest
        (later.1, ⟨sec.heading, "body too short (".toList ++ Nat.toDigits 10 sec.bodyLen ++
          " < ".toList ++ Nat.toDigits 10 minBodyChars ++ " chars)".toList⟩ :: later.2)
      else
        let later := flatLoop alloc.next.2 (flatStem tables sec alloc.next.1 names :: names) rest
        (flatDraft tables options sec alloc.next.1 names :: later.1, later.2)

/-- `_flat_drafts` of a text. -/
def flatDrafts (existing : List PyStr) (text : Text) : List DraftDoc × List SkippedSection :=
  flatLoop tables options (IdAllocator.new options.idPrefix existing) [] (splitFlat text)

end Drafts

/-! ## Every section is a draft or reported -/

/-- `str(draft.frontmatter["id"])`. -/
def DraftDoc.docId (draft : DraftDoc) : Option PyStr :=
  match draft.frontmatter.get "id" with
  | some (.str docId) => some docId
  | _ => none

theorem DraftFields.docId_frontmatter (fields : DraftFields) :
    fields.frontmatter.get "id" = some (.str fields.docId) := by
  unfold frontmatter
  rw [List.cons_append, List.cons_append, Mapping.ofFields, List.map_cons, List.cons_append,
    Mapping.get_cons, if_pos (Value.isStr_iff.mpr rfl)]

section Drafts

variable (tables : TextTables) (options : FlatOptions)

/-- The section is long enough. -/
def Section.long (sec : Section) : Bool :=
  minBodyChars ≤ sec.bodyLen

/-- Every section becomes one draft or one report, in order, and the drafts have ids and file
names that are new. -/
structure Accounted (existing : List PyStr) (names : List Text) (sections : List Section)
    (result : List DraftDoc × List SkippedSection) : Prop where
  drafts : result.1.map DraftDoc.body = (sections.filter Section.long).map Section.body
  skipped : result.2.map SkippedSection.heading =
    (sections.filter fun sec => !sec.long).map Section.heading
  ids : ∃ ids : List PyStr, result.1.map DraftDoc.docId = ids.map some ∧ ids.Nodup ∧
    ∀ docId ∈ ids, docId ∉ existing
  filenames : ∃ stems : List Text, result.1.map DraftDoc.filename =
    stems.map (· ++ ".md".toList) ∧ stems.Nodup ∧ ∀ stem ∈ stems, stem ∉ names

theorem flatLoop_accounted (alloc : IdAllocator) (names : List Text) (sections : List Section) :
    Accounted alloc.used names sections (flatLoop tables options alloc names sections) := by
  induction sections generalizing alloc names with
  | nil =>
      refine ⟨rfl, rfl, ⟨[], rfl, List.nodup_nil, by simp⟩, ⟨[], rfl, List.nodup_nil, by simp⟩⟩
  | cons sec rest ih =>
      rw [flatLoop]
      split
      · rename_i short
        have dropped : sec.long = false := by
          simpa [Section.long] using short
        have later := ih alloc names
        constructor
        · rw [List.filter_cons_of_neg (by simp [dropped])]
          exact later.drafts
        · rw [List.filter_cons_of_pos (by simp [dropped]), List.map_cons, List.map_cons,
            later.skipped]
        · exact later.ids
        · exact later.filenames
      · rename_i long
        have kept : sec.long = true := by
          simpa [Section.long] using long
        have later := ih alloc.next.2 (flatStem tables sec alloc.next.1 names :: names)
        have fresh : PyStr.ofText alloc.next.1 ∉ alloc.used :=
          candidate_freshFrom_not_mem alloc.candidate_injective alloc.used (alloc.counter + 1)
        obtain ⟨ids, found, once, unused⟩ := later.ids
        obtain ⟨stems, named, apart, free⟩ := later.filenames
        have new : ∀ docId ∈ ids, docId ≠ PyStr.ofText alloc.next.1 ∧ docId ∉ alloc.used := by
          intro docId member
          exact List.ne_and_not_mem_of_not_mem_cons (unused docId member)
        have unnamed : ∀ stem ∈ stems,
            stem ≠ flatStem tables sec alloc.next.1 names ∧ stem ∉ names := by
          intro stem member
          exact List.ne_and_not_mem_of_not_mem_cons (free stem member)
        constructor
        · rw [List.filter_cons_of_pos kept, List.map_cons, List.map_cons, later.drafts]
          rfl
        · rw [List.filter_cons_of_neg (by simp [kept])]
          exact later.skipped
        · refine ⟨PyStr.ofText alloc.next.1 :: ids, ?_, ?_, ?_⟩
          · rw [List.map_cons, found, List.map_cons, DraftDoc.docId, flatDraft,
              DraftFields.docId_frontmatter]
          · exact List.nodup_cons.mpr ⟨fun member => (new _ member).1 rfl, once⟩
          · exact List.forall_mem_cons.mpr ⟨fresh, fun docId member => (new docId member).2⟩
        · refine ⟨flatStem tables sec alloc.next.1 names :: stems, ?_, ?_, ?_⟩
          · rw [List.map_cons, named, List.map_cons]
            rfl
          · exact List.nodup_cons.mpr ⟨fun member => (unnamed _ member).1 rfl, apart⟩
          · exact List.forall_mem_cons.mpr
              ⟨uniqueStem_not_mem _ names, fun stem member => (unnamed stem member).2⟩

/-- The sections of a file have its lines that are not blank, each once and in order, a section
has no heading at which the file is split but in its first line, and every section becomes one
draft with an id and a file name of its own, or is reported. -/
theorem split_flat_is_a_partition (existing : List PyStr) (text : Text) :
    (splitFlat text).flatMap (fun sec => visibleLines sec.body) = visibleLines text ∧
      (hasHeadings text = true →
        ∃ boundary, topHeadingDepth (splitlines text) = some boundary ∧
          ∀ sec ∈ splitFlat text, HeadOnly boundary sec) ∧
      Accounted existing [] (splitFlat text) (flatDrafts tables options existing text) :=
  ⟨visibleLines_splitFlat text, headOnly_splitFlat,
    flatLoop_accounted tables options (IdAllocator.new options.idPrefix existing) []
      (splitFlat text)⟩

end Drafts

end DataOlympus.Importer
