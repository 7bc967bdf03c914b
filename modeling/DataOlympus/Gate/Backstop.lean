import DataOlympus.Gate.GovernedLane

/-!
# The base-content backstop and the index

The backstop judges the bytes an edit would replace.  The index judges the same
bytes with two differences: a document without a status is indexed as active, and a
`validity` block with one malformed date is dropped as a whole.  This module says
for which documents the two verdicts can differ.
-/

namespace DataOlympus

open Lines

namespace Mapping

/-- The status column would be empty: the field is absent or the empty string. -/
def statusMissing (entries : Mapping) : Bool :=
  match entries.get "status" with
  | none => true
  | some (.str s) => s.isEmpty
  | some _ => false

end Mapping

namespace Runtime

variable (runtime : Runtime)

/-- The window the index keeps: none at all once one date is malformed. -/
def blockWindow : Option Value → Option Date × Option Date
  | some (.dict block) =>
      if runtime.validityMalformed block then (none, none)
      else runtime.fieldWindow (some (.dict block))
  | _ => (none, none)

/-- `today` lies in a window. -/
def windowOpen (window : Option Date × Option Date) (today : Date) : Bool :=
  inWindow window.1 window.2 today

theorem parseValidity_window {value : Option Value} {validity : Validity}
    (parsed : runtime.parseValidity value = .ok validity) :
    (validity.validFrom, validity.validUntil) = runtime.blockWindow value := by
  unfold parseValidity at parsed
  unfold blockWindow
  split at parsed
  · cases parsed
    rfl
  · cases parsed
    rfl
  · rename_i block
    by_cases malformed : runtime.validityMalformed block = true
    · rw [if_pos malformed] at parsed
      cases parsed
      simp [malformed, Validity.open]
    · rw [if_neg malformed] at parsed
      rcases Except.bind_eq_ok_iff.mp parsed with ⟨source, -, built⟩
      cases built
      simp [malformed, fieldWindow]
  · rename_i notNull notDict
    cases parsed
    split
    · rename_i block same
      exact absurd (Option.some.inj same) (notDict block)
    · rfl

/-- A field drops out of the window of the backstop only with its whole block. -/
theorem blockWindow_eq {value : Option Value}
    (wellFormed : ∀ block, value = some (.dict block) →
      runtime.validityMalformed block = false) :
    runtime.blockWindow value = runtime.fieldWindow value := by
  unfold blockWindow
  split
  · rename_i block
    rw [wellFormed block rfl, if_neg Bool.false_ne_true]
  · unfold fieldWindow
    split
    · rename_i block notDict
      exact absurd rfl (notDict block)
    · rfl

/-- A malformed block closes no window in the index. -/
theorem blockWindow_malformed {block : Mapping}
    (malformed : runtime.validityMalformed block = true) :
    runtime.blockWindow (some (.dict block)) = (none, none) := by
  simp [blockWindow, malformed]

/-- The status column holds an in-force word exactly when the front matter claims
one. -/
theorem status_mem_inForce_iff {entries : Mapping} {status : PyStr}
    (text : runtime.fieldStr entries "status" = .ok status) :
    status ∈ inForceStatuses ↔ entries.claimedStatus ∈ inForceStatuses := by
  unfold fieldStr at text
  unfold Mapping.claimedStatus
  cases found : entries.get "status" with
  | none =>
      simp only [found, Except.ok.injEq] at text
      rw [← text]
  | some value =>
      simp only [found] at text
      constructor
      · intro inClass
        have isText := runtime.eq_str_of_mem_inForceStatuses text inClass
        subst value
        exact inClass
      · intro inClass
        split at inClass
        · rename_i claimed same
          cases same
          cases text
          exact inClass
        · exact absurd inClass (by decide)

/-- The status column is empty exactly when the status is missing. -/
theorem status_eq_nil_iff {entries : Mapping} {status : PyStr}
    (text : runtime.fieldStr entries "status" = .ok status) :
    status = [] ↔ entries.statusMissing = true := by
  unfold fieldStr at text
  unfold Mapping.statusMissing
  cases found : entries.get "status" with
  | none =>
      simp only [found, Except.ok.injEq] at text
      simp [← text]
  | some value =>
      simp only [found] at text
      constructor
      · intro empty
        subst status
        have isText := runtime.eq_str_of_str_eq_nil text
        subst value
        rfl
      · intro missing
        split at missing
        · contradiction
        · rename_i s same
          cases same
          cases text
          exact List.isEmpty_iff.mp missing
        · contradiction

variable (config : IndexConfig)

/-- The front matter by which the index keeps `path` in force today. -/
def indexInForce (entries : Mapping) (path : RelPath) (today : Date) : Prop :=
  path.isInbox config.inboxPrefix = false ∧
    (entries.claimedStatus ∈ inForceStatuses ∨
      config.statusAutofill = true ∧ path.isReserved = false ∧
        entries.statusMissing = true) ∧
    windowOpen (runtime.blockWindow (entries.get "validity")) today = true

instance (entries : Mapping) (path : RelPath) (today : Date) :
    Decidable (runtime.indexInForce config entries path today) :=
  inferInstanceAs (Decidable (_ ∧ _))

/-- The row of a parsed document is in force exactly when its front matter says
so. -/
theorem row_inForce_iff {entries : Mapping} {body : Text} {doc : ParsedDoc}
    (built : runtime.parsedDoc entries body = .ok doc) {file : ParsedFile}
    (fileDoc : file.doc = doc) {today : Date} :
    (file.row config).inForce today = true ↔
      runtime.indexInForce config entries file.rel today := by
  rcases runtime.parsedDoc_eq_ok_iff.mp built with ⟨validity, read⟩
  have window := runtime.parseValidity_window read.validityOk
  have inClass := runtime.status_mem_inForce_iff read.status
  have missing := runtime.status_eq_nil_iff read.status
  have column : file.indexedStatus config ∈ inForceStatuses ↔
      entries.claimedStatus ∈ inForceStatuses ∨
        config.statusAutofill = true ∧ file.rel.isReserved = false ∧
          entries.statusMissing = true := by
    unfold ParsedFile.indexedStatus
    rw [fileDoc, ← inClass, ← missing]
    have activeInClass : PyStr.lit "active" ∈ inForceStatuses := by decide
    have emptyOutside : ([] : PyStr) ∉ inForceStatuses := by decide
    split_ifs with autofill
    · simp only [Bool.and_eq_true, Bool.not_eq_true', List.isEmpty_iff] at autofill
      simp [activeInClass, autofill]
    · constructor
      · exact Or.inl
      · rintro (claimed | ⟨on, notReserved, empty⟩)
        · exact claimed
        · exact absurd (by simp [on, notReserved, empty]) autofill
  rw [DocRow.inForce, isInForce_iff, indexInForce, ← window, ← column]
  simp [ParsedFile.row, fileDoc, read.validFrom, read.validUntil, windowOpen]

/-- Where the verdict of the backstop covers the verdict of the index: the document
is not in force by autofill alone, and no malformed date in its `validity` block
hides a window that its well-formed dates have closed. -/
def BackstopCovers (entries : Mapping) (path : RelPath) (today : Date) : Prop :=
  path.isInbox config.inboxPrefix = true ∨
    ¬(config.statusAutofill = true ∧ path.isReserved = false ∧
        entries.statusMissing = true ∧
        windowOpen (runtime.blockWindow (entries.get "validity")) today = true) ∧
      ∀ block, entries.get "validity" = some (.dict block) →
        runtime.validityMalformed block = true →
        entries.claimedStatus ∈ inForceStatuses →
        windowOpen (runtime.fieldWindow (some (.dict block))) today = true

theorem isBaseContentInForce_eq_true_iff {inboxPrefix content : Text}
    {entries : Mapping} (found : runtime.lenientFrontmatter content = .ok entries)
    {path : RelPath} {today : Date} :
    runtime.isBaseContentInForce inboxPrefix content path today = .ok true ↔
      path.isInbox inboxPrefix = false ∧ entries.claimedStatus ∈ inForceStatuses ∧
        windowOpen (runtime.fieldWindow (entries.get "validity")) today = true := by
  unfold isBaseContentInForce
  rw [found]
  simp only [Except.map, Except.ok.injEq, isInForce_iff, windowOpen]

/-- A missing status claims nothing. -/
theorem claimedStatus_of_statusMissing {entries : Mapping}
    (missing : entries.statusMissing = true) :
    entries.claimedStatus ∉ inForceStatuses := by
  unfold Mapping.statusMissing at missing
  unfold Mapping.claimedStatus
  split at missing
  · rename_i absent
    rw [absent]
    decide
  · rename_i s present
    rw [present, List.isEmpty_iff.mp missing]
    decide
  · contradiction

/-- On front matter the backstop covers the index exactly under
`BackstopCovers`. -/
theorem covers_iff {entries : Mapping} {path : RelPath} {today : Date} :
    (runtime.indexInForce config entries path today →
      path.isInbox config.inboxPrefix = false ∧
        entries.claimedStatus ∈ inForceStatuses ∧
        windowOpen (runtime.fieldWindow (entries.get "validity")) today = true) ↔
      runtime.BackstopCovers config entries path today := by
  constructor
  · intro covered
    by_cases inbox : path.isInbox config.inboxPrefix = true
    · exact .inl inbox
    have outside : path.isInbox config.inboxPrefix = false := by simpa using inbox
    refine .inr ⟨?_, ?_⟩
    · rintro ⟨on, notReserved, missing, isOpen⟩
      have claimed := (covered ⟨outside, .inr ⟨on, notReserved, missing⟩, isOpen⟩).2.1
      exact claimedStatus_of_statusMissing missing claimed
    · intro block value malformed claimed
      have isOpen : windowOpen (runtime.blockWindow (entries.get "validity")) today =
          true := by
        rw [value, runtime.blockWindow_malformed malformed]
        exact inWindow_none today
      rw [← value]
      exact (covered ⟨outside, .inl claimed, isOpen⟩).2.2
  · intro covers
    rintro ⟨outside, status, isOpen⟩
    rcases covers with inbox | ⟨notAutofilled, wellClosed⟩
    · simp [outside] at inbox
    rcases status with claimed | ⟨on, notReserved, missing⟩
    · refine ⟨outside, claimed, ?_⟩
      by_cases malformed : ∃ block, entries.get "validity" = some (.dict block) ∧
          runtime.validityMalformed block = true
      · rcases malformed with ⟨block, value, malformed⟩
        rw [value]
        exact wellClosed block value malformed claimed
      · rw [← runtime.blockWindow_eq]
        · exact isOpen
        · intro block value
          by_contra bad
          exact malformed ⟨block, value, by simpa using bad⟩
    · exact absurd ⟨on, notReserved, missing, isOpen⟩ notAutofilled

/-- The row the index builds for a file, by the front matter found in it. -/
theorem parsedFile_inForce_iff {path : RelPath} {committed : Text} {file : ParsedFile}
    {entries : Mapping} (parsed : runtime.parseFile path committed = .ok file)
    (found : runtime.lenientFrontmatter (readBack committed) = .ok entries)
    {today : Date} :
    (file.row config).inForce today = true ↔
      runtime.indexInForce config entries path today := by
  have rel := runtime.parseFile_rel parsed
  rcases runtime.parseTextChecked_ok found with ⟨body, flag, checked⟩
  rcases Except.map_eq_ok_iff.mp parsed with ⟨result, raw, built⟩
  rw [Except.mapError_eq_ok_iff, checked] at raw
  rcases Except.map_eq_ok_iff.mp raw with ⟨doc, docOk, rfl⟩
  have fileDoc : file.doc = doc := by rw [← built]
  rw [runtime.row_inForce_iff config docOk fileDoc, rel]

/-- The backstop protects every document that the index parses from the same
content and keeps in force, exactly when it covers the front matter. -/
theorem backstop_agrees_iff {content : Text} {path : RelPath} {today : Date}
    {entries : Mapping} {file : ParsedFile}
    (found : runtime.lenientFrontmatter (readBack content) = .ok entries)
    (parsed : runtime.parseFile path content = .ok file) :
    ((file.row config).inForce today = true →
      runtime.isBaseContentInForce config.inboxPrefix (readBack content) path today =
        .ok true) ↔
      runtime.BackstopCovers config entries path today := by
  rw [runtime.parsedFile_inForce_iff config parsed found,
    runtime.isBaseContentInForce_eq_true_iff found]
  exact runtime.covers_iff config

end Runtime

/-- The criterion on a document that claims to be accepted and has no validity
block: the backstop protects it. -/
theorem backstop_agrees_accepted :
    ∃ file, Runtime.parseFile
        (Runtime.ofBlocks [("status: accepted".toList,
          .dict [(.str (PyStr.lit "status"), .str (PyStr.lit "accepted"))])])
        rulePath "---\nstatus: accepted\n---\nRule.".toList = .ok file ∧
      ((file.row IndexConfig.default).inForce ⟨2026, 8, 1⟩ = true →
        (Runtime.ofBlocks [("status: accepted".toList,
          .dict [(.str (PyStr.lit "status"), .str (PyStr.lit "accepted"))])]).isBaseContentInForce
            IndexConfig.default.inboxPrefix
            (readBack "---\nstatus: accepted\n---\nRule.".toList) rulePath ⟨2026, 8, 1⟩ =
          .ok true) := by
  have found : (Runtime.ofBlocks [("status: accepted".toList,
      .dict [(.str (PyStr.lit "status"), .str (PyStr.lit "accepted"))])]).lenientFrontmatter
        (readBack "---\nstatus: accepted\n---\nRule.".toList) =
      .ok [(.str (PyStr.lit "status"), .str (PyStr.lit "accepted"))] := rfl
  refine ⟨_, rfl, ?_⟩
  refine (Runtime.backstop_agrees_iff _ IndexConfig.default found rfl).mpr ?_
  refine .inr ⟨by decide, ?_⟩
  intro block impossible
  simp [Mapping.get, Value.isStr, PyStr.lit, PyStr.ofText] at impossible

/-- A document without front matter is indexed as active, and the backstop lets an
edit of it pass. -/
theorem backstop_misses_autofilled :
    ∃ file, Runtime.parseFile (Runtime.ofBlocks []) rulePath "Always ask.".toList = .ok file ∧
      (file.row IndexConfig.default).inForce ⟨2026, 8, 1⟩ = true ∧
      (Runtime.ofBlocks []).isBaseContentInForce IndexConfig.default.inboxPrefix
        (readBack "Always ask.".toList) rulePath ⟨2026, 8, 1⟩ = .ok false :=
  ⟨_, rfl, by decide, rfl⟩

end DataOlympus
