import DataOlympus.Gate.Accepted
import DataOlympus.Gate.Backstop
import DataOlympus.Index.InForce
import DataOlympus.Maintenance.StatusMigrate
import DataOlympus.Select.Shadow

/-!
# The two lanes of a missing status

The index may read a missing status as active, or the migration may have written it.  This
module says for which corpora both lanes put the same documents in force.
-/

namespace DataOlympus

open Lines Importer Select

/-- The emitter's text of a mapping is read back by the loader, and has no carriage return. -/
structure Dumps (safeDump : Mapping → Text) (runtime : Runtime) (entries : Mapping) : Prop where
  readsBack : ReadsBack safeDump runtime entries
  noReturn : '\r' ∉ safeDump entries

/-- No line of the emitter's text is a delimiter, either. -/
structure Renders (safeDump : Mapping → Text) (runtime : Runtime) (entries : Mapping) : Prop
    extends Dumps safeDump runtime entries where
  undelimited : Undelimited safeDump entries

/-- The loader gives mappings that hold a key once. -/
def LoadsOnce (runtime : Runtime) : Prop :=
  ∀ raw entries, runtime.safeLoad raw = .ok (.dict entries) → Mapping.StatusOnce entries

/-- A text without the line feeds around it. -/
def trimNewlines (text : Text) : Text :=
  (text.dropWhile (· = '\n')).rdropWhile (· = '\n')

section Documents

variable {safeDump : Mapping → Text} {runtime : Runtime} {text body : Text} {entries : Mapping}

theorem statusOnce_of_parseFrontmatter (once : LoadsOnce runtime)
    (parsed : runtime.parseFrontmatter text = .ok (entries, body)) : entries.StatusOnce := by
  unfold Runtime.parseFrontmatter at parsed
  split at parsed
  · cases parsed
    exact Nat.zero_le 1
  · cases parsed
  · rename_i raw rest cut
    obtain ⟨found, loaded, same⟩ := Except.map_eq_ok_iff.mp parsed
    cases same
    unfold Runtime.loadMapping at loaded
    split at loaded
    · cases loaded
    · cases loaded
    · cases loaded
    · rename_i value read
      split at loaded
      · rename_i here
        cases loaded
        split at here
        · rw [here] at read
          exact once _ _ read
        · cases here
          exact Nat.zero_le 1
      · cases loaded

/-- A body that was read has no carriage return. -/
theorem no_return_body (parsed : runtime.parseFrontmatter (readBack text) = .ok (entries, body)) :
    '\r' ∉ body := by
  have noReturn : '\r' ∉ readBack text := no_return_universalNewlines text
  unfold Runtime.parseFrontmatter at parsed
  split at parsed
  · cases parsed
    exact noReturn
  · cases parsed
  · rename_i raw rest cut
    obtain ⟨found, -, same⟩ := Except.map_eq_ok_iff.mp parsed
    cases same
    exact fun member => noReturn (Block.mem_of_mem_body cut member)

theorem mem_of_mem_rdropWhile {α : Type} {p : α → Bool} {items : List α} {item : α}
    (member : item ∈ items.rdropWhile p) : item ∈ items :=
  (List.rdropWhile_prefix p items).subset member

/-- A migrated document reads as it was written. -/
theorem readBack_migratedText
    (dumps : Dumps safeDump runtime (entries.insertStatus defaultStatus))
    (noReturn : '\r' ∉ body) :
    readBack (migratedText safeDump entries body) =
      enclose (safeDump (entries.insertStatus defaultStatus))
        ('\n' :: (body.rdropWhile (· = '\n') ++ ['\n'])) := by
  have tail : '\r' ∉ '\n' :: (body.rdropWhile (· = '\n') ++ ['\n']) := by
    simp only [List.mem_cons, List.mem_append, List.not_mem_nil, or_false, not_or]
    refine ⟨by decide, fun member => noReturn (mem_of_mem_rdropWhile member), by decide⟩
  have shape : migratedText safeDump entries body =
      enclose (safeDump (entries.insertStatus defaultStatus))
        ('\n' :: (body.rdropWhile (· = '\n') ++ ['\n'])) := rfl
  rw [shape, readBack_enclose dumps.noReturn, universalNewlines_of_no_return tail]

/-- A migrated document is parsed as it was rendered. -/
theorem parseFrontmatter_migratedText
    (renders : Renders safeDump runtime (entries.insertStatus defaultStatus))
    (noReturn : '\r' ∉ body) :
    runtime.parseFrontmatter (readBack (migratedText safeDump entries body)) =
      .ok (entries.insertStatus defaultStatus,
        '\n' :: (body.rdropWhile (· = '\n') ++ ['\n'])) := by
  rw [readBack_migratedText renders.toDumps noReturn]
  exact Runtime.parseFrontmatter_enclose renders.readsBack renders.undelimited _

/-- What is dropped at the end does not matter to a trimmed list. -/
theorem rdropWhile_dropWhile_append {α : Type} {p : α → Bool} {tail : List α}
    (dropped : ∀ item ∈ tail, p item = true) (items : List α) :
    ((items ++ tail).dropWhile p).rdropWhile p = (items.dropWhile p).rdropWhile p := by
  have ends : ∀ first : List α, (first ++ tail).rdropWhile p = first.rdropWhile p := by
    intro first
    rw [List.rdropWhile, List.reverse_append, List.dropWhile_append_of_pos]
    · rfl
    · intro item member
      exact dropped item (List.mem_reverse.mp member)
  rw [List.dropWhile_append]
  split
  · rename_i nothing
    rw [List.isEmpty_iff.mp nothing, List.dropWhile_eq_nil_iff.mpr dropped]
  · exact ends _

theorem trimNewlines_rendered (body : Text) :
    trimNewlines ('\n' :: (body.rdropWhile (· = '\n') ++ ['\n'])) = trimNewlines body := by
  have newline : ∀ c ∈ ['\n'], decide (c = '\n') = true := by
    simp
  have trailing : ∀ c ∈ body.rtakeWhile (· = '\n'), decide (c = '\n') = true := by
    intro c member
    exact List.mem_rtakeWhile_imp (p := fun c => decide (c = '\n')) member
  have whole := rdropWhile_dropWhile_append trailing (body.rdropWhile (· = '\n'))
  rw [List.rdropWhile_append_rtakeWhile] at whole
  have first : ('\n' :: (body.rdropWhile (· = '\n') ++ ['\n'])).dropWhile (· = '\n') =
      (body.rdropWhile (· = '\n') ++ ['\n']).dropWhile (· = '\n') :=
    List.dropWhile_cons_of_pos (by simp)
  rw [trimNewlines, first, rdropWhile_dropWhile_append newline, trimNewlines, whole]

/-! ## A block that is cut too early -/

/-- Trimming takes line feeds only. -/
theorem count_trimNewlines (text : Text) : (trimNewlines text).count '-' = text.count '-' := by
  have front : ∀ text : Text, (text.dropWhile (· = '\n')).count '-' = text.count '-' := by
    intro text
    induction text with
    | nil => rfl
    | cons c rest ih =>
        rw [List.dropWhile_cons]
        split
        · rename_i newline
          rw [ih, List.count_cons, of_decide_eq_true newline]
          rfl
        · rfl
  rw [trimNewlines, List.rdropWhile, List.count_reverse, front, List.count_reverse, front]

theorem count_joinLines (lines : List Text) :
    (joinLines lines).count '-' = lines.flatten.count '-' := by
  induction lines with
  | nil => rfl
  | cons line rest ih =>
      cases rest with
      | nil => simp [joinLines]
      | cons next others =>
          have joined : joinLines (line :: next :: others) =
              line ++ '\n' :: joinLines (next :: others) := by
            rw [joinLines, List.intercalate_cons_cons, List.append_assoc]
            rfl
          rw [joined, List.flatten_cons, List.count_append, List.count_append, List.count_cons, ih]
          rfl

/-- A document that keeps its body has no delimiter in its block. -/
theorem undelimited_of_parsed
    (readsBack : ReadsBack safeDump runtime entries) {tail : Text} {found : Mapping} {rest : Text}
    (parsed : runtime.parseFrontmatter (enclose (safeDump entries) tail) = .ok (found, rest))
    (same : trimNewlines rest = trimNewlines tail) : Undelimited safeDump entries := by
  obtain ⟨raw, dumped, -⟩ := readsBack
  have lines : splitLines (safeDump entries) = splitLines raw ++ [[]] := by
    rw [dumped, splitLines, List.splitOn_append_cons_self]
    rfl
  by_contra delimited
  obtain ⟨line, member, closes⟩ : ∃ line ∈ splitLines raw, Block.isDelimiter line = true := by
    unfold Undelimited at delimited
    push Not at delimited
    obtain ⟨line, member, closes⟩ := delimited
    rw [lines] at member
    refine ⟨line, (List.mem_append.mp member).resolve_right fun last => ?_, by simpa using closes⟩
    rw [List.mem_singleton.mp last] at closes
    exact closes (by decide)
  obtain ⟨closing, isFirst⟩ :=
    Option.isSome_iff_exists.mp (List.find?_isSome.mpr ⟨line, member, closes⟩)
  obtain ⟨here, first, later, split, before⟩ := List.find?_eq_some_iff_append.mp isFirst
  have whole : ∀ piece ∈ first ++ closing :: later, '\n' ∉ piece := by
    intro piece pieceIn
    rw [← split] at pieceIn
    exact Block.newline_not_mem_of_mem_splitLines pieceIn
  have rawJoined : joinLines (first ++ closing :: later) = raw := by
    rw [← split]
    exact List.intercalate_splitOn '\n'
  have cut := Block.cut_enclose_of_delimiter whole
    (fun earlier inFirst => by simpa using before earlier inFirst) here tail
  rw [rawJoined, ← dumped] at cut
  rw [Runtime.parseFrontmatter, cut] at parsed
  obtain ⟨loaded, -, done⟩ := Except.map_eq_ok_iff.mp parsed
  cases done
  have dashes := congrArg (List.count '-') same
  have tailJoined : joinLines (splitLines tail) = tail := List.intercalate_splitOn '\n'
  rw [count_trimNewlines, count_trimNewlines, count_joinLines, List.flatten_append,
    List.flatten_cons, List.count_append, List.count_append, ← count_joinLines, ← count_joinLines,
    tailJoined] at dashes
  have three : List.count '-' "---".toList = 3 := by
    decide
  omega

end Documents

/-! ## What is in force -/

/-- The index reads a missing status as active. -/
def IndexConfig.virtual (config : IndexConfig) : IndexConfig :=
  { config with statusAutofill := true }

/-- The index reads a status as it stands. -/
def IndexConfig.physical (config : IndexConfig) : IndexConfig :=
  { config with statusAutofill := false }

namespace Runtime

variable (runtime : Runtime) (config : IndexConfig) (tree : Tree)

/-- The row of the document is in force. -/
def Served (today : Date) (path : RelPath) : Prop :=
  ∃ file, runtime.DocumentAt tree path file ∧ (file.row config).inForce today = true

/-- A document names another one among those it supersedes. -/
def Supersedes (source target : RelPath) : Prop :=
  ∃ sourceFile targetFile, runtime.DocumentAt tree source sourceFile ∧
    runtime.DocumentAt tree target targetFile ∧ targetFile.docId ∈ sourceFile.doc.supersedes

variable {runtime config tree} {path : RelPath} {file other : ParsedFile}

theorem DocumentAt.unique (document : runtime.DocumentAt tree path file)
    (same : runtime.DocumentAt tree path other) : file = other := by
  obtain ⟨-, text, here, parsed⟩ := document
  obtain ⟨-, found, there, parsedToo⟩ := same
  cases here.symm.trans there
  exact Except.ok.inj (parsed.symm.trans parsedToo)

/-- A document is in force in a tree if its row is and no other such row supersedes it. -/
theorem treeInForce_iff_unshadowed {today : Date} :
    runtime.TreeInForce config tree path today ↔
      Unshadowed (runtime.Served config tree today) (runtime.Supersedes tree) path := by
  constructor
  · rintro ⟨file, document, inForce, current⟩
    refine ⟨⟨file, document, inForce⟩, ?_⟩
    rintro ⟨source, ⟨sourceFile, sourceDocument, sourceInForce⟩, first, second, firstDocument,
      secondDocument, member⟩
    cases secondDocument.unique document
    cases firstDocument.unique sourceDocument
    exact current ⟨source, _, sourceDocument, sourceInForce, member⟩
  · rintro ⟨⟨file, document, inForce⟩, unshadowed⟩
    refine ⟨file, document, inForce, ?_⟩
    rintro ⟨source, sourceFile, sourceDocument, sourceInForce, member⟩
    exact unshadowed ⟨source, ⟨sourceFile, sourceDocument, sourceInForce⟩, sourceFile, file,
      sourceDocument, document, member⟩

/-- What a document takes from its front matter. -/
theorem DocumentAt.view (document : runtime.DocumentAt tree path file) :
    ∃ text entries, tree.lookup path = some text ∧
      runtime.lenientFrontmatter (readBack text) = .ok entries ∧
      file.docId = effectiveDocId entries path ∧
      runtime.asIdList entries "supersedes" = .ok file.doc.supersedes ∧
      ∀ (config : IndexConfig) (today : Date), (file.row config).inForce today = true ↔
        runtime.indexInForce config entries path today := by
  obtain ⟨-, text, here, parsed⟩ := document
  obtain ⟨entries, found⟩ := runtime.exists_frontmatter parsed
  refine ⟨text, entries, here, found, runtime.parseFile_docId parsed found, ?_, ?_⟩
  · obtain ⟨body, flag, checked⟩ := runtime.parseTextChecked_ok found
    obtain ⟨result, raw, rfl⟩ := Except.map_eq_ok_iff.mp parsed
    rw [Except.mapError_eq_ok_iff, checked] at raw
    obtain ⟨doc, docOk, rfl⟩ := Except.map_eq_ok_iff.mp raw
    obtain ⟨validity, read⟩ := runtime.parsedDoc_eq_ok_iff.mp docOk
    exact read.supersedes
  · intro config today
    exact runtime.parsedFile_inForce_iff config parsed found

end Runtime

/-! ## What the migration does to a document -/

/-- A status that is missing can be written. -/
def StatusFits (runtime : Runtime) (text : Text) : Prop :=
  ∀ entries body, runtime.parseFrontmatter (readBack text) = .ok (entries, body) →
    entries.statusNamed = true ∨ entries.statusFree = true

/-- The migrated document has the other keys and the body of the document. -/
def KeepsDocument (runtime : Runtime) (text migrated : Text) : Prop :=
  ∀ entries body, runtime.parseFrontmatter (readBack text) = .ok (entries, body) →
    ∃ entries' body', runtime.parseFrontmatter (readBack migrated) = .ok (entries', body') ∧
      entries'.without "status" = entries.without "status" ∧
      trimNewlines body' = trimNewlines body

/-- The front matter of the document, with a status, if that is missing. -/
def Inserts (runtime : Runtime) (text : Text) (inserted : Mapping) : Prop :=
  ∃ entries body, runtime.parseFrontmatter (readBack text) = .ok (entries, body) ∧
    entries.statusNamed = false ∧ inserted = entries.insertStatus defaultStatus

/-- The migrated text of a document that is rendered. -/
def RendersText (safeDump : Mapping → Text) (runtime : Runtime) (text : Text) : Prop :=
  ∀ inserted, Inserts runtime text inserted → Renders safeDump runtime inserted

section Texts

variable {safeDump : Mapping → Text} {runtime : Runtime} {text : Text}

/-- A document is left as it is, or rendered with a status. -/
theorem migrateText_cases (renders : RendersText safeDump runtime text) :
    (migrateText safeDump runtime text = text ∧ unnamed runtime text = false) ∨
      ∃ entries body, runtime.parseFrontmatter (readBack text) = .ok (entries, body) ∧
        entries.statusNamed = false ∧ unnamed runtime text = true ∧
        runtime.parseFrontmatter (readBack (migrateText safeDump runtime text)) =
          .ok (entries.insertStatus defaultStatus,
            '\n' :: (body.rdropWhile (· = '\n') ++ ['\n'])) := by
  cases parsed : runtime.parseFrontmatter (readBack text) with
  | error raised => exact .inl ⟨by simp [migrateText, parsed], by simp [unnamed, parsed]⟩
  | ok result =>
      obtain ⟨entries, body⟩ := result
      cases named : entries.statusNamed with
      | true =>
          exact .inl ⟨by simp [migrateText, parsed, named], by simp [unnamed, parsed, named]⟩
      | false =>
          refine .inr ⟨entries, body, rfl, named, by simp [unnamed, parsed, named], ?_⟩
          have rendered : migrateText safeDump runtime text =
              migratedText safeDump entries body := by
            simp [migrateText, parsed, named]
          rw [rendered]
          exact parseFrontmatter_migratedText (renders _ ⟨entries, body, parsed, named, rfl⟩)
            (no_return_body parsed)

theorem migrateText_of_named (named : unnamed runtime text = false) :
    migrateText safeDump runtime text = text := by
  unfold unnamed at named
  unfold migrateText
  split
  · rename_i entries body parsed
    rw [parsed] at named
    rw [if_pos (by simpa using named)]
  · rfl

theorem keepsDocument_migrateText (renders : RendersText safeDump runtime text) :
    KeepsDocument runtime text (migrateText safeDump runtime text) := by
  intro entries body parsed
  obtain ⟨same, -⟩ | ⟨found, rest, parsedToo, -, -, rendered⟩ := migrateText_cases renders
  · rw [same]
    exact ⟨entries, body, parsed, rfl, rfl⟩
  · cases parsed.symm.trans parsedToo
    exact ⟨_, _, rendered, Mapping.without_insertStatus _ _, trimNewlines_rendered body⟩

/-- A document that is kept was rendered without a delimiter. -/
theorem undelimited_of_keepsDocument {inserted : Mapping} (inserts : Inserts runtime text inserted)
    (dumps : Dumps safeDump runtime inserted)
    (keeps : KeepsDocument runtime text (migrateText safeDump runtime text)) :
    Undelimited safeDump inserted := by
  obtain ⟨entries, body, parsed, missing, rfl⟩ := inserts
  have rendered : migrateText safeDump runtime text = migratedText safeDump entries body := by
    simp [migrateText, parsed, missing]
  obtain ⟨found, rest, again, -, same⟩ := keeps entries body parsed
  rw [rendered, readBack_migratedText dumps (no_return_body parsed)] at again
  apply undelimited_of_parsed dumps.readsBack again
  rw [same, trimNewlines_rendered]

theorem statusNamed_of_get {entries : Mapping}
    (found : entries.get "status" = some (.str defaultStatus)) : entries.statusNamed = true := by
  rw [Mapping.statusNamed, found]
  decide

/-- The status of a migrated document is named if and only if it fits. -/
theorem statusFits_iff (once : LoadsOnce runtime) (renders : RendersText safeDump runtime text) :
    StatusFits runtime text ↔ ∀ entries body,
      runtime.parseFrontmatter (readBack (migrateText safeDump runtime text)) =
        .ok (entries, body) → entries.statusNamed = true := by
  obtain ⟨same, named⟩ | ⟨found, rest, parsed, missing, -, rendered⟩ :=
    migrateText_cases renders
  · rw [same]
    have already : ∀ entries body,
        runtime.parseFrontmatter (readBack text) = .ok (entries, body) →
          entries.statusNamed = true := by
      intro entries body parsed
      simpa [unnamed, parsed] using named
    exact iff_of_true (fun entries body parsed => .inl (already entries body parsed)) already
  · rw [rendered]
    constructor
    · intro fits entries body same
      cases same
      obtain already | free := fits found rest parsed
      · rw [missing] at already
        cases already
      · exact statusNamed_of_get (Mapping.get_insertStatus_of_statusFree free defaultStatus)
    · intro named entries body parsedToo
      cases parsed.symm.trans parsedToo
      cases free : found.statusFree with
      | true => exact .inr rfl
      | false =>
          have kept := Mapping.get_insertStatus_of_not_statusFree
            (statusOnce_of_parseFrontmatter once parsed) free defaultStatus
          have written := named _ _ rfl
          rw [Mapping.statusNamed, kept, ← Mapping.statusNamed, missing] at written
          cases written

/-- The front matter of a migrated document: the other keys stay, and a status that was written
is one in force. -/
theorem lenientFrontmatter_migrateText (renders : RendersText safeDump runtime text)
    (fits : StatusFits runtime text) {entries : Mapping}
    (found : runtime.lenientFrontmatter (readBack text) = .ok entries) :
    ∃ entries', runtime.lenientFrontmatter (readBack (migrateText safeDump runtime text)) =
        .ok entries' ∧ entries'.without "status" = entries.without "status" ∧
      (entries'.claimedStatus ∈ inForceStatuses ↔
        entries.claimedStatus ∈ inForceStatuses ∨ unnamed runtime text = true) := by
  obtain ⟨same, named⟩ | ⟨written, rest, parsed, missing, isUnnamed, rendered⟩ :=
    migrateText_cases renders
  · rw [same, named]
    exact ⟨entries, found, rfl, by simp⟩
  · have same : entries = written := by
      have read := runtime.lenientFrontmatter_of_parseFrontmatter parsed
      exact Except.ok.inj (found.symm.trans read)
    subst same
    refine ⟨_, runtime.lenientFrontmatter_of_parseFrontmatter rendered,
      Mapping.without_insertStatus _ _, iff_of_true ?_ (.inr isUnnamed)⟩
    have free : entries.statusFree = true := by
      obtain already | free := fits entries rest parsed
      · rw [missing] at already
        cases already
      · exact free
    rw [Mapping.claimedStatus, Mapping.get_insertStatus_of_statusFree free]
    decide

end Texts

theorem get_eq_of_without_eq {first second : Mapping} {key : String}
    (same : first.without "status" = second.without "status")
    (different : PyStr.lit key ≠ PyStr.lit "status") : first.get key = second.get key := by
  rw [← Mapping.get_without_of_ne different, same, Mapping.get_without_of_ne different]

/-! ## What the migration does to a corpus -/

/-- The row of the document is in force once its status is written. -/
def ServedAfter (runtime : Runtime) (config : IndexConfig) (tree : Tree) (today : Date)
    (path : RelPath) : Prop :=
  path.indexable = true ∧ ∃ text entries, tree.lookup path = some text ∧
    runtime.lenientFrontmatter (readBack text) = .ok entries ∧
    path.isInbox config.inboxPrefix = false ∧
    (entries.claimedStatus ∈ inForceStatuses ∨
      path.isBundleFile = true ∧ unnamed runtime text = true) ∧
    Runtime.windowOpen (runtime.blockWindow (entries.get "validity")) today = true

/-- The migration converges with the virtual lane: every scanned document whose front matter
parses has a named status, every document keeps its other keys and its body, a second run
changes nothing, and the two indexes have the same documents in force. -/
structure Converges (safeDump : Mapping → Text) (runtime : Runtime) (tree : Tree)
    (migration : Migration) (before after : Index) : Prop where
  named : ∀ path ∈ tree.bundleFiles, ∀ text entries body,
    migration.tree.lookup path = some text →
      runtime.parseFrontmatter (readBack text) = .ok (entries, body) →
        entries.statusNamed = true
  kept : ∀ path text, tree.lookup path = some text → ∃ migrated,
    migration.tree.lookup path = some migrated ∧ KeepsDocument runtime text migrated ∧
      (path ∉ tree.bundleFiles → migrated = text)
  settled : ∃ second, applyStatusAutofill safeDump runtime migration.tree = .ok second ∧
    second.changedPaths = [] ∧ second.events = [] ∧
      ∀ path, second.tree.lookup path = migration.tree.lookup path
  inForce : ∀ path today,
    (∃ row ∈ before.rows, row.path = path ∧ before.inForce today row = true) ↔
      ∃ row ∈ after.rows, row.path = path ∧ after.inForce today row = true

section Corpus

variable {safeDump : Mapping → Text} {runtime : Runtime} {config : IndexConfig} {tree : Tree}
  {migration : Migration} {before after : Index}

/-- The text of a file after the migration. -/
theorem lookup_migrated
    (visited : Visited safeDump runtime (.start tree) tree.bundleFiles migration)
    {path : RelPath} {text : Text} (here : tree.lookup path = some text) :
    migration.tree.lookup path = some
      (if path.isBundleFile then migrateText safeDump runtime text else text) := by
  have key : path ∈ tree.keys := AList.mem_keys.mp (AList.lookup_isSome.mp (by rw [here]; rfl))
  have listed : path ∈ tree.bundleFiles ↔ path.isBundleFile = true := by
    rw [Tree.bundleFiles, List.mem_filter]
    exact and_iff_right key
  rw [visited.files]
  change (if path ∈ tree.bundleFiles then (tree.lookup path).map _ else tree.lookup path) = _
  rw [here, Option.map_some]
  by_cases scanned : path.isBundleFile = true
  · rw [if_pos (listed.mpr scanned), if_pos scanned]
  · rw [if_neg (mt listed.mp scanned), if_neg scanned]

theorem lookup_of_migrated
    (visited : Visited safeDump runtime (.start tree) tree.bundleFiles migration)
    {path : RelPath} {migrated : Text} (here : migration.tree.lookup path = some migrated) :
    ∃ text, tree.lookup path = some text ∧
      migrated = if path.isBundleFile then migrateText safeDump runtime text else text := by
  cases before : tree.lookup path with
  | some text =>
      rw [lookup_migrated visited before] at here
      exact ⟨text, rfl, (Option.some.inj here).symm⟩
  | none =>
      rw [visited.files] at here
      change (if path ∈ tree.bundleFiles then (tree.lookup path).map _ else tree.lookup path) = _
        at here
      rw [before] at here
      split at here <;> cases here

/-- A scanned file holds the migrated text. -/
theorem lookup_migrated_of_mem
    (visited : Visited safeDump runtime (.start tree) tree.bundleFiles migration)
    {path : RelPath} (member : path ∈ tree.bundleFiles) {text : Text}
    (here : tree.lookup path = some text) :
    migration.tree.lookup path = some (migrateText safeDump runtime text) := by
  have scanned : path.isBundleFile = true := (List.mem_filter.mp member).2
  rw [lookup_migrated visited here, scanned, if_pos rfl]

theorem lookup_of_migrated_of_isBundleFile
    (visited : Visited safeDump runtime (.start tree) tree.bundleFiles migration)
    {path : RelPath} (scanned : path.isBundleFile = true) {migrated : Text}
    (there : migration.tree.lookup path = some migrated) :
    ∃ text, tree.lookup path = some text ∧ migrated = migrateText safeDump runtime text := by
  obtain ⟨text, here, same⟩ := lookup_of_migrated visited there
  rw [scanned, if_pos rfl] at same
  exact ⟨text, here, same⟩

/-- The texts that the migration renders are read back. -/
def CorpusRenders (safeDump : Mapping → Text) (runtime : Runtime) (tree : Tree) : Prop :=
  ∀ path ∈ tree.bundleFiles, ∀ text, tree.lookup path = some text →
    RendersText safeDump runtime text

/-- What the migration emits is read back by the loader. -/
def CorpusDumps (safeDump : Mapping → Text) (runtime : Runtime) (tree : Tree) : Prop :=
  ∀ path ∈ tree.bundleFiles, ∀ text, tree.lookup path = some text →
    ∀ inserted, Inserts runtime text inserted → Dumps safeDump runtime inserted

/-- No line that the migration emits is a delimiter. -/
def CorpusUndelimited (safeDump : Mapping → Text) (runtime : Runtime) (tree : Tree) : Prop :=
  ∀ path ∈ tree.bundleFiles, ∀ text, tree.lookup path = some text →
    ∀ inserted, Inserts runtime text inserted → Undelimited safeDump inserted

/-- Every missing status can be written. -/
def CorpusFits (runtime : Runtime) (tree : Tree) : Prop :=
  ∀ path ∈ tree.bundleFiles, ∀ text, tree.lookup path = some text → StatusFits runtime text

theorem mem_bundleFiles_of_lookup {path : RelPath} {text : Text}
    (here : tree.lookup path = some text) (scanned : path.isBundleFile = true) :
    path ∈ tree.bundleFiles := by
  apply List.mem_filter.mpr
  refine ⟨AList.mem_keys.mp (AList.lookup_isSome.mp ?_), scanned⟩
  rw [here]
  rfl

/-- The front matter of a file after the migration. -/
theorem frontmatter_migrated
    (visited : Visited safeDump runtime (.start tree) tree.bundleFiles migration)
    (renders : CorpusRenders safeDump runtime tree) (fits : CorpusFits runtime tree)
    {path : RelPath} {text : Text} {entries : Mapping} (here : tree.lookup path = some text)
    (found : runtime.lenientFrontmatter (readBack text) = .ok entries) :
    ∃ migrated entries', migration.tree.lookup path = some migrated ∧
      runtime.lenientFrontmatter (readBack migrated) = .ok entries' ∧
      entries'.without "status" = entries.without "status" ∧
      (entries'.claimedStatus ∈ inForceStatuses ↔ entries.claimedStatus ∈ inForceStatuses ∨
        path.isBundleFile = true ∧ unnamed runtime text = true) := by
  have there := lookup_migrated visited here
  cases scanned : path.isBundleFile with
  | false =>
      rw [scanned, if_neg Bool.false_ne_true] at there
      exact ⟨text, entries, there, found, rfl, by simp⟩
  | true =>
      rw [scanned, if_pos rfl] at there
      have member := mem_bundleFiles_of_lookup here scanned
      obtain ⟨entries', foundToo, same, status⟩ := lenientFrontmatter_migrateText
        (renders path member text here) (fits path member text here) found
      refine ⟨_, entries', there, foundToo, same, ?_⟩
      rw [status]
      simp

theorem asIdList_congr {first second : Mapping} {key : String}
    (same : first.get key = second.get key) :
    runtime.asIdList first key = runtime.asIdList second key := by
  rw [Runtime.asIdList, same, ← Runtime.asIdList]

/-- A document stays a document: it keeps its id and what it supersedes. -/
theorem documentAt_migrated
    (visited : Visited safeDump runtime (.start tree) tree.bundleFiles migration)
    (renders : CorpusRenders safeDump runtime tree) (fits : CorpusFits runtime tree)
    (built : runtime.build config.physical migration.tree = .ok after)
    {path : RelPath} {file : ParsedFile} (document : runtime.DocumentAt tree path file) :
    ∃ file', runtime.DocumentAt migration.tree path file' ∧ file'.docId = file.docId ∧
      file'.doc.supersedes = file.doc.supersedes ∧
      ∀ today, (file'.row config.physical).inForce today = true ↔
        ServedAfter runtime config tree today path := by
  obtain ⟨text, entries, here, found, docId, supersedes, -⟩ := document.view
  obtain ⟨migrated, entries', there, foundToo, same, status⟩ :=
    frontmatter_migrated visited renders fits here found
  obtain ⟨-, storable, -⟩ := (runtime.build_ok_iff config.physical).mp ⟨after, built⟩
  obtain ⟨file', parsed, -⟩ := storable path migrated there document.1
  have document' : runtime.DocumentAt migration.tree path file' :=
    ⟨document.1, migrated, there, parsed⟩
  obtain ⟨_, _, thereToo, foundAgain, docId', supersedes', row⟩ := document'.view
  cases there.symm.trans thereToo
  cases foundToo.symm.trans foundAgain
  have keeps : ∀ key : String, PyStr.lit key ≠ PyStr.lit "status" →
      entries'.get key = entries.get key := fun key => get_eq_of_without_eq same
  refine ⟨file', document', ?_, ?_, fun today => ?_⟩
  · rw [docId, docId', effectiveDocId, keeps "id" (by decide), ← effectiveDocId]
  · rw [asIdList_congr (keeps "supersedes" (by decide))] at supersedes'
    exact Except.ok.inj (supersedes'.symm.trans supersedes)
  · rw [row config.physical today, Runtime.indexInForce, keeps "validity" (by decide), status]
    constructor
    · rintro ⟨outside, inForce | ⟨off, -⟩, opened⟩
      · exact ⟨document.1, text, entries, here, found, outside, inForce, opened⟩
      · cases off
    · rintro ⟨-, _, _, hereToo, foundToo, outside, inForce, opened⟩
      cases here.symm.trans hereToo
      cases found.symm.trans foundToo
      exact ⟨outside, .inl inForce, opened⟩

/-- The migration makes no documents. -/
theorem documentAt_of_migrated
    (visited : Visited safeDump runtime (.start tree) tree.bundleFiles migration)
    (built : runtime.build config.virtual tree = .ok before) {path : RelPath} {file' : ParsedFile}
    (document : runtime.DocumentAt migration.tree path file') :
    ∃ file, runtime.DocumentAt tree path file := by
  obtain ⟨indexed, migrated, there, -⟩ := document
  obtain ⟨text, here, -⟩ := lookup_of_migrated visited there
  obtain ⟨-, storable, -⟩ := (runtime.build_ok_iff config.virtual).mp ⟨before, built⟩
  obtain ⟨file, parsed, -⟩ := storable path text here indexed
  exact ⟨file, indexed, text, here, parsed⟩

/-- The two indexes have the same documents in force if and only if no document that one lane
alone puts in force is missed. -/
theorem inForce_iff_undisturbed
    (visited : Visited safeDump runtime (.start tree) tree.bundleFiles migration)
    (renders : CorpusRenders safeDump runtime tree) (fits : CorpusFits runtime tree)
    (built : runtime.build config.virtual tree = .ok before)
    (rebuilt : runtime.build config.physical migration.tree = .ok after) :
    (∀ path today,
      (∃ row ∈ before.rows, row.path = path ∧ before.inForce today row = true) ↔
        ∃ row ∈ after.rows, row.path = path ∧ after.inForce today row = true) ↔
      ∀ today, Undisturbed (runtime.Served config.virtual tree today)
        (ServedAfter runtime config tree today) (runtime.Supersedes tree) := by
  have forward {path : RelPath} {file : ParsedFile}
      (document : runtime.DocumentAt tree path file) :=
    documentAt_migrated visited renders fits rebuilt document
  have backward {path : RelPath} {file' : ParsedFile}
      (document : runtime.DocumentAt migration.tree path file') :=
    documentAt_of_migrated visited built document
  have served : ∀ today path, runtime.Served config.physical migration.tree today path ↔
      ServedAfter runtime config tree today path := by
    intro today path
    constructor
    · rintro ⟨file', document', inForce⟩
      obtain ⟨file, document⟩ := backward document'
      obtain ⟨other, otherDocument, -, -, row⟩ := forward document
      rw [← document'.unique otherDocument] at row
      exact (row today).mp inForce
    · intro after
      obtain ⟨indexed, text, entries, here, -⟩ := id after
      obtain ⟨-, storable, -⟩ := (runtime.build_ok_iff config.virtual).mp ⟨before, built⟩
      obtain ⟨file, parsed, -⟩ := storable path text here indexed
      obtain ⟨file', document', -, -, row⟩ := forward ⟨indexed, text, here, parsed⟩
      exact ⟨file', document', (row today).mpr after⟩
  have supersedes : ∀ source target, runtime.Supersedes migration.tree source target ↔
      runtime.Supersedes tree source target := by
    intro source target
    constructor
    · rintro ⟨first', second', firstDocument', secondDocument', member⟩
      obtain ⟨first, firstDocument⟩ := backward firstDocument'
      obtain ⟨second, secondDocument⟩ := backward secondDocument'
      obtain ⟨other, otherDocument, -, sameIds, -⟩ := forward firstDocument
      obtain ⟨another, anotherDocument, sameId, -⟩ := forward secondDocument
      cases firstDocument'.unique otherDocument
      cases secondDocument'.unique anotherDocument
      rw [sameIds, sameId] at member
      exact ⟨first, second, firstDocument, secondDocument, member⟩
    · rintro ⟨first, second, firstDocument, secondDocument, member⟩
      obtain ⟨first', firstDocument', -, sameIds, -⟩ := forward firstDocument
      obtain ⟨second', secondDocument', sameId, -⟩ := forward secondDocument
      rw [← sameIds, ← sameId] at member
      exact ⟨first', second', firstDocument', secondDocument', member⟩
  have sets : ∀ today, runtime.Served config.physical migration.tree today =
      ServedAfter runtime config tree today :=
    fun today => funext fun path => propext (served today path)
  have graphs : runtime.Supersedes migration.tree = runtime.Supersedes tree :=
    funext fun source => funext fun target => propext (supersedes source target)
  have shadowed : ∀ path today,
      ((∃ row ∈ before.rows, row.path = path ∧ before.inForce today row = true) ↔
        ∃ row ∈ after.rows, row.path = path ∧ after.inForce today row = true) ↔
      (Unshadowed (runtime.Served config.virtual tree today) (runtime.Supersedes tree) path ↔
        Unshadowed (ServedAfter runtime config tree today) (runtime.Supersedes tree) path) := by
    intro path today
    rw [runtime.built_inForce_iff config.virtual built,
      runtime.built_inForce_iff config.physical rebuilt, Runtime.treeInForce_iff_unshadowed,
      Runtime.treeInForce_iff_unshadowed, sets, graphs]
  simp only [shadowed, ← unshadowed_congr_iff]
  exact forall_comm

/-- Once every status is named, a second run changes nothing. -/
theorem settled_of_named
    (visited : Visited safeDump runtime (.start tree) tree.bundleFiles migration)
    (renders : CorpusRenders safeDump runtime tree)
    (named : ∀ path ∈ tree.bundleFiles, ∀ text, migration.tree.lookup path = some text →
      unnamed runtime text = false) :
    ∃ second, applyStatusAutofill safeDump runtime migration.tree = .ok second ∧
      second.changedPaths = [] ∧ second.events = [] ∧
        ∀ path, second.tree.lookup path = migration.tree.lookup path := by
  have listed : ∀ path ∈ migration.tree.bundleFiles, ∃ migrated,
      migration.tree.lookup path = some migrated ∧ Scannable runtime migrated ∧
        unnamed runtime migrated = false := by
    intro path member
    obtain ⟨migrated, there⟩ := lookup_of_mem_bundleFiles member
    have scanned : path.isBundleFile = true := (List.mem_filter.mp member).2
    obtain ⟨text, here, rfl⟩ := lookup_of_migrated_of_isBundleFile visited scanned there
    have memberBefore := mem_bundleFiles_of_lookup here scanned
    refine ⟨_, there, ?_, named path memberBefore _ there⟩
    obtain ⟨same, -⟩ | ⟨entries, body, -, -, -, rendered⟩ :=
      migrateText_cases (renders path memberBefore text here)
    · rw [same]
      exact visited.scannable path memberBefore text here
    · intro raised failed
      cases rendered.symm.trans failed
  have returns : ∃ second, applyStatusAutofill safeDump runtime migration.tree = .ok second := by
    apply foldlM_returns (nodup_bundleFiles _)
    intro path member
    obtain ⟨migrated, there, scannable, -⟩ := listed path member
    exact ⟨migrated, there, scannable⟩
  obtain ⟨second, applied⟩ := returns
  have again := visited_of_applyStatusAutofill applied
  have nothing : (migration.tree.bundleFiles.filter fun path =>
      (migration.tree.lookup path).any (unnamed runtime)) = [] := by
    apply List.filter_eq_nil_iff.mpr
    intro path member
    obtain ⟨migrated, there, -, isNamed⟩ := listed path member
    rw [there, Option.any_some, isNamed]
    exact Bool.false_ne_true
  refine ⟨second, applied, ?_, ?_, fun path => ?_⟩
  · rw [again.changed]
    exact nothing
  · rw [again.events]
    exact congrArg (List.map fun path => (⟨path, defaultStatus⟩ : StatusEvent)) nothing
  · rw [again.files]
    change (if path ∈ migration.tree.bundleFiles then (migration.tree.lookup path).map _
      else migration.tree.lookup path) = _
    split
    · rename_i member
      obtain ⟨migrated, there, -, isNamed⟩ := listed path member
      rw [there, Option.map_some, migrateText_of_named isNamed]
    · rfl

theorem corpusRenders_of_undelimited (dumps : CorpusDumps safeDump runtime tree)
    (undelimited : CorpusUndelimited safeDump runtime tree) :
    CorpusRenders safeDump runtime tree :=
  fun path member text here inserted inserts =>
    ⟨dumps path member text here inserted inserts,
      undelimited path member text here inserted inserts⟩

/-- The lanes converge if and only if no line that the migration emits is a delimiter, every
missing status of a scanned document can be written, and every document that one lane alone puts
in force makes no difference. -/
theorem migration_converges_iff (once : LoadsOnce runtime)
    (dumps : CorpusDumps safeDump runtime tree)
    (applied : applyStatusAutofill safeDump runtime tree = .ok migration)
    (built : runtime.build config.virtual tree = .ok before)
    (rebuilt : runtime.build config.physical migration.tree = .ok after) :
    Converges safeDump runtime tree migration before after ↔
      CorpusUndelimited safeDump runtime tree ∧ CorpusFits runtime tree ∧
        ∀ today, Undisturbed (runtime.Served config.virtual tree today)
          (ServedAfter runtime config tree today) (runtime.Supersedes tree) := by
  have visited := visited_of_applyStatusAutofill applied
  constructor
  · intro converges
    have undelimited : CorpusUndelimited safeDump runtime tree := by
      intro path member text here inserted inserts
      have there := lookup_migrated_of_mem visited member here
      obtain ⟨migrated, found, keeps, -⟩ := converges.kept path text here
      cases there.symm.trans found
      exact undelimited_of_keepsDocument inserts (dumps path member text here inserted inserts)
        keeps
    have renders := corpusRenders_of_undelimited dumps undelimited
    have fits : CorpusFits runtime tree := by
      intro path member text here
      have there := lookup_migrated_of_mem visited member here
      apply (statusFits_iff once (renders path member text here)).mpr
      intro entries body parsed
      exact converges.named path member _ entries body there parsed
    exact ⟨undelimited, fits, (inForce_iff_undisturbed visited renders fits built rebuilt).mp
      converges.inForce⟩
  · rintro ⟨undelimited, fits, undisturbed⟩
    have renders := corpusRenders_of_undelimited dumps undelimited
    have named : ∀ path ∈ tree.bundleFiles, ∀ text entries body,
        migration.tree.lookup path = some text →
          runtime.parseFrontmatter (readBack text) = .ok (entries, body) →
            entries.statusNamed = true := by
      intro path member migrated entries body there parsed
      obtain ⟨text, here, rfl⟩ :=
        lookup_of_migrated_of_isBundleFile visited (List.mem_filter.mp member).2 there
      exact (statusFits_iff once (renders path member text here)).mp
        (fits path member text here) entries body parsed
    refine ⟨named, ?_, ?_, (inForce_iff_undisturbed visited renders fits built rebuilt).mpr
      undisturbed⟩
    · intro path text here
      refine ⟨_, lookup_migrated visited here, ?_, ?_⟩
      · cases scanned : path.isBundleFile with
        | true =>
            rw [if_pos rfl]
            have member := mem_bundleFiles_of_lookup here scanned
            exact keepsDocument_migrateText (renders path member text here)
        | false =>
            rw [if_neg Bool.false_ne_true]
            exact fun entries body parsed => ⟨entries, body, parsed, rfl, rfl⟩
      · intro outside
        rw [if_neg fun scanned => outside (mem_bundleFiles_of_lookup here scanned)]
    · apply settled_of_named visited renders
      intro path member text there
      cases parsed : runtime.parseFrontmatter (readBack text) with
      | error raised => simp [unnamed, parsed]
      | ok result =>
          have isNamed := named path member text result.1 result.2 there parsed
          simp [unnamed, parsed, isNamed]

/-- Where the migration writes exactly the statuses that the index would read as active, both
lanes put the same rows in force. -/
theorem undisturbed_of_agree (built : runtime.build config.virtual tree = .ok before)
    (agree : ∀ path text entries, path.indexable = true → tree.lookup path = some text →
      runtime.lenientFrontmatter (readBack text) = .ok entries →
        (path.isReserved = false ∧ entries.statusMissing = true ↔
          path.isBundleFile = true ∧ unnamed runtime text = true)) (today : Date) :
    Undisturbed (runtime.Served config.virtual tree today)
      (ServedAfter runtime config tree today) (runtime.Supersedes tree) := by
  apply Undisturbed.of_iff
  intro path
  constructor
  · rintro ⟨file, document, inForce⟩
    obtain ⟨text, entries, here, found, -, -, row⟩ := document.view
    have same := agree path text entries document.1 here found
    obtain ⟨outside, claimed | ⟨-, missing⟩, opened⟩ := (row config.virtual today).mp inForce
    · exact ⟨document.1, text, entries, here, found, outside, .inl claimed, opened⟩
    · exact ⟨document.1, text, entries, here, found, outside, .inr (same.mp missing), opened⟩
  · rintro ⟨indexed, text, entries, here, found, outside, status, opened⟩
    obtain ⟨-, storable, -⟩ := (runtime.build_ok_iff config.virtual).mp ⟨before, built⟩
    obtain ⟨file, parsed, -⟩ := storable path text here indexed
    refine ⟨file, ⟨indexed, text, here, parsed⟩, ?_⟩
    apply (runtime.parsedFile_inForce_iff config.virtual parsed found).mpr
    refine ⟨outside, ?_, opened⟩
    obtain claimed | written := status
    · exact .inl claimed
    · exact .inr ⟨rfl, (agree path text entries indexed here found).mpr written⟩

end Corpus

/-! ## A status that is missing, and one that is null -/

/-- Front matter with an id. -/
def plainEntries : Mapping :=
  [(.str (PyStr.lit "id"), .str (PyStr.lit "x"))]

/-- Front matter with an id and a status. -/
def statusEntries (status : Value) : Mapping :=
  plainEntries ++ [(.str (PyStr.lit "status"), status)]

/-- The loader on these mappings. -/
def laneRuntime : Runtime :=
  Runtime.ofBlocks [("id: x".toList, .dict plainEntries),
    ("id: x\nstatus: active".toList, .dict (statusEntries (.str defaultStatus))),
    ("id: x\nstatus: null".toList, .dict (statusEntries .null))]

/-- The emitter on those with a status. -/
def laneDump (entries : Mapping) : Text :=
  if entries.statusNamed then "id: x\nstatus: active\n".toList
  else "id: x\nstatus: null\n".toList

/-- A tree of one document. -/
def laneTree (block : String) : Tree :=
  Tree.write ∅ rulePath (enclose (block.toList ++ ['\n']) "b".toList)

/-- The index of a tree, where it can be built. -/
def laneIndex (config : IndexConfig) (tree : Tree) : Index :=
  (laneRuntime.build config tree).toOption.getD ⟨[], [], 0, 0⟩

/-- What the migration makes of a tree. -/
def laneMigration (tree : Tree) : Migration :=
  (applyStatusAutofill laneDump laneRuntime tree).toOption.getD (.start tree)

theorem loadsOnce_ofBlocks {blocks : List (Text × Value)}
    (once : ∀ block ∈ blocks, ∀ entries, block.2 = .dict entries → Mapping.StatusOnce entries) :
    LoadsOnce (.ofBlocks blocks) := by
  intro raw entries loaded
  unfold Runtime.ofBlocks Runtime.ofLoader at loaded
  dsimp only at loaded
  split at loaded
  · rename_i value found
    cases loaded
    obtain ⟨before, after, split, -⟩ := List.lookup_eq_some_iff.mp found
    apply once (raw, .dict entries) _ entries rfl
    rw [split]
    exact List.mem_append_right _ List.mem_cons_self
  · cases loaded

theorem laneRuntime_loadsOnce : LoadsOnce laneRuntime := by
  apply loadsOnce_ofBlocks
  intro block member entries same
  have held : ∀ status, (statusEntries status).StatusOnce := by
    intro status
    exact Nat.le_refl 1
  simp only [List.mem_cons, List.not_mem_nil, or_false] at member
  obtain rfl | rfl | rfl := member <;> cases same
  · unfold Mapping.StatusOnce
    decide
  · exact held _
  · exact held _

theorem lookup_laneTree {block : String} {path : RelPath} {text : Text}
    (here : (laneTree block).lookup path = some text) :
    path = rulePath ∧ text = enclose (block.toList ++ ['\n']) "b".toList := by
  unfold laneTree at here
  by_cases same : path = rulePath
  · subst same
    rw [Tree.lookup_write] at here
    exact ⟨rfl, (Option.some.inj here).symm⟩
  · rw [Tree.lookup_write_of_ne _ _ same] at here
    cases here

/-- The migration of a document without a status converges. -/
theorem missing_status_converges :
    Converges laneDump laneRuntime (laneTree "id: x") (laneMigration (laneTree "id: x"))
      (laneIndex IndexConfig.default.virtual (laneTree "id: x"))
      (laneIndex IndexConfig.default.physical (laneMigration (laneTree "id: x")).tree) := by
  have built : laneRuntime.build IndexConfig.default.virtual (laneTree "id: x") =
      .ok (laneIndex IndexConfig.default.virtual (laneTree "id: x")) := rfl
  have dumps : CorpusDumps laneDump laneRuntime (laneTree "id: x") := by
    rintro path member text here inserted ⟨entries, body, parsed, missing, rfl⟩
    obtain ⟨rfl, rfl⟩ := lookup_laneTree here
    cases parsed
    exact ⟨⟨"id: x\nstatus: active".toList, rfl, rfl⟩, by decide⟩
  apply (migration_converges_iff laneRuntime_loadsOnce dumps rfl built rfl).mpr
  refine ⟨?_, ?_, undisturbed_of_agree built ?_⟩
  · rintro path member text here inserted ⟨entries, body, parsed, missing, rfl⟩
    obtain ⟨rfl, rfl⟩ := lookup_laneTree here
    cases parsed
    unfold Undelimited
    decide
  · intro path member text here entries body parsed
    obtain ⟨rfl, rfl⟩ := lookup_laneTree here
    cases parsed
    exact .inr (by decide)
  · intro path text entries indexed here found
    obtain ⟨rfl, rfl⟩ := lookup_laneTree here
    cases found
    exact iff_of_true ⟨by decide, by decide⟩ ⟨by decide, by decide⟩

/-- A status that is null behind the id stays null: the migration does not converge. -/
theorem null_status_stays_null :
    LoadsOnce laneRuntime ∧
      CorpusRenders laneDump laneRuntime (laneTree "id: x\nstatus: null") ∧
      ∃ migration before after,
        applyStatusAutofill laneDump laneRuntime (laneTree "id: x\nstatus: null") =
          .ok migration ∧
        laneRuntime.build IndexConfig.default.virtual (laneTree "id: x\nstatus: null") =
          .ok before ∧
        laneRuntime.build IndexConfig.default.physical migration.tree = .ok after ∧
        ¬Converges laneDump laneRuntime (laneTree "id: x\nstatus: null") migration before
          after := by
  refine ⟨laneRuntime_loadsOnce, ?_, _, _, _, rfl, rfl, rfl, ?_⟩
  · rintro path member text here inserted ⟨entries, body, parsed, missing, rfl⟩
    obtain ⟨rfl, rfl⟩ := lookup_laneTree here
    cases parsed
    refine ⟨⟨⟨"id: x\nstatus: null".toList, rfl, rfl⟩, by decide⟩, ?_⟩
    unfold Undelimited
    decide
  · intro converges
    have stays := converges.named rulePath (by decide) _ (statusEntries .null) _ rfl rfl
    exact absurd stays (by decide)

end DataOlympus
