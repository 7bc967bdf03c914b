import DataOlympus.Importer.Atomic
import DataOlympus.Importer.Stamped
import DataOlympus.Transition.Run

/-!
# Repeated imports

A forced run clears the files that the marker records and makes its drafts anew.  Where no draft
takes the name of another entry, a second forced run makes the same drafts but for their stamp,
and no run touches what no import has made.
-/

namespace DataOlympus.Importer

open Lines Replay Select Transition

/-! ## File names are names of children -/

theorem mem_replaceRuns {keep : Char → Bool} {inside : Bool} {text : Text} {c : Char}
    (member : c ∈ replaceRuns keep '-' inside text) : c = '-' ∨ keep c = true := by
  induction text generalizing inside with
  | nil => cases member
  | cons first rest ih =>
      rw [replaceRuns] at member
      split at member
      · rename_i kept
        obtain rfl | later := List.mem_cons.mp member
        · exact .inr kept
        · exact ih later
      · split at member
        · exact ih member
        · obtain mark | later := List.mem_cons.mp member
          · exact .inl mark
          · exact ih later

theorem mem_of_mem_stripChar {text : Text} {c : Char} (member : c ∈ stripChar '-' text) :
    c ∈ text := by
  have inner := (List.rdropWhile_prefix (fun c => decide (c = '-'))
    (text.dropWhile (· = '-'))).subset member
  exact (List.dropWhile_suffix _).subset inner

theorem slash_slugify {tables : TextTables} {text fallback : Text} (flat : '/' ∉ fallback) :
    '/' ∉ slugify tables text fallback := by
  unfold slugify
  dsimp only
  split
  · exact flat
  · intro member
    obtain mark | kept := mem_replaceRuns (mem_of_mem_stripChar member)
    · cases mark
    · exact absurd kept (by decide)

theorem slash_toDigits (n : Nat) : '/' ∉ Nat.toDigits 10 n := by
  intro member
  have digit := Nat.isDigit_of_mem_toDigits (by decide) (by decide) member
  exact absurd digit (by decide)

theorem slash_stemCandidate {stem : Text} (flat : '/' ∉ stem) (n : Nat) :
    '/' ∉ stemCandidate stem n := by
  cases n with
  | zero =>
      rw [stemCandidate]
      split
      · decide
      · exact flat
  | succ n =>
      rw [stemCandidate]
      simp only [List.mem_append, List.mem_cons, not_or]
      exact ⟨flat, by decide, slash_toDigits _⟩

/-- ASCII without a slash. -/
def Plain (text : Text) : Prop :=
  ∀ c ∈ text, c.toNat < 128 ∧ c ≠ '/'

theorem plain_of_all {text : Text}
    (all : text.all (fun c => decide (c.toNat < 128 ∧ c ≠ '/')) = true) : Plain text :=
  fun c member => of_decide_eq_true (List.all_eq_true.mp all c member)

theorem plain_padded (width n : Nat) : Plain (Time.padded width n) := by
  intro c member
  have digit : c.isDigit = true := by
    unfold Time.padded at member
    obtain zeros | digits := List.mem_append.mp member
    · rw [List.eq_of_mem_replicate zeros]
      rfl
    · exact Nat.isDigit_of_mem_toDigits (by decide) (by decide) digits
  have range : 48 ≤ c.toNat ∧ c.toNat ≤ 57 := by
    simpa [Char.isDigit, UInt32.le_iff_toNat_le] using digit
  refine ⟨by omega, ?_⟩
  rintro rfl
  exact absurd digit (by decide)

theorem plain_sanitizeIdPrefix (idPrefix : Text) : Plain (sanitizeIdPrefix idPrefix) := by
  intro c member
  unfold sanitizeIdPrefix at member
  dsimp only at member
  split at member
  · have imported : Plain "IMP".toList := plain_of_all rfl
    exact imported c member
  · obtain rfl | kept := mem_replaceRuns (mem_of_mem_stripChar member)
    · decide
    · constructor
      · have small : c.toLower.toNat ≤ 122 := by
          simp only [isSlugChar, Bool.or_eq_true, Bool.and_eq_true, decide_eq_true_eq,
            Char.le_def, UInt32.le_iff_toNat_le] at kept
          obtain ⟨-, letter⟩ | ⟨-, digit⟩ := kept
          · exact letter
          · exact Nat.le_trans digit (by decide)
        obtain ⟨same, -⟩ | ⟨range, -⟩ := toLower_cases c
        · rw [same] at small
          omega
        · omega
      · rintro rfl
        exact absurd kept (by decide)

/-- Lowercase makes no slash of another character of ASCII. -/
theorem slash_lower (tables : TextTables) {text : Text} (plain : Plain text) :
    '/' ∉ tables.lower text := by
  have from_before : ∀ before, '/' ∉ tables.lowerFrom before text := by
    induction text with
    | nil => exact fun _ => List.not_mem_nil
    | cons c rest ih =>
        intro before
        obtain ⟨small, noSlash⟩ := plain c List.mem_cons_self
        have noSigma : c ≠ 'Σ' := by
          rintro rfl
          exact absurd small (by decide)
        rw [Unicode.lowerFrom, if_neg noSigma, tables.lower_ascii c small, List.singleton_append]
        intro member
        obtain here | later := List.mem_cons.mp member
        · obtain ⟨same, -⟩ | ⟨range, shifted⟩ := toLower_cases c
          · rw [same] at here
            exact noSlash here.symm
          · rw [← here] at shifted
            have code : '/'.toNat = 47 := by decide
            omega
        · exact ih (fun d member => plain d (List.mem_cons_of_mem _ member)) _ later
  exact from_before []

theorem slash_uniqueStem {stem : Text} (flat : '/' ∉ stem) (names : List Text) :
    '/' ∉ uniqueStem stem names :=
  slash_stemCandidate flat _

theorem slash_filename {stem : Text} (flat : '/' ∉ stem) : '/' ∉ stem ++ ".md".toList := by
  intro member
  obtain inStem | inSuffix := List.mem_append.mp member
  · exact flat inStem
  · exact absurd inSuffix (by decide)

section Loops

variable {tables : TextTables} {runtime : Runtime} {repr : Repr} {readAdr : AdrReader}
  {options : DraftOptions}

theorem slash_flatLoop (flat : FlatOptions) {alloc : IdAllocator} (names : List Text)
    (sections : List Section) (plain : Plain alloc.idPrefix) :
    ∀ draft ∈ (flatLoop tables flat alloc names sections).1, '/' ∉ draft.filename := by
  induction sections generalizing alloc names with
  | nil => exact List.forall_mem_nil _
  | cons sec rest ih =>
      rw [flatLoop]
      split
      · exact ih names plain
      · have docId : Plain alloc.next.1 := by
          intro c member
          obtain inPrefix | later := List.mem_append.mp member
          · exact plain c inPrefix
          · obtain rfl | inNumber := List.mem_cons.mp later
            · decide
            · exact plain_padded 3 _ c inNumber
        intro draft member
        obtain rfl | later := List.mem_cons.mp member
        · exact slash_filename (slash_uniqueStem (slash_slugify (slash_lower tables docId)) names)
        · have kept : Plain alloc.next.2.idPrefix := plain
          exact ih _ kept draft later

theorem slash_adrLoop {seen : List PyStr} {names : List Text} {files : List AdrFile}
    {drafts : List DraftDoc}
    (done : adrLoop tables repr readAdr options seen names files = .ok drafts) :
    ∀ draft ∈ drafts, '/' ∉ draft.filename := by
  induction files generalizing seen names drafts with
  | nil =>
      cases done
      exact List.forall_mem_nil _
  | cons file rest ih =>
      obtain ⟨text, -, done⟩ := Except.bind_eq_ok_iff.mp done
      dsimp only at done
      split at done
      · cases done
      · obtain ⟨later, further, done⟩ := Except.bind_eq_ok_iff.mp done
        cases done
        have docId : Plain (canonicalAdrId file.number) := by
          intro c member
          obtain inPrefix | inNumber := List.mem_append.mp member
          · have fixed : Plain "ADR-".toList := plain_of_all rfl
            exact fixed c inPrefix
          · exact plain_padded 4 _ c inNumber
        have stem : '/' ∉ tables.lower (canonicalAdrId file.number) ++ '-' ::
            slugify tables file.slug "concept".toList := by
          simp only [List.mem_append, List.mem_cons, not_or]
          exact ⟨slash_lower tables docId, by decide, slash_slugify (by decide)⟩
        intro draft member
        obtain rfl | inRest := List.mem_cons.mp member
        · exact slash_filename (slash_uniqueStem stem names)
        · exact ih further draft inRest

theorem slash_okfLoop {seen : List PyStr} {names : List Text} {files : List OkfFile}
    {drafts : List DraftDoc}
    (done : okfLoop tables runtime repr options seen names files = .ok drafts) :
    ∀ draft ∈ drafts, '/' ∉ draft.filename := by
  induction files generalizing seen names drafts with
  | nil =>
      cases done
      exact List.forall_mem_nil _
  | cons file rest ih =>
      obtain ⟨normalized, -, done⟩ := Except.bind_eq_ok_iff.mp done
      obtain ⟨docId, -, done⟩ := Except.bind_eq_ok_iff.mp done
      dsimp only at done
      split at done
      · cases done
      · obtain ⟨later, further, done⟩ := Except.bind_eq_ok_iff.mp done
        cases done
        intro draft member
        obtain rfl | inRest := List.mem_cons.mp member
        · exact slash_filename (slash_uniqueStem (slash_slugify file.oneName) names)
        · exact ih further draft inRest

/-- No draft has a slash in its file name. -/
theorem slash_sourceDrafts {source : Source} {existing : List PyStr} {drafts : List DraftDoc}
    {skipped : List SkippedSection}
    (done : sourceDrafts tables runtime repr readAdr source options existing =
      .ok (drafts, skipped)) : ∀ draft ∈ drafts, '/' ∉ draft.filename := by
  unfold sourceDrafts at done
  split at done
  · split at done
    · cases done
    · obtain ⟨found, loop, same⟩ := Except.map_eq_ok_iff.mp done
      cases same
      exact slash_adrLoop loop
  · split at done
    · cases done
    · obtain ⟨found, loop, same⟩ := Except.map_eq_ok_iff.mp done
      cases same
      exact slash_okfLoop loop
  · split at done
    · cases done
    · cases done
    · rename_i text read
      have plain : Plain (IdAllocator.new options.flat.idPrefix existing).idPrefix :=
        plain_sanitizeIdPrefix options.flat.idPrefix
      have flat : flatDrafts tables options.flat existing (readBack text) = (drafts, skipped) :=
        Except.ok.inj done
      rw [flatDrafts] at flat
      have slashless :=
        @slash_flatLoop tables options.flat _ [] (splitFlat (readBack text)) plain
      rw [flat] at slashless
      exact slashless

end Loops

/-- The name of a child without a slash. -/
theorem childName_filename (outDir : Text) {stem : Text} (flat : '/' ∉ stem) :
    childName outDir (stem ++ ".md".toList) = some (stem ++ ".md".toList) := by
  have noSlash := slash_filename flat
  have nonempty : stem ++ ".md".toList ≠ [] := by simp
  have noDot : stem ++ ".md".toList ≠ ['.'] := by
    intro same
    have longer := congrArg List.length same
    rw [List.length_append] at longer
    exact absurd longer (by simp)
  have leading : (stem ++ ".md".toList).takeWhile (· = '/') = [] := by
    apply List.takeWhile_eq_nil_iff.mpr
    intro positive first
    exact noSlash ((of_decide_eq_true first) ▸ List.getElem_mem positive)
  have path : purePath (stem ++ ".md".toList) = (0, [stem ++ ".md".toList]) := by
    unfold purePath
    rw [leading, List.splitOn_eq_singleton noSlash]
    have kept : [stem ++ ".md".toList].filter (fun part => part ≠ [] ∧ part ≠ ['.']) =
        [stem ++ ".md".toList] :=
      List.filter_cons_of_pos (decide_eq_true ⟨nonempty, noDot⟩)
    rw [kept]
    rfl
  unfold childName
  dsimp only
  rw [path, if_pos rfl, if_pos ⟨rfl, List.dropLast_concat, by simp⟩]
  exact List.getLast?_concat

/-! ## The marker is read back -/

theorem textOf_ofText (text : Text) : textOf (PyStr.ofText text) = some text := by
  induction text with
  | nil => rfl
  | cons c rest ih =>
      unfold textOf PyStr.ofText at *
      rw [List.map_cons, List.mapM_cons, ih]
      rfl

/-- The names that a marker records are those of the drafts. -/
theorem recorded_markerText (runtime : ImportRuntime) (call : ImportCall)
    (created : List Text) :
    runtime.recorded (.file (.text (call.markerText created))) =
      .ok (created.map fun name => .str (PyStr.ofText name)) := by
  have blanks : Blanks ['\n'] := List.forall_mem_singleton.mpr rfl
  have read := Shape.loads_printObject runtime.json ("kind".toList, .text call.kind)
    [("source".toList, .text call.source.path), ("created".toList, .texts created)] blanks
  have noReturn : '\r' ∉ call.markerText created := by
    intro member
    obtain inObject | last := List.mem_append.mp member
    · exact Shape.no_return_printObject _ _ inObject
    · exact absurd last (by decide)
  have same : readBack (call.markerText created) = call.markerText created :=
    universalNewlines_of_no_return noReturn
  unfold ImportRuntime.recorded
  dsimp only
  rw [same, ImportCall.markerText, read]
  rfl

/-! ## The ids that are in use -/

theorem mem_concepts_iff {listing : Listing} {concept : Text × FileContent} :
    concept ∈ concepts listing ↔
      ∃ name entry, listing.lookup name = some entry ∧ concept ∈ entry.concepts name := by
  unfold concepts
  rw [List.mem_flatMap]
  constructor
  · rintro ⟨⟨name, entry⟩, here, member⟩
    exact ⟨name, entry, AList.mem_lookup_iff.mpr here, member⟩
  · rintro ⟨name, entry, here, member⟩
    exact ⟨⟨name, entry⟩, AList.mem_lookup_iff.mp here, member⟩

/-- The marker is no document of the directory. -/
def PlainMarker (listing : Listing) : Prop :=
  ∀ entry, listing.lookup markerName = some entry → entry.concepts markerName = []

theorem concepts_subset {first second : Listing} (plain : PlainMarker first)
    (same : ∀ name, name ≠ markerName → first.lookup name = second.lookup name)
    {concept : Text × FileContent} (member : concept ∈ concepts first) :
    concept ∈ concepts second := by
  obtain ⟨name, entry, here, inside⟩ := mem_concepts_iff.mp member
  have different : name ≠ markerName := by
    rintro rfl
    rw [plain entry here] at inside
    cases inside
  rw [same name different] at here
  exact mem_concepts_iff.mpr ⟨name, entry, here, inside⟩

/-- The ids in use depend on what is there beside the marker. -/
theorem existingIds_congr {runtime : ImportRuntime} {first second : Listing}
    (plainFirst : PlainMarker first) (plainSecond : PlainMarker second)
    (same : ∀ name, name ≠ markerName → first.lookup name = second.lookup name)
    {ids : List PyStr} (read : existingIds runtime first = .ok ids) :
    ∃ ids', existingIds runtime second = .ok ids' ∧ ∀ docId, docId ∈ ids ↔ docId ∈ ids' := by
  have there : ∀ concept, concept ∈ concepts second → concept ∈ concepts first :=
    fun concept => concepts_subset plainSecond fun name different => (same name different).symm
  obtain ⟨found, done, rfl⟩ := Except.map_eq_ok_iff.mp read
  have again : ∃ found', ((concepts second).mapM fun concept => conceptIds runtime concept.2) =
      .ok found' := by
    apply Except.exists_mapM_ok_iff.mpr
    intro concept member
    obtain ⟨result, -, here⟩ := Except.mem_mapM_of_mem done (there concept member)
    exact ⟨result, here⟩
  obtain ⟨found', done'⟩ := again
  refine ⟨found'.flatten, Except.map_eq_ok_iff.mpr ⟨found', done', rfl⟩, fun docId => ?_⟩
  have carried : ∀ {items others : List (Text × FileContent)} {ids ids' : List (List PyStr)},
      (items.mapM fun concept => conceptIds runtime concept.2) = .ok ids →
        (others.mapM fun concept => conceptIds runtime concept.2) = .ok ids' →
          (∀ item ∈ items, item ∈ others) → docId ∈ ids.flatten → docId ∈ ids'.flatten := by
    intro items others ids ids' done done' subset member
    obtain ⟨result, inIds, inResult⟩ := List.mem_flatten.mp member
    obtain ⟨item, inItems, here⟩ := Except.exists_of_mem_mapM done inIds
    obtain ⟨result', inIds', here'⟩ := Except.mem_mapM_of_mem done' (subset item inItems)
    cases here.symm.trans here'
    exact List.mem_flatten.mpr ⟨result, inIds', inResult⟩
  constructor
  · exact carried done done' fun item => concepts_subset plainFirst same
  · exact carried done' done there

/-! ## A run that writes its marker -/

section Run

variable (runtime : ImportRuntime) (call : ImportCall)

/-- What the clear leaves. -/
def ImportCall.left (dir : OutDir) : Listing :=
  eraseAll dir.listing (call.removed runtime dir.listing)

/-- No draft takes the name of an entry that the clear left. -/
def ImportCall.Fresh (dir : OutDir) : Prop :=
  ∀ options drafts skipped, call.checked runtime = .ok options →
    call.plan runtime options (call.left runtime dir) = .ok (drafts, skipped) →
      ∀ draft ∈ drafts, (call.left runtime dir).lookup draft.filename = none

/-- The drafts and the marker are written, and nothing else. -/
structure Recorded (drafts : List DraftDoc) (listing written : Listing) : Prop where
  contents : ∀ draft ∈ drafts, ∃ text, rendered runtime draft = .ok text ∧
    written.lookup draft.filename = some (.file (.text text))
  marker : written.lookup markerName =
    some (.file (.text (call.markerText (drafts.map DraftDoc.filename))))
  others : ∀ name, name ∉ drafts.map DraftDoc.filename → name ≠ markerName →
    written.lookup name = listing.lookup name

end Run

section Spec

variable {runtime : ImportRuntime} {call : ImportCall}

theorem put_of_none {listing : Listing} {name text : Text}
    (done : (call.put listing name text).2 = none) :
    (call.put listing name text).1 = listing.insert name (.file (.text text)) := by
  have written : ∀ {result : WriteResult}, (result.apply listing name text).2 = none →
      (result.apply listing name text).1 = listing.insert name (.file (.text text)) := by
    intro result done
    cases result with
    | whole => rfl
    | refused raised => cases done
    | cut raised left => cases done
  unfold ImportCall.put at done ⊢
  cases here : listing.lookup name with
  | none =>
      rw [here] at done
      exact written done
  | some entry =>
      rw [here] at done
      cases entry with
      | directory concepts => cases done
      | file content => exact written done

theorem writeDrafts_of_none {drafts : List DraftDoc} {listing : Listing}
    (once : (drafts.map DraftDoc.filename).Nodup)
    (done : (call.writeDrafts runtime drafts listing).2 = none) :
    (∀ draft ∈ drafts, ∃ text, rendered runtime draft = .ok text ∧
      (call.writeDrafts runtime drafts listing).1.lookup draft.filename =
        some (.file (.text text))) ∧
    ∀ name, name ∉ drafts.map DraftDoc.filename →
      (call.writeDrafts runtime drafts listing).1.lookup name = listing.lookup name := by
  induction drafts generalizing listing with
  | nil => exact ⟨List.forall_mem_nil _, fun _ _ => rfl⟩
  | cons draft rest ih =>
      obtain ⟨fresh, once⟩ := List.nodup_cons.mp once
      unfold ImportCall.writeDrafts at done ⊢
      cases rendering : rendered runtime draft with
      | error raised =>
          rw [rendering] at done
          cases done
      | ok text =>
          rw [rendering] at done
          dsimp only at done ⊢
          cases result : call.put listing draft.filename text with
          | mk written raised =>
              rw [result] at done
              cases raised with
              | some raised => cases done
              | none =>
                  have put : written = listing.insert draft.filename (.file (.text text)) := by
                    have whole : (call.put listing draft.filename text).2 = none := by
                      rw [result]
                    have first := put_of_none whole
                    rw [result] at first
                    exact first
                  obtain ⟨drafts, others⟩ := ih once done
                  dsimp only
                  refine ⟨?_, ?_⟩
                  · intro other member
                    obtain rfl | inRest := List.mem_cons.mp member
                    · refine ⟨text, rendering, ?_⟩
                      rw [others _ fresh, put, AList.lookup_insert]
                    · exact drafts other inRest
                  · intro name outside
                    rw [List.map_cons, List.mem_cons, not_or] at outside
                    rw [others name outside.2, put, AList.lookup_insert_ne outside.1]

theorem record_of_none {drafts : List DraftDoc} {listing : Listing} (named : Named [] drafts)
    (done : (call.record runtime drafts listing).2 = none) :
    Recorded runtime call drafts listing (call.record runtime drafts listing).1 := by
  obtain ⟨once, unmarked⟩ := named.distinct
  unfold ImportCall.record at done ⊢
  cases result : call.writeDrafts runtime drafts listing with
  | mk written raised =>
      rw [result] at done
      cases raised with
      | some raised => cases done
      | none =>
          have whole : (call.writeDrafts runtime drafts listing).2 = none := by rw [result]
          have wrote := writeDrafts_of_none once whole
          rw [result] at wrote
          dsimp only at done ⊢
          rw [put_of_none done]
          refine ⟨?_, AList.lookup_insert _, ?_⟩
          · intro draft member
            obtain ⟨text, rendering, here⟩ := wrote.1 draft member
            refine ⟨text, rendering, ?_⟩
            rw [AList.lookup_insert_ne, here]
            rintro same
            exact unmarked (same ▸ List.mem_map_of_mem member)
          · intro name outside different
            rw [AList.lookup_insert_ne different, wrote.2 name outside]

/-! ## The second run -/

/-- The same call at another time, with other faults. -/
def ImportCall.Repeats (again call : ImportCall) : Prop :=
  again = { call with generated := again.generated, disk := again.disk }

theorem checked_again {again : ImportCall} (repeats : again.Repeats call)
    {options : DraftOptions} (checked : call.checked runtime = .ok options) :
    again.checked runtime = .ok (options.at again.generated) := by
  rw [repeats]
  unfold ImportCall.checked at checked ⊢
  dsimp only at checked ⊢
  split at checked
  · cases checked
  · rename_i known
    rw [if_neg known]
    split at checked
    · cases checked
    · split at checked
      · cases checked
      · rename_i kind found
        rw [found]
        dsimp only
        split at checked
        · cases checked
        · split at checked
          · rename_i present
            cases checked
            rw [if_pos present]
            rfl
          · cases checked

theorem fileNamed_of_file {listing : Listing} {name : Text} {content : FileContent}
    (child : childName call.outDir name = some name)
    (here : listing.lookup name = some (.file content)) :
    call.fileNamed listing (.str (PyStr.ofText name)) = some name := by
  unfold ImportCall.fileNamed
  dsimp only
  rw [textOf_ofText, Option.bind_some, child]
  dsimp only
  rw [here]

/-- A clear without a fault removes every recorded file that is there. -/
theorem removals_of_none {names : List Text} {listing : Listing} (once : names.Nodup)
    (there : ∀ name ∈ names, childName call.outDir name = some name ∧
      ∃ content, listing.lookup name = some (.file content))
    (done : (call.clearNames (names.map fun name => .str (PyStr.ofText name)) listing).2 =
      none) :
    call.removals (names.map fun name => .str (PyStr.ofText name)) listing = names := by
  induction names generalizing listing with
  | nil => rfl
  | cons name rest ih =>
      obtain ⟨fresh, once⟩ := List.nodup_cons.mp once
      obtain ⟨child, content, here⟩ := there name List.mem_cons_self
      have named := @fileNamed_of_file call _ _ _ child here
      rw [List.map_cons] at done ⊢
      unfold ImportCall.clearNames at done
      unfold ImportCall.removals
      rw [named] at done ⊢
      dsimp only at done ⊢
      cases unlinked : call.disk.unlink name with
      | some raised =>
          rw [unlinked] at done
          cases done
      | none =>
          rw [unlinked] at done
          rw [Option.isSome_none, if_neg Bool.false_ne_true]
          congr 1
          apply ih once _ done
          intro other member
          obtain ⟨otherChild, otherContent, otherHere⟩ :=
            there other (List.mem_cons_of_mem _ member)
          refine ⟨otherChild, otherContent, ?_⟩
          rw [AList.lookup_erase_ne, otherHere]
          rintro rfl
          exact fresh member

/-- The drafts of a plan are children of the directory. -/
theorem childName_plan {options : DraftOptions} {listing : Listing} {drafts : List DraftDoc}
    {skipped : List SkippedSection}
    (planned : call.plan runtime options listing = .ok (drafts, skipped)) (outDir : Text) :
    ∀ name ∈ drafts.map DraftDoc.filename, childName outDir name = some name := by
  obtain ⟨stems, same, -, -⟩ := named_plan planned
  obtain ⟨existing, -, planned⟩ := Except.bind_eq_ok_iff.mp planned
  obtain ⟨drafted, made, planned⟩ := Except.bind_eq_ok_iff.mp planned
  split at planned
  · cases planned
  · cases planned
    intro name member
    obtain ⟨draft, inDrafts, rfl⟩ := List.mem_map.mp member
    have flat := slash_sourceDrafts made draft inDrafts
    rw [same] at member
    obtain ⟨stem, -, equal⟩ := List.mem_map.mp member
    rw [← equal] at flat ⊢
    apply childName_filename
    exact fun inStem => flat (List.mem_append_left _ inStem)

/-- The plan of a second run beside the same entries. -/
theorem plan_again {again : ImportCall} (repeats : again.Repeats call) {options : DraftOptions}
    {first second : Listing} (plainFirst : PlainMarker first) (plainSecond : PlainMarker second)
    (same : ∀ name, name ≠ markerName → first.lookup name = second.lookup name)
    {drafts : List DraftDoc} {skipped : List SkippedSection}
    (planned : call.plan runtime options first = .ok (drafts, skipped)) :
    ∃ drafts', again.plan runtime (options.at again.generated) second =
        .ok (drafts', skipped) ∧
      drafts'.map DraftDoc.unstamped = drafts.map DraftDoc.unstamped := by
  obtain ⟨existing, read, planned⟩ := Except.bind_eq_ok_iff.mp planned
  obtain ⟨drafted, made, planned⟩ := Except.bind_eq_ok_iff.mp planned
  split at planned
  · cases planned
  · rename_i nonempty
    cases planned
    obtain ⟨existing', read', members⟩ := existingIds_congr plainFirst plainSecond same read
    obtain ⟨drafts', made', unstamped⟩ := sourceDrafts_restamped again.generated members made
    have source : again.source = call.source := by
      rw [repeats]
    have some_drafts : ¬drafts'.isEmpty = true := by
      intro empty
      have lengths := congrArg List.length unstamped
      rw [List.length_map, List.length_map, List.isEmpty_iff.mp empty] at lengths
      exact nonempty (List.isEmpty_iff.mpr (List.length_eq_zero_iff.mp lengths.symm))
    refine ⟨drafts', ?_, unstamped⟩
    apply Except.bind_eq_ok_iff.mpr ⟨existing', read', ?_⟩
    rw [source]
    apply Except.bind_eq_ok_iff.mpr ⟨(drafts', skipped), made', ?_⟩
    exact if_neg some_drafts

theorem filenames_of_unstamped {drafts drafts' : List DraftDoc}
    (unstamped : drafts'.map DraftDoc.unstamped = drafts.map DraftDoc.unstamped) :
    drafts'.map DraftDoc.filename = drafts.map DraftDoc.filename := by
  have filenames := congrArg (List.map DraftDoc.filename) unstamped
  rw [List.map_map, List.map_map] at filenames
  exact filenames

theorem docIds_of_unstamped {drafts drafts' : List DraftDoc}
    (unstamped : drafts'.map DraftDoc.unstamped = drafts.map DraftDoc.unstamped) :
    drafts'.map DraftDoc.docId = drafts.map DraftDoc.docId := by
  have masked : ∀ draft : DraftDoc, draft.unstamped.docId = draft.docId := by
    intro draft
    unfold DraftDoc.docId DraftDoc.unstamped
    dsimp only
    rw [Mapping.get_masked (by decide)]
  have docIds := congrArg (List.map DraftDoc.docId) unstamped
  rw [List.map_map, List.map_map] at docIds
  have same : DraftDoc.docId ∘ DraftDoc.unstamped = DraftDoc.docId := funext masked
  rw [same] at docIds
  exact docIds

/-- What a run that returns has done. -/
theorem runImport_of_ok {dir : OutDir} {report : ImportReport}
    (returned : (call.runImport runtime dir).2 = .ok report) :
    ∃ options drafts, call.checked runtime = .ok options ∧
      (call.clear runtime dir.listing).2 = none ∧
      call.plan runtime options (call.left runtime dir) = .ok (drafts, report.skipped) ∧
      report.created = drafts.map DraftDoc.filename ∧
      Recorded runtime call drafts (call.left runtime dir)
        (call.runImport runtime dir).1.listing := by
  obtain ⟨options, drafts, skipped, findings, checked, rerun, cleared, planned, made, recorded,
    linted⟩ := (completes_iff dir).mp ⟨report, returned⟩
  have left : (call.clear runtime dir.listing).1 = call.left runtime dir := clear_fst _
  unfold ImportCall.runImport at returned ⊢
  rw [checked, rerun] at returned ⊢
  dsimp only at returned ⊢
  have pair : call.clear runtime dir.listing = (call.left runtime dir, none) :=
    Prod.ext left cleared
  rw [left] at planned recorded linted
  rw [pair] at returned ⊢
  dsimp only at returned ⊢
  rw [planned] at returned ⊢
  dsimp only at returned ⊢
  rw [made] at returned ⊢
  dsimp only at returned ⊢
  have wrote := record_of_none (named_plan planned) recorded
  cases result : call.record runtime drafts (call.left runtime dir) with
  | mk written raised =>
      rw [result] at returned recorded linted wrote
      cases recorded
      dsimp only at returned linted ⊢
      rw [linted] at returned
      cases returned
      exact ⟨options, drafts, rfl, rfl, planned, rfl, wrote⟩

/-- A second run makes what the first one made, but for the stamp. -/
structure MadeAgain (runtime : ImportRuntime) (call again : ImportCall) (dir : OutDir)
    (report : ImportReport) (drafts drafts' : List DraftDoc) : Prop where
  created : report.created = drafts.map DraftDoc.filename
  first : Recorded runtime call drafts (call.left runtime dir)
    (call.runImport runtime dir).1.listing
  unstamped : drafts'.map DraftDoc.unstamped = drafts.map DraftDoc.unstamped
  docIds : drafts'.map DraftDoc.docId = drafts.map DraftDoc.docId
  planned : (again.clear runtime (call.runImport runtime dir).1.listing).2 = none →
    ∃ options, again.checked runtime = .ok options ∧
      again.plan runtime options (again.left runtime (call.runImport runtime dir).1) =
        .ok (drafts', report.skipped)
  second : ∀ report', (again.runImport runtime (call.runImport runtime dir).1).2 = .ok report' →
    report'.created = report.created ∧ report'.skipped = report.skipped ∧
      Recorded runtime again drafts' (again.left runtime (call.runImport runtime dir).1)
        (again.runImport runtime (call.runImport runtime dir).1).1.listing ∧
      ∀ name, name ∉ report.created →
        (again.runImport runtime (call.runImport runtime dir).1).1.listing.lookup name =
          (call.runImport runtime dir).1.listing.lookup name

theorem plainMarker_of_file {listing : Listing}
    (file : ∀ entry, listing.lookup markerName = some entry → ∃ content, entry = .file content) :
    PlainMarker listing := by
  intro entry here
  obtain ⟨content, rfl⟩ := file entry here
  rfl

/-- A forced run whose marker can be used leaves no directory in its place. -/
theorem plainMarker_left {dir : OutDir} (force : call.force = true)
    (cleared : (call.clear runtime dir.listing).2 = none) :
    PlainMarker (call.left runtime dir) := by
  apply plainMarker_of_file
  intro entry here
  unfold ImportCall.left at here
  rw [lookup_eraseAll] at here
  split at here
  · cases here
  · unfold ImportCall.clear at cleared
    rw [if_pos force, here] at cleared
    dsimp only at cleared
    cases entry with
    | file content => exact ⟨content, rfl⟩
    | directory concepts => cases cleared

theorem made_again {again : ImportCall} (force : call.force = true)
    (repeats : again.Repeats call) {dir : OutDir} (fresh : call.Fresh runtime dir)
    {report : ImportReport} (returned : (call.runImport runtime dir).2 = .ok report) :
    ∃ drafts drafts', MadeAgain runtime call again dir report drafts drafts' := by
  obtain ⟨options, drafts, checked, cleared, planned, created, wrote⟩ :=
    runImport_of_ok returned
  obtain ⟨once, unmarked⟩ := (named_plan planned).distinct
  have forced : again.force = true := by
    rw [repeats]
    exact force
  have outDir : again.outDir = call.outDir := by
    rw [repeats]
  -- the clear of the second run removes the drafts of the first one
  have removed : (again.clear runtime (call.runImport runtime dir).1.listing).2 = none →
      again.removed runtime (call.runImport runtime dir).1.listing =
        drafts.map DraftDoc.filename := by
    intro undone
    unfold ImportCall.clear at undone
    unfold ImportCall.removed
    rw [if_pos forced, wrote.marker] at undone ⊢
    dsimp only at undone
    rw [recorded_markerText] at undone
    rw [Option.map_some, recorded_markerText]
    dsimp only at undone ⊢
    apply removals_of_none once _ undone
    intro name member
    obtain ⟨draft, inDrafts, rfl⟩ := List.mem_map.mp member
    obtain ⟨text, -, here⟩ := wrote.contents draft inDrafts
    exact ⟨childName_plan planned _ _ member, _, here⟩
  have same : (again.clear runtime (call.runImport runtime dir).1.listing).2 = none →
      ∀ name, name ≠ markerName → (call.left runtime dir).lookup name =
        (again.left runtime (call.runImport runtime dir).1).lookup name := by
    intro undone name different
    rw [ImportCall.left, ImportCall.left, lookup_eraseAll (call.runImport runtime dir).1.listing,
      removed undone]
    split
    · rename_i member
      obtain ⟨draft, inDrafts, rfl⟩ := List.mem_map.mp member
      exact fresh options drafts report.skipped checked planned draft inDrafts
    · rename_i outside
      exact (wrote.others name outside different).symm
  have plainSecond : PlainMarker (again.left runtime (call.runImport runtime dir).1) := by
    apply plainMarker_of_file
    intro entry here
    unfold ImportCall.left at here
    rw [lookup_eraseAll, wrote.marker] at here
    split at here
    · cases here
    · cases here
      exact ⟨_, rfl⟩
  have marker : ∀ created, again.markerText created = call.markerText created := by
    intro created
    rw [ImportCall.markerText, ImportCall.markerText, repeats]
  by_cases undone : (again.clear runtime (call.runImport runtime dir).1.listing).2 = none
  · obtain ⟨drafts', plannedAgain, unstamped⟩ := plan_again repeats
      (plainMarker_left force cleared) plainSecond (same undone) planned
    have filenames := filenames_of_unstamped unstamped
    refine ⟨drafts, drafts', created, wrote, unstamped, docIds_of_unstamped unstamped, ?_, ?_⟩
    · exact fun _ => ⟨_, checked_again repeats checked, plannedAgain⟩
    · intro report' returnedAgain
      obtain ⟨options', drafts'', checked', -, planned', created', wrote'⟩ :=
        runImport_of_ok returnedAgain
      cases (checked_again repeats checked).symm.trans checked'
      obtain ⟨rfl, skipped⟩ : drafts' = drafts'' ∧ report.skipped = report'.skipped :=
        Prod.mk.inj (Except.ok.inj (plannedAgain.symm.trans planned'))
      refine ⟨by rw [created', filenames, created], skipped.symm, wrote', ?_⟩
      intro name outside
      rw [created] at outside
      by_cases isMarker : name = markerName
      · rw [isMarker, wrote'.marker, wrote.marker, marker, filenames]
      · rw [wrote'.others name (filenames ▸ outside) isMarker, ImportCall.left, lookup_eraseAll,
          removed undone, if_neg outside]
  · refine ⟨drafts, drafts, created, wrote, rfl, rfl, fun cleared => absurd cleared undone, ?_⟩
    intro report' returnedAgain
    obtain ⟨-, -, -, clearedAgain, -⟩ := runImport_of_ok returnedAgain
    exact absurd clearedAgain undone

end Spec

/-! ## Runs and edits by hand -/

/-- A run of the importer, or an entry that is put, changed or removed by hand. -/
inductive ImportAct where
  | run (call : ImportCall)
  | hand (name : Text) (entry : Option Entry)

/-- The output directory, and the names that the last import with a marker wrote. -/
structure ImportState where
  dir : OutDir
  made : List Text

/-- A directory before any import. -/
def ImportState.start (dir : OutDir) : ImportState :=
  ⟨dir, []⟩

/-- An entry is put or removed. -/
def OutDir.set (dir : OutDir) (name : Text) : Option Entry → OutDir
  | some entry => some (dir.listing.insert name entry)
  | none => dir.withListing (dir.listing.erase name)

section Acts

variable (runtime : ImportRuntime)

/-- An act is done. -/
def ImportState.act (state : ImportState) : ImportAct → ImportState
  | .run call => {
      dir := (call.runImport runtime state.dir).1
      made :=
        if markerName ∈ (call.footprint runtime state.dir).written.map Prod.fst then
          (call.footprint runtime state.dir).written.map Prod.fst
        else state.made }
  | .hand name entry => { state with dir := state.dir.set name entry }

/-- The acts, one after the other. -/
def ImportStep : System ImportState ImportAct :=
  fun state act next => next = state.act runtime act

/-- No draft takes the name of another entry, the marker is written whole or not at all, and no
hand touches it. -/
def ImportAct.Allowed (state : ImportState) : ImportAct → Prop
  | run call => call.Fresh runtime state.dir ∧
      ∀ raised left, call.disk.write markerName ≠ .cut raised left
  | hand name _ => name ≠ markerName

/-- The marker was written by an import, and records names of its own only. -/
def ImportState.TrueMarker (state : ImportState) : Prop :=
  ∀ entry, state.dir.listing.lookup markerName = some entry →
    markerName ∈ state.made ∧ ∀ names, runtime.recorded entry = .ok names →
      ∃ created : List Text, names = created.map (fun name => .str (PyStr.ofText name)) ∧
        ∀ name ∈ created, name ∈ state.made ∧ ∀ outDir, childName outDir name = some name

end Acts

section Runs

variable {runtime : ImportRuntime} {call : ImportCall}

/-- What a run does not write is removed or stays. -/
theorem lookup_runImport (dir : OutDir) {name : Text}
    (unwritten : name ∉ (call.footprint runtime dir).written.map Prod.fst) :
    (name ∈ (call.footprint runtime dir).removed →
      (call.runImport runtime dir).1.listing.lookup name = none) ∧
    (name ∉ (call.footprint runtime dir).removed →
      (call.runImport runtime dir).1.listing.lookup name = dir.listing.lookup name) := by
  rw [runImport_fst]
  unfold Footprint.apply
  split
  · have kept := lookup_insertAll_eraseAll dir.listing
      (call.footprint runtime dir).removed unwritten
    exact ⟨fun erased => kept.trans (if_pos erased), fun other => kept.trans (if_neg other)⟩
  · cases dir with
    | none => exact ⟨fun _ => rfl, fun _ => rfl⟩
    | some listing =>
        have kept := lookup_eraseAll listing (call.footprint runtime (some listing)).removed name
        exact ⟨fun erased => kept.trans (if_pos erased), fun other => kept.trans (if_neg other)⟩

theorem mem_removals {names : List Value} {listing : Listing} {name : Text}
    (member : name ∈ call.removals names listing) :
    ∃ text, childName call.outDir text = some name ∧ ∃ s, Value.str s ∈ names ∧
      textOf s = some text := by
  induction names generalizing listing with
  | nil => cases member
  | cons item rest ih =>
      unfold ImportCall.removals at member
      cases here : call.fileNamed listing item with
      | none =>
          rw [here] at member
          obtain ⟨text, child, s, inRest, read⟩ := ih member
          exact ⟨text, child, s, List.mem_cons_of_mem _ inRest, read⟩
      | some found =>
          rw [here] at member
          dsimp only at member
          split at member
          · cases member
          · obtain rfl | later := List.mem_cons.mp member
            · unfold ImportCall.fileNamed at here
              split at here
              · rename_i s
                split at here
                · rename_i child bound
                  split at here
                  · cases here
                    obtain ⟨text, read, isChild⟩ := Option.bind_eq_some_iff.mp bound
                    exact ⟨text, isChild, s, List.mem_cons_self, read⟩
                  · cases here
                · cases here
              · cases here
            · obtain ⟨text, child, s, inRest, read⟩ := ih later
              exact ⟨text, child, s, List.mem_cons_of_mem _ inRest, read⟩

theorem footprint_removed (dir : OutDir) {name : Text}
    (member : name ∈ (call.footprint runtime dir).removed) :
    name ∈ call.removed runtime dir.listing := by
  unfold ImportCall.footprint at member
  split at member
  · dsimp only at member
    split at member
    · exact member
    · exact member
  · cases member

/-- A run removes what an import has made. -/
theorem mem_made_of_removed {state : ImportState} (marker : state.TrueMarker runtime)
    {name : Text} (removed : name ∈ call.removed runtime state.dir.listing) :
    name ∈ state.made := by
  unfold ImportCall.removed at removed
  split at removed
  · cases here : state.dir.listing.lookup markerName with
    | none =>
        rw [here] at removed
        cases removed
    | some entry =>
        rw [here, Option.map_some] at removed
        cases read : runtime.recorded entry with
        | error wrong =>
            rw [read] at removed
            cases removed
        | ok names =>
            rw [read] at removed
            obtain ⟨text, child, s, inNames, shown⟩ := mem_removals removed
            obtain ⟨created, rfl, own⟩ := (marker entry here).2 names read
            obtain ⟨file, inCreated, same⟩ := List.mem_map.mp inNames
            cases same
            rw [textOf_ofText] at shown
            cases shown
            obtain ⟨isMade, isChild⟩ := own text inCreated
            rw [isChild] at child
            cases child
            exact isMade
  · cases removed

/-- A run that writes has a plan. -/
theorem footprint_cases (dir : OutDir) :
    (∃ options drafts skipped, call.checked runtime = .ok options ∧
      call.plan runtime options (call.left runtime dir) = .ok (drafts, skipped) ∧
      call.footprint runtime dir = ⟨call.removed runtime dir.listing, true,
        call.written runtime drafts (call.left runtime dir)⟩) ∨
      (call.footprint runtime dir).written = [] := by
  unfold ImportCall.footprint
  split
  · rename_i options checked rerun
    dsimp only
    split
    · rename_i drafts skipped _ planned _
      exact .inl ⟨options, drafts, skipped, checked, planned, rfl⟩
    · exact .inr rfl
  · exact .inr rfl

/-- What a run writes: the marker, or a draft that takes no other name. -/
theorem written_cases {dir : OutDir} (fresh : call.Fresh runtime dir) {name : Text}
    (member : name ∈ (call.footprint runtime dir).written.map Prod.fst) :
    name = markerName ∨ (call.left runtime dir).lookup name = none := by
  obtain ⟨options, drafts, skipped, checked, planned, done⟩ | nothing :=
    @footprint_cases runtime call dir
  · rw [done] at member
    obtain isDraft | isMarker := List.mem_append.mp ((written_fst drafts _).subset member)
    · obtain ⟨draft, inDrafts, rfl⟩ := List.mem_map.mp isDraft
      exact .inr (fresh options drafts skipped checked planned draft inDrafts)
    · exact .inl (List.mem_singleton.mp isMarker)
  · rw [nothing] at member
    cases member

/-- A run leaves what no import has made. -/
theorem run_spares {state : ImportState} (marker : state.TrueMarker runtime)
    (fresh : call.Fresh runtime state.dir) {name : Text}
    (present : (state.dir.listing.lookup name).isSome = true) (notMade : name ∉ state.made) :
    (call.runImport runtime state.dir).1.listing.lookup name =
      state.dir.listing.lookup name := by
  have notRemoved : name ∉ call.removed runtime state.dir.listing :=
    fun removed => notMade (mem_made_of_removed marker removed)
  have unwritten : name ∉ (call.footprint runtime state.dir).written.map Prod.fst := by
    intro member
    obtain rfl | vacant := written_cases fresh member
    · obtain ⟨entry, here⟩ := Option.isSome_iff_exists.mp present
      exact notMade (marker entry here).1
    · rw [ImportCall.left, lookup_eraseAll, if_neg notRemoved] at vacant
      rw [vacant] at present
      cases present
  exact (lookup_runImport state.dir unwritten).2
    fun member => notRemoved (footprint_removed state.dir member)

theorem landing_of_none {listing : Listing} {name text : Text}
    (done : (call.put listing name text).2 = none) :
    call.landing listing name text = [(name, .file (.text text))] := by
  unfold ImportCall.put at done
  unfold ImportCall.landing
  cases here : listing.lookup name with
  | none =>
      rw [here] at done
      cases result : call.disk.write name with
      | whole => rfl
      | refused raised => rw [result] at done; cases done
      | cut raised left => rw [result] at done; cases done
  | some entry =>
      rw [here] at done
      cases entry with
      | directory concepts => cases done
      | file content =>
          cases result : call.disk.write name with
          | whole => rfl
          | refused raised => rw [result] at done; cases done
          | cut raised left => rw [result] at done; cases done

theorem landed_of_none {drafts : List DraftDoc} {listing : Listing}
    (done : (call.writeDrafts runtime drafts listing).2 = none) :
    (call.landed runtime drafts listing).map Prod.fst = drafts.map DraftDoc.filename := by
  induction drafts generalizing listing with
  | nil => rfl
  | cons draft rest ih =>
      unfold ImportCall.writeDrafts at done
      unfold ImportCall.landed
      cases rendering : rendered runtime draft with
      | error raised =>
          rw [rendering] at done
          cases done
      | ok text =>
          rw [rendering] at done
          dsimp only at done ⊢
          cases result : call.put listing draft.filename text with
          | mk written raised =>
              rw [result] at done
              cases raised with
              | some raised => cases done
              | none =>
                  have whole : (call.put listing draft.filename text).2 = none := by
                    rw [result]
                  have first := landing_of_none whole
                  rw [first, Option.isSome_none, if_neg Bool.false_ne_true, List.map_append,
                    ih done]
                  rfl

theorem whole_of_landed {listing : Listing} {name text : Text}
    (whole : ∀ raised left, call.disk.write name ≠ .cut raised left)
    (landed : name ∈ ((match call.disk.write name with
      | .whole => [(name, Entry.file (.text text))]
      | .refused _ => []
      | .cut _ left => [(name, Entry.file left)]).map Prod.fst : List Text)) :
    ((call.disk.write name).apply listing name text).2 = none := by
  cases result : call.disk.write name with
  | whole => rfl
  | refused raised =>
      rw [result] at landed
      cases landed
  | cut raised left => exact absurd result (whole raised left)

/-- A marker that is not cut short is written behind all drafts. -/
theorem record_of_marker {drafts : List DraftDoc} {listing : Listing}
    (unmarked : markerName ∉ drafts.map DraftDoc.filename)
    (whole : ∀ raised left, call.disk.write markerName ≠ .cut raised left)
    (member : markerName ∈ (call.written runtime drafts listing).map Prod.fst) :
    (call.record runtime drafts listing).2 = none ∧
      drafts.map DraftDoc.filename ⊆ (call.written runtime drafts listing).map Prod.fst := by
  unfold ImportCall.written at member ⊢
  rw [List.map_append, List.mem_append] at member
  have landed : markerName ∉ (call.landed runtime drafts listing).map Prod.fst :=
    fun among => unmarked ((landed_fst drafts listing).subset among)
  have last := member.resolve_left landed
  cases result : call.writeDrafts runtime drafts listing with
  | mk written raised =>
      rw [result] at last
      cases raised with
      | some raised => cases last
      | none =>
          rw [Option.isSome_none, if_neg Bool.false_ne_true] at last
          have put : (call.put written markerName
              (call.markerText (drafts.map DraftDoc.filename))).2 = none := by
            unfold ImportCall.landing at last
            unfold ImportCall.put
            cases here : written.lookup markerName with
            | none =>
                rw [here] at last
                exact whole_of_landed whole last
            | some entry =>
                rw [here] at last
                cases entry with
                | directory concepts => cases last
                | file content => exact whole_of_landed whole last
          have whole : (call.writeDrafts runtime drafts listing).2 = none := by rw [result]
          have drafted := landed_of_none whole
          refine ⟨?_, ?_⟩
          · unfold ImportCall.record
            rw [result]
            exact put
          · rw [List.map_append, drafted]
            exact List.subset_append_left _ _

/-- The marker that a run writes records its drafts. -/
theorem marker_written {dir : OutDir}
    (whole : ∀ raised left, call.disk.write markerName ≠ .cut raised left)
    (member : markerName ∈ (call.footprint runtime dir).written.map Prod.fst) :
    ∃ created : List Text,
      (call.runImport runtime dir).1.listing.lookup markerName =
        some (.file (.text (call.markerText created))) ∧
      ∀ name ∈ created, name ∈ (call.footprint runtime dir).written.map Prod.fst ∧
        ∀ outDir, childName outDir name = some name := by
  obtain ⟨options, drafts, skipped, -, planned, done⟩ | nothing :=
    @footprint_cases runtime call dir
  · obtain ⟨-, unmarked⟩ := (named_plan planned).distinct
    have after : (call.runImport runtime dir).1.listing =
        (call.record runtime drafts (call.left runtime dir)).1 := by
      rw [runImport_fst, done, record_fst]
      rfl
    rw [done] at member ⊢
    have recorded : (call.record runtime drafts (call.left runtime dir)).2 = none ∧
        drafts.map DraftDoc.filename ⊆
          (call.written runtime drafts (call.left runtime dir)).map Prod.fst :=
      record_of_marker unmarked whole member
    have wrote := record_of_none (named_plan planned) recorded.1
    refine ⟨drafts.map DraftDoc.filename, by rw [after]; exact wrote.marker, ?_⟩
    intro name isDraft
    exact ⟨recorded.2 isDraft, fun outDir => childName_plan planned outDir name isDraft⟩
  · rw [nothing] at member
    cases member

/-- Every act keeps a true marker. -/
theorem trueMarker_preserved :
    ((ImportStep runtime).restrict (ImportAct.Allowed runtime)).Preserves
      (ImportState.TrueMarker runtime) := by
  rintro state act next ⟨allowed, rfl⟩ marker
  cases act with
  | hand name entry =>
      intro found here
      have same : (state.dir.set name entry).listing.lookup markerName =
          state.dir.listing.lookup markerName := by
        cases entry with
        | some entry => exact AList.lookup_insert_ne (Ne.symm allowed)
        | none =>
            cases state.dir with
            | none => rfl
            | some listing => exact AList.lookup_erase_ne (Ne.symm allowed)
      exact marker found (same.symm.trans here)
  | run call =>
      obtain ⟨fresh, whole⟩ := allowed
      intro entry here
      by_cases written : markerName ∈ (call.footprint runtime state.dir).written.map Prod.fst
      · obtain ⟨created, there, own⟩ := marker_written whole written
        have isMarker : entry = .file (.text (call.markerText created)) :=
          Option.some.inj (here.symm.trans there)
        subst isMarker
        unfold ImportState.act
        dsimp only
        rw [if_pos written]
        refine ⟨written, fun names read => ⟨created, ?_, own⟩⟩
        rw [recorded_markerText] at read
        exact (Except.ok.inj read).symm
      · unfold ImportState.act
        dsimp only
        rw [if_neg written]
        obtain ⟨erased, kept⟩ := lookup_runImport state.dir written
        by_cases removed : markerName ∈ (call.footprint runtime state.dir).removed
        · rw [ImportState.act, erased removed] at here
          cases here
        · exact marker entry ((kept removed).symm.trans here)

/-- A forced import does the same again, and an import leaves every entry that none before it has
recorded. -/
theorem forced_imports_repeat_and_spare (runtime : ImportRuntime) :
    (∀ (dir : OutDir) (call again : ImportCall) (report : ImportReport),
      call.force = true → again.Repeats call → call.Fresh runtime dir →
        (call.runImport runtime dir).2 = .ok report →
          ∃ drafts drafts', MadeAgain runtime call again dir report drafts drafts') ∧
    ∀ (dir : OutDir) (acts : List ImportAct) (state : ImportState),
      dir.listing.lookup markerName = none →
        Run ((ImportStep runtime).restrict (ImportAct.Allowed runtime)) (.start dir) acts state →
          ∀ call : ImportCall, call.Fresh runtime state.dir → ∀ name,
            (state.dir.listing.lookup name).isSome = true → name ∉ state.made →
              (call.runImport runtime state.dir).1.listing.lookup name =
                state.dir.listing.lookup name := by
  constructor
  · intro dir call again report force repeats fresh returned
    exact made_again force repeats fresh returned
  · intro dir acts state unmarked run call fresh name present notMade
    have initially : (ImportState.start dir).TrueMarker runtime := by
      intro entry here
      have none : dir.listing.lookup markerName = some entry := here
      rw [unmarked] at none
      cases none
    exact run_spares (run.invariant trueMarker_preserved initially) fresh present notMade

/-- A runtime that prints `generated` only. -/
def stampingRuntime : ImportRuntime :=
  { sampleRuntime with
    safeDump := fun entries =>
      match entries.get "generated" with
      | some (.str at_) => .ok ("generated: ".toList ++ (textOf at_).getD [] ++ ['\n'])
      | _ => .ok [] }

/-- A forced import of one section, at a time. -/
def timedCall (at_ : String) : ImportCall :=
  { forcedCall "Always ask before pushing to the main branch." with
    generated := .str (PyStr.ofText at_.toList) }

set_option maxRecDepth 4000 in
/-- Two forced imports at different times leave different files. -/
theorem forced_imports_differ_by_their_times :
    (timedCall "2").Repeats (timedCall "1") ∧ ∃ report report' name,
      ((timedCall "1").runImport stampingRuntime none).2 = .ok report ∧
      ((timedCall "2").runImport stampingRuntime
        ((timedCall "1").runImport stampingRuntime none).1).2 = .ok report' ∧
      name ∈ report.created ∧ name ∈ report'.created ∧
      ((timedCall "2").runImport stampingRuntime
        ((timedCall "1").runImport stampingRuntime none).1).1.listing.lookup name ≠
          ((timedCall "1").runImport stampingRuntime none).1.listing.lookup name := by
  let report : ImportReport :=
    ⟨["always-ask-before-pushing-to-the-main-branch.md".toList], [], []⟩
  have first : ((timedCall "1").runImport stampingRuntime none).2 = .ok report := rfl
  have second : ((timedCall "2").runImport stampingRuntime
      ((timedCall "1").runImport stampingRuntime none).1).2 = .ok report := rfl
  refine ⟨rfl, report, report, _, first, second, List.mem_singleton_self _,
    List.mem_singleton_self _, ?_⟩
  decide +kernel

end Runs

end DataOlympus.Importer
