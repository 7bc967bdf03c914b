import DataOlympus.Control.Except
import DataOlympus.Importer.Sources

/-!
# Drafts but for their stamp

The drafts of a source are determined by its text, the options and the set of ids that are in
use, but for the time in `generated`.
-/

namespace DataOlympus

open Lines Select

namespace Mapping

/-- A mapping without the value of a key. -/
def masked (key : String) (entries : Mapping) : Mapping :=
  entries.map fun entry => if entry.1.isStr (PyStr.lit key) then (entry.1, .null) else entry

variable {key other : String} {entries more : Mapping}

theorem masked_append : masked key (entries ++ more) = masked key entries ++ masked key more :=
  List.map_append

theorem fst_mask (entry : Value × Value) :
    (if entry.1.isStr (PyStr.lit key) then (entry.1, Value.null) else entry).1 = entry.1 := by
  split <;> rfl

theorem get_masked (different : PyStr.lit other ≠ PyStr.lit key) :
    (masked key entries).get other = entries.get other := by
  induction entries with
  | nil => rfl
  | cons entry rest ih =>
      have tail : get (List.map (fun entry =>
          if entry.1.isStr (PyStr.lit key) then (entry.1, Value.null) else entry) rest) other =
          get rest other := ih
      rw [masked, List.map_cons, get_cons, get_cons, fst_mask, tail]
      by_cases here : entry.1.isStr (PyStr.lit other) = true
      · have notKey : entry.1.isStr (PyStr.lit key) = false :=
          Value.isStr_eq_false here different.symm
        rw [notKey]
        rfl
      · rw [if_neg here, if_neg here]

theorem get_masked_self :
    (masked key entries).get key = (entries.get key).map fun _ => Value.null := by
  induction entries with
  | nil => rfl
  | cons entry rest ih =>
      rw [masked] at ih
      rw [masked, List.map_cons, get_cons, get_cons, fst_mask]
      by_cases here : entry.1.isStr (PyStr.lit key) = true
      · simp [here]
      · simpa [here] using ih

theorem any_masked (test : Value → Bool) :
    (masked key entries).any (fun entry => test entry.1) =
      entries.any fun entry => test entry.1 := by
  rw [masked, List.any_map]
  congr 1
  funext entry
  exact congrArg test (fst_mask entry)

/-- Two assignments of the key differ under the mask only. -/
theorem masked_set (first second : Value) :
    masked key (entries.set key first) = masked key (entries.set key second) := by
  unfold set
  split
  · unfold masked
    rw [List.map_map, List.map_map]
    apply List.map_congr_left
    intro entry member
    by_cases here : entry.1.isStr (PyStr.lit key) = true <;> simp [here]
  · rw [masked_append, masked_append]
    simp [masked, Value.isStr]

/-- An assignment of another key does not touch the mask. -/
theorem masked_set_of_ne (different : PyStr.lit other ≠ PyStr.lit key) (value : Value) :
    masked key (entries.set other value) = (masked key entries).set other value := by
  unfold set
  rw [any_masked fun key => key.isStr (PyStr.lit other)]
  split
  · unfold masked
    rw [List.map_map, List.map_map]
    apply List.map_congr_left
    intro entry member
    by_cases here : entry.1.isStr (PyStr.lit other) = true
    · simp [here, Value.isStr_eq_false here different.symm]
    · by_cases there : entry.1.isStr (PyStr.lit key) = true <;> simp [here, there]
  · rw [masked_append]
    simp [masked, Value.isStr, different]

end Mapping

namespace Importer

/-- A draft without the value of its stamp. -/
def DraftDoc.unstamped (draft : DraftDoc) : DraftDoc :=
  { draft with frontmatter := draft.frontmatter.masked "generated" }

theorem DraftFields.masked_frontmatter (fields : DraftFields) (generated : Value) :
    ({ fields with generated := generated } : DraftFields).frontmatter.masked "generated" =
      fields.frontmatter.masked "generated" := by
  unfold DraftFields.frontmatter
  dsimp only
  rw [Mapping.masked_append, Mapping.masked_append]
  congr 1
  simp [Mapping.ofFields, Mapping.masked, Value.isStr]

theorem DraftFields.masked_congr {first second : DraftFields}
    (same : ({ first with generated := .null } : DraftFields) =
      { second with generated := .null }) :
    first.frontmatter.masked "generated" = second.frontmatter.masked "generated" := by
  rw [← DraftFields.masked_frontmatter first .null, same, DraftFields.masked_frontmatter]

theorem filled_masked {entries : Mapping} {key : String}
    (different : PyStr.lit key ≠ PyStr.lit "generated") :
    filled (entries.masked "generated") key = filled entries key := by
  rw [filled, Mapping.get_masked different, ← filled]

theorem reorder_masked (entries : Mapping) :
    reorder (entries.masked "generated") = (reorder entries).masked "generated" := by
  unfold reorder
  rw [Mapping.masked_append]
  congr 1
  · conv_rhs => rw [Mapping.masked, List.map_filterMap]
    apply List.filterMap_congr
    intro key member
    by_cases same : key = "generated"
    · subst same
      rw [Mapping.get_masked_self, Option.map_map, Option.map_map]
      simp [Function.comp_def, Value.isStr]
    · have different : PyStr.lit key ≠ PyStr.lit "generated" :=
        fun equal => same (PyStr.lit_injective equal)
      rw [Mapping.get_masked different, Option.map_map]
      simp [Function.comp_def, Value.isStr, different]
  · unfold Mapping.masked
    rw [List.filter_map]
    congr 1
    apply List.filter_congr
    intro entry member
    rw [Function.comp_apply, Mapping.fst_mask]

section Okf

variable {tables : TextTables} {runtime : Runtime} {defaultTier : Text} {category : Option Text}

theorem masked_stampGenerated (entries : Mapping) (generated other : Value) :
    (stampGenerated generated entries).masked "generated" =
      (stampGenerated other entries).masked "generated" := by
  unfold stampGenerated
  split
  · rfl
  · exact Mapping.masked_set _ _

theorem categorize_masked (entries : Mapping) :
    categorize category (entries.masked "generated") =
      (categorize category entries).masked "generated" := by
  unfold categorize
  cases category.filter fun category => !category.isEmpty with
  | none => rfl
  | some category =>
      dsimp only
      rw [filled_masked (by decide)]
      split
      · rfl
      · exact (Mapping.masked_set_of_ne (by decide) _).symm

/-- Two normalizations of a document differ in the stamp only. -/
theorem normalizeOkfDoc_restamped {file : OkfFile} {generated : Value} {entries : Mapping}
    {body : Text} (other : Value)
    (done : normalizeOkfDoc tables runtime defaultTier category generated file =
      .ok (entries, body)) :
    ∃ entries', normalizeOkfDoc tables runtime defaultTier category other file =
        .ok (entries', body) ∧
      entries'.masked "generated" = entries.masked "generated" := by
  obtain ⟨text, read, done⟩ := Except.bind_eq_ok_iff.mp done
  obtain ⟨⟨raw, rest⟩, parsed, done⟩ := Except.bind_eq_ok_iff.mp done
  obtain ⟨aliased, aliasDone, done⟩ := Except.bind_eq_ok_iff.mp done
  obtain ⟨typed, typeDone, done⟩ := Except.bind_eq_ok_iff.mp done
  obtain ⟨drafted, statusDone, done⟩ := Except.bind_eq_ok_iff.mp done
  obtain ⟨tiered, tierDone, done⟩ := Except.bind_eq_ok_iff.mp done
  obtain ⟨titled, titleDone, done⟩ := Except.bind_eq_ok_iff.mp done
  obtain ⟨described, descriptionDone, done⟩ := Except.bind_eq_ok_iff.mp done
  obtain ⟨tagged, tagsDone, done⟩ := Except.bind_eq_ok_iff.mp done
  cases done
  refine ⟨reorder (categorize category (stampGenerated other tagged)), ?_, ?_⟩
  · apply Except.bind_eq_ok_iff.mpr ⟨text, read, ?_⟩
    apply Except.bind_eq_ok_iff.mpr ⟨(raw, body), parsed, ?_⟩
    apply Except.bind_eq_ok_iff.mpr ⟨aliased, aliasDone, ?_⟩
    apply Except.bind_eq_ok_iff.mpr ⟨typed, typeDone, ?_⟩
    apply Except.bind_eq_ok_iff.mpr ⟨drafted, statusDone, ?_⟩
    apply Except.bind_eq_ok_iff.mpr ⟨tiered, tierDone, ?_⟩
    apply Except.bind_eq_ok_iff.mpr ⟨titled, titleDone, ?_⟩
    apply Except.bind_eq_ok_iff.mpr ⟨described, descriptionDone, ?_⟩
    exact Except.bind_eq_ok_iff.mpr ⟨tagged, tagsDone, rfl⟩
  · rw [← reorder_masked, ← categorize_masked, masked_stampGenerated tagged other generated,
      categorize_masked, reorder_masked]

end Okf

/-! ## The loops -/

/-- The options with another time. -/
def DraftOptions.at (options : DraftOptions) (generated : Value) : DraftOptions :=
  { options with generated := generated }

section Loops

variable {tables : TextTables} {runtime : Runtime} {repr : Repr} {readAdr : AdrReader}
  {options : DraftOptions}

theorem next_congr {alloc : IdAllocator} {used : List PyStr}
    (same : ∀ docId, docId ∈ alloc.used ↔ docId ∈ used) :
    IdAllocator.next { alloc with used := used } =
      (alloc.next.1, { alloc.next.2 with used := PyStr.ofText alloc.next.1 :: used }) := by
  have counter := freshFrom_congr alloc.candidate_injective same (alloc.counter + 1)
  unfold IdAllocator.next
  dsimp only
  rw [counter]
  rfl

theorem flatDraft_restamped (flat : FlatOptions) (generated : Value) (sec : Section)
    (docId : Text) (names : List Text) :
    (flatDraft tables { flat with generated := generated } sec docId names).unstamped =
      (flatDraft tables flat sec docId names).unstamped := by
  unfold flatDraft DraftDoc.unstamped
  dsimp only
  congr 1
  exact DraftFields.masked_congr rfl

theorem flatLoop_restamped (flat : FlatOptions) (generated : Value) {alloc : IdAllocator}
    {used : List PyStr} (same : ∀ docId, docId ∈ alloc.used ↔ docId ∈ used) (names : List Text)
    (sections : List Section) :
    (flatLoop tables { flat with generated := generated } { alloc with used := used } names
        sections).1.map DraftDoc.unstamped =
      (flatLoop tables flat alloc names sections).1.map DraftDoc.unstamped ∧
    (flatLoop tables { flat with generated := generated } { alloc with used := used } names
        sections).2 = (flatLoop tables flat alloc names sections).2 := by
  induction sections generalizing alloc used names with
  | nil => exact ⟨rfl, rfl⟩
  | cons sec rest ih =>
      rw [flatLoop, flatLoop]
      split
      · obtain ⟨drafts, skipped⟩ := ih same names
        dsimp only
        rw [drafts, skipped]
        exact ⟨rfl, rfl⟩
      · have more : ∀ docId, docId ∈ alloc.next.2.used ↔
            docId ∈ PyStr.ofText alloc.next.1 :: used := by
          intro docId
          change docId ∈ PyStr.ofText alloc.next.1 :: alloc.used ↔ _
          rw [List.mem_cons, List.mem_cons, same]
        have later := ih more (flatStem tables sec alloc.next.1 names :: names)
        rw [next_congr same]
        dsimp only
        rw [List.map_cons, List.map_cons, flatDraft_restamped, later.1]
        exact ⟨rfl, later.2⟩

theorem adrLoop_restamped {seen other : List PyStr} (generated : Value)
    (same : ∀ docId, docId ∈ seen ↔ docId ∈ other) {names : List Text} {files : List AdrFile}
    {drafts : List DraftDoc}
    (done : adrLoop tables repr readAdr options seen names files = .ok drafts) :
    ∃ drafts', adrLoop tables repr readAdr (options.at generated) other names files =
        .ok drafts' ∧
      drafts'.map DraftDoc.unstamped = drafts.map DraftDoc.unstamped := by
  induction files generalizing seen other names drafts with
  | nil =>
      cases done
      exact ⟨[], rfl, rfl⟩
  | cons file rest ih =>
      obtain ⟨text, read, done⟩ := Except.bind_eq_ok_iff.mp done
      dsimp only at done
      split at done
      · cases done
      · rename_i fresh
        obtain ⟨later, further, done⟩ := Except.bind_eq_ok_iff.mp done
        cases done
        have more : ∀ docId, docId ∈ PyStr.ofText (canonicalAdrId file.number) :: seen ↔
            docId ∈ PyStr.ofText (canonicalAdrId file.number) :: other := by
          intro docId
          rw [List.mem_cons, List.mem_cons, same]
        obtain ⟨later', further', equal⟩ := ih more further
        refine ⟨adrDraft tables readAdr (options.at generated) file (readBack text) names ::
          later', ?_, ?_⟩
        · apply Except.bind_eq_ok_iff.mpr ⟨text, read, ?_⟩
          dsimp only
          rw [if_neg (mt (same _).mpr fresh)]
          exact Except.bind_eq_ok_iff.mpr ⟨later', further', rfl⟩
        · rw [List.map_cons, List.map_cons, equal]
          congr 1
          unfold adrDraft DraftDoc.unstamped
          dsimp only
          congr 1
          exact DraftFields.masked_congr rfl

theorem okfLoop_restamped {seen other : List PyStr} (generated : Value)
    (same : ∀ docId, docId ∈ seen ↔ docId ∈ other) {names : List Text} {files : List OkfFile}
    {drafts : List DraftDoc}
    (done : okfLoop tables runtime repr options seen names files = .ok drafts) :
    ∃ drafts', okfLoop tables runtime repr (options.at generated) other names files =
        .ok drafts' ∧
      drafts'.map DraftDoc.unstamped = drafts.map DraftDoc.unstamped := by
  induction files generalizing seen other names drafts with
  | nil =>
      cases done
      exact ⟨[], rfl, rfl⟩
  | cons file rest ih =>
      obtain ⟨⟨entries, body⟩, normalized, done⟩ := Except.bind_eq_ok_iff.mp done
      obtain ⟨docId, shown, done⟩ := Except.bind_eq_ok_iff.mp done
      dsimp only at done shown
      split at done
      · cases done
      · rename_i fresh
        obtain ⟨later, further, done⟩ := Except.bind_eq_ok_iff.mp done
        cases done
        have more : ∀ other_id, other_id ∈ docId :: seen ↔ other_id ∈ docId :: other := by
          intro docId
          rw [List.mem_cons, List.mem_cons, same]
        obtain ⟨later', further', equal⟩ := ih more further
        obtain ⟨entries', normalized', masked⟩ := normalizeOkfDoc_restamped generated normalized
        have shown' : strAt runtime entries' "id" = .ok docId := by
          have id_kept : entries'.get "id" = entries.get "id" := by
            have different : PyStr.lit "id" ≠ PyStr.lit "generated" := by decide
            rw [← Mapping.get_masked different, masked, Mapping.get_masked different]
          rw [strAt, id_kept, ← strAt]
          exact shown
        refine ⟨⟨uniqueStem (slugify tables (slugText docId) file.stem) names ++ ".md".toList,
          entries', body⟩ :: later', ?_, ?_⟩
        · apply Except.bind_eq_ok_iff.mpr ⟨(entries', body), normalized', ?_⟩
          apply Except.bind_eq_ok_iff.mpr ⟨docId, shown', ?_⟩
          dsimp only
          rw [if_neg (mt (same _).mpr fresh)]
          exact Except.bind_eq_ok_iff.mpr ⟨later', further', rfl⟩
        · rw [List.map_cons, List.map_cons, equal]
          congr 1
          unfold DraftDoc.unstamped
          dsimp only
          rw [masked]

/-- The drafts of a source, but for their stamp, depend on its text, the options and the set of
ids in use. -/
theorem sourceDrafts_restamped {source : Source} {existing other : List PyStr}
    (generated : Value) (same : ∀ docId, docId ∈ existing ↔ docId ∈ other)
    {drafts : List DraftDoc} {skipped : List SkippedSection}
    (done : sourceDrafts tables runtime repr readAdr source options existing =
      .ok (drafts, skipped)) :
    ∃ drafts', sourceDrafts tables runtime repr readAdr source (options.at generated) other =
        .ok (drafts', skipped) ∧
      drafts'.map DraftDoc.unstamped = drafts.map DraftDoc.unstamped := by
  unfold sourceDrafts at done ⊢
  have kind : (options.at generated).kind = options.kind := rfl
  rw [kind]
  split at done
  · split at done
    · cases done
    · rename_i some_files
      obtain ⟨found, loop, equal⟩ := Except.map_eq_ok_iff.mp done
      cases equal
      obtain ⟨drafts', again, unstamped⟩ := adrLoop_restamped generated same loop
      refine ⟨drafts', ?_, unstamped⟩
      rw [if_neg some_files, again]
      rfl
  · split at done
    · cases done
    · rename_i some_files
      obtain ⟨found, loop, equal⟩ := Except.map_eq_ok_iff.mp done
      cases equal
      obtain ⟨drafts', again, unstamped⟩ := okfLoop_restamped generated same loop
      refine ⟨drafts', ?_, unstamped⟩
      rw [if_neg some_files, again]
      rfl
  · split at done
    · cases done
    · cases done
    · rename_i text read
      have flat : flatDrafts tables options.flat existing (readBack text) = (drafts, skipped) :=
        Except.ok.inj done
      have used : ∀ docId, docId ∈ (IdAllocator.new options.flat.idPrefix existing).used ↔
          docId ∈ other := same
      have restamped := @flatLoop_restamped tables options.flat generated _ _ used []
        (splitFlat (readBack text))
      rw [← flatDrafts, flat] at restamped
      refine ⟨(flatDrafts tables (options.at generated).flat other (readBack text)).1, ?_,
        restamped.1⟩
      apply congrArg Except.ok
      exact Prod.ext rfl restamped.2

end Loops

end Importer

end DataOlympus
