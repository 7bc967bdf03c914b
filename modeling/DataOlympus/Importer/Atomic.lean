import DataOlympus.Control.Except
import DataOlympus.Importer.Run

/-!
# What a failed import leaves

A forced run removes the recorded files before it looks at the source, and the drafts are written
one after the other.  This module says what a run has done to the directory when it ends, and
when that makes no difference.
-/

namespace DataOlympus.Importer

open Lines Replay

/-! ## File names of the drafts -/

/-- The drafts have file names of their own, beside these. -/
def Named (names : List Text) (drafts : List DraftDoc) : Prop :=
  ∃ stems : List Text, drafts.map DraftDoc.filename = stems.map (· ++ ".md".toList) ∧
    stems.Nodup ∧ ∀ stem ∈ stems, stem ∉ names

theorem Named.cons {names : List Text} {stem : Text} {draft : DraftDoc} {drafts : List DraftDoc}
    (here : draft.filename = stem ++ ".md".toList) (fresh : stem ∉ names)
    (later : Named (stem :: names) drafts) : Named names (draft :: drafts) := by
  obtain ⟨stems, named, once, free⟩ := later
  refine ⟨stem :: stems, ?_, ?_, ?_⟩
  · rw [List.map_cons, List.map_cons, named, here]
  · exact List.nodup_cons.mpr ⟨fun member => free stem member List.mem_cons_self, once⟩
  · intro other member
    obtain rfl | inStems := List.mem_cons.mp member
    · exact fresh
    · exact fun inNames => free other inStems (List.mem_cons_of_mem _ inNames)

section Loops

variable {tables : TextTables} {runtime : Runtime} {repr : Repr} {readAdr : AdrReader}
  {options : DraftOptions}

theorem named_adrLoop {seen : List PyStr} {names : List Text} {files : List AdrFile}
    {drafts : List DraftDoc}
    (done : adrLoop tables repr readAdr options seen names files = .ok drafts) :
    Named names drafts := by
  induction files generalizing seen names drafts with
  | nil =>
      cases done
      exact ⟨[], rfl, List.nodup_nil, List.forall_mem_nil _⟩
  | cons file rest ih =>
      obtain ⟨text, -, done⟩ := Except.bind_eq_ok_iff.mp done
      dsimp only at done
      split at done
      · cases done
      · obtain ⟨later, further, done⟩ := Except.bind_eq_ok_iff.mp done
        cases done
        exact .cons rfl (uniqueStem_not_mem _ names) (ih further)

theorem named_okfLoop {seen : List PyStr} {names : List Text} {files : List OkfFile}
    {drafts : List DraftDoc}
    (done : okfLoop tables runtime repr options seen names files = .ok drafts) :
    Named names drafts := by
  induction files generalizing seen names drafts with
  | nil =>
      cases done
      exact ⟨[], rfl, List.nodup_nil, List.forall_mem_nil _⟩
  | cons file rest ih =>
      obtain ⟨normalized, -, done⟩ := Except.bind_eq_ok_iff.mp done
      obtain ⟨docId, -, done⟩ := Except.bind_eq_ok_iff.mp done
      dsimp only at done
      split at done
      · cases done
      · obtain ⟨later, further, done⟩ := Except.bind_eq_ok_iff.mp done
        cases done
        exact .cons rfl (uniqueStem_not_mem _ names) (ih further)

theorem named_sourceDrafts {source : Source} {existing : List PyStr} {drafts : List DraftDoc}
    {skipped : List SkippedSection}
    (done : sourceDrafts tables runtime repr readAdr source options existing =
      .ok (drafts, skipped)) : Named [] drafts := by
  unfold sourceDrafts at done
  split at done
  · split at done
    · cases done
    · obtain ⟨found, loop, same⟩ := Except.map_eq_ok_iff.mp done
      cases same
      exact named_adrLoop loop
  · split at done
    · cases done
    · obtain ⟨found, loop, same⟩ := Except.map_eq_ok_iff.mp done
      cases same
      exact named_okfLoop loop
  · split at done
    · cases done
    · cases done
    · rename_i text read
      have accounted := flatLoop_accounted tables options.flat
        (IdAllocator.new options.flat.idPrefix existing) [] (splitFlat (readBack text))
      rw [← flatDrafts, Except.ok.inj done] at accounted
      exact accounted.filenames

/-- The files of a run are different, and none is the marker. -/
theorem Named.distinct {drafts : List DraftDoc} (named : Named [] drafts) :
    (drafts.map DraftDoc.filename).Nodup ∧ markerName ∉ drafts.map DraftDoc.filename := by
  obtain ⟨stems, same, once, -⟩ := named
  rw [same]
  constructor
  · exact once.map fun first second equal => List.append_cancel_right equal
  · intro member
    obtain ⟨stem, -, equal⟩ := List.mem_map.mp member
    have last := congrArg List.getLast? equal
    have ending : ".md".toList.getLast? = some 'd' := rfl
    rw [List.getLast?_append, ending, Option.some_or] at last
    exact absurd last (by decide)

end Loops

/-! ## What a run has done -/

/-- The files that were removed, whether the directory was made, and what was written. -/
structure Footprint where
  removed : List Text
  made : Bool
  written : List (Text × Entry)

/-- Nothing was done. -/
def Footprint.nothing : Footprint :=
  ⟨[], false, []⟩

/-- The directory after what was done. -/
def Footprint.apply (footprint : Footprint) (dir : OutDir) : OutDir :=
  if footprint.made then
    some (insertAll (eraseAll dir.listing footprint.removed) footprint.written)
  else dir.withListing (eraseAll dir.listing footprint.removed)

/-- What was done makes no difference: every removed file was written again, every file was
written as it was, and the directory was there. -/
structure Footprint.Neutral (footprint : Footprint) (dir : OutDir) : Prop where
  restores : Restores dir.listing footprint.removed footprint.written
  present : footprint.made = true → dir.isSome = true

section Run

variable (runtime : ImportRuntime) (call : ImportCall)

/-- The files that the loop of `_clear_prior_import` removes. -/
def ImportCall.removals : List Value → Listing → List Text
  | [], _ => []
  | item :: rest, listing =>
      match call.fileNamed listing item with
      | none => ImportCall.removals rest listing
      | some name =>
          if (call.disk.unlink name).isSome then []
          else name :: ImportCall.removals rest (listing.erase name)

/-- The recorded files that a run removes. -/
def ImportCall.removed (listing : Listing) : List Text :=
  if call.force then
    match (listing.lookup markerName).map runtime.recorded with
    | some (.ok names) => call.removals names listing
    | _ => []
  else []

/-- What `write_text` leaves under a name. -/
def ImportCall.landing (listing : Listing) (name text : Text) : List (Text × Entry) :=
  match listing.lookup name with
  | some (.directory _) => []
  | _ =>
      match call.disk.write name with
      | .whole => [(name, .file (.text text))]
      | .refused _ => []
      | .cut _ left => [(name, .file left)]

/-- What is written before a draft fails. -/
def ImportCall.landed : List DraftDoc → Listing → List (Text × Entry)
  | [], _ => []
  | draft :: rest, listing =>
      match rendered runtime draft with
      | .error _ => []
      | .ok text =>
          call.landing listing draft.filename text ++
            if (call.put listing draft.filename text).2.isSome then []
            else ImportCall.landed rest (call.put listing draft.filename text).1

/-- What is written before a draft or the marker fails. -/
def ImportCall.written (drafts : List DraftDoc) (listing : Listing) : List (Text × Entry) :=
  call.landed runtime drafts listing ++
    if (call.writeDrafts runtime drafts listing).2.isSome then []
    else call.landing (call.writeDrafts runtime drafts listing).1 markerName
      (call.markerText (drafts.map DraftDoc.filename))

/-- What a run has done when it ends. -/
def ImportCall.footprint (dir : OutDir) : Footprint :=
  match call.checked runtime, call.checkRerun runtime dir with
  | .ok options, .ok () =>
      let removed := call.removed runtime dir.listing
      match (call.clear runtime dir.listing).2,
        call.plan runtime options (eraseAll dir.listing removed), call.mkdir dir with
      | none, .ok (drafts, _), none =>
          ⟨removed, true, call.written runtime drafts (eraseAll dir.listing removed)⟩
      | _, _, _ => ⟨removed, false, []⟩
  | _, _ => .nothing

/-- Nothing is there to be cleared: the run is not forced, the marker is absent or cannot be used,
or the first recorded file that is there, if any, cannot be unlinked. -/
def ImportCall.ClearsNothing (listing : Listing) : Prop :=
  call.force = true → ∀ names,
    (listing.lookup markerName).map runtime.recorded = some (.ok names) →
      ∀ name ∈ names.findSome? (call.fileNamed listing), (call.disk.unlink name).isSome = true

/-- The steps up to the one that fails make no difference.  The options and the re-run check come
before anything is done; up to `mkdir` there is nothing to be cleared; behind it the directory was
there, and the files written by then are there as they were, the cleared ones among them. -/
def ImportCall.Harmless (dir : OutDir) : Prop :=
  match call.checked runtime, call.checkRerun runtime dir with
  | .ok options, .ok () =>
      let removed := call.removed runtime dir.listing
      match (call.clear runtime dir.listing).2,
        call.plan runtime options (eraseAll dir.listing removed), call.mkdir dir with
      | none, .ok (drafts, _), none => dir.isSome = true ∧
          Restores dir.listing removed
            (call.written runtime drafts (eraseAll dir.listing removed))
      | _, _, _ => call.ClearsNothing runtime dir.listing
  | _, _ => True

/-- Every step of the run succeeds. -/
def ImportCall.Completes (dir : OutDir) : Prop :=
  ∃ options drafts skipped findings,
    call.checked runtime = .ok options ∧ call.checkRerun runtime dir = .ok () ∧
      (call.clear runtime dir.listing).2 = none ∧
      call.plan runtime options (call.clear runtime dir.listing).1 = .ok (drafts, skipped) ∧
      call.mkdir dir = none ∧
      (call.record runtime drafts (call.clear runtime dir.listing).1).2 = none ∧
      runtime.lint (call.record runtime drafts (call.clear runtime dir.listing).1).1 =
        .ok findings

end Run

section Spec

variable {runtime : ImportRuntime} {call : ImportCall}

theorem mem_of_fileNamed {listing : Listing} {item : Value} {name : Text}
    (named : call.fileNamed listing item = some name) : name ∈ listing := by
  unfold ImportCall.fileNamed at named
  split at named
  · split at named
    · split at named
      · rename_i here
        cases named
        exact AList.lookup_isSome.mp (by rw [here]; rfl)
      · cases named
    · cases named
  · cases named

theorem clearNames_fst (names : List Value) (listing : Listing) :
    (call.clearNames names listing).1 = eraseAll listing (call.removals names listing) := by
  induction names generalizing listing with
  | nil => rfl
  | cons item rest ih =>
      unfold ImportCall.clearNames ImportCall.removals
      cases call.fileNamed listing item with
      | none => exact ih _
      | some name =>
          dsimp only
          cases call.disk.unlink name with
          | some raised => rfl
          | none => exact ih _

theorem clear_fst (listing : Listing) :
    (call.clear runtime listing).1 = eraseAll listing (call.removed runtime listing) := by
  unfold ImportCall.clear ImportCall.removed
  cases call.force with
  | false => rfl
  | true =>
      rw [if_pos rfl, if_pos rfl]
      cases listing.lookup markerName with
      | none => rfl
      | some entry =>
          rw [Option.map_some]
          dsimp only
          cases runtime.recorded entry with
          | error wrong => rfl
          | ok names => exact clearNames_fst names listing

theorem put_fst (listing : Listing) (name text : Text) :
    (call.put listing name text).1 = insertAll listing (call.landing listing name text) := by
  unfold ImportCall.put ImportCall.landing
  cases listing.lookup name with
  | none => cases call.disk.write name <;> rfl
  | some entry =>
      cases entry with
      | directory concepts => rfl
      | file content => cases call.disk.write name <;> rfl

theorem writeDrafts_fst (drafts : List DraftDoc) (listing : Listing) :
    (call.writeDrafts runtime drafts listing).1 =
      insertAll listing (call.landed runtime drafts listing) := by
  induction drafts generalizing listing with
  | nil => rfl
  | cons draft rest ih =>
      unfold ImportCall.writeDrafts ImportCall.landed
      cases rendered runtime draft with
      | error raised => rfl
      | ok text =>
          dsimp only
          rw [insertAll_append, ← put_fst]
          cases result : call.put listing draft.filename text with
          | mk written raised =>
              cases raised with
              | some raised => rfl
              | none => exact ih _

theorem record_fst (drafts : List DraftDoc) (listing : Listing) :
    (call.record runtime drafts listing).1 =
      insertAll listing (call.written runtime drafts listing) := by
  unfold ImportCall.record ImportCall.written
  rw [insertAll_append, ← writeDrafts_fst]
  cases call.writeDrafts runtime drafts listing with
  | mk written raised =>
      cases raised with
      | some raised => rfl
      | none => exact put_fst _ _ _

/-- A run leaves what it has done. -/
theorem runImport_fst (dir : OutDir) :
    (call.runImport runtime dir).1 = (call.footprint runtime dir).apply dir := by
  have unchanged : dir = Footprint.nothing.apply dir := by
    cases dir <;> rfl
  unfold ImportCall.runImport ImportCall.footprint
  cases call.checked runtime with
  | error raised => exact unchanged
  | ok options =>
      cases call.checkRerun runtime dir with
      | error raised => exact unchanged
      | ok _ =>
          dsimp only
          rw [← clear_fst]
          cases cleared : call.clear runtime dir.listing with
          | mk listing raised =>
              have left : eraseAll dir.listing (call.removed runtime dir.listing) = listing := by
                rw [← clear_fst, cleared]
              have unmade : dir.withListing listing =
                  Footprint.apply ⟨call.removed runtime dir.listing, false, []⟩ dir := by
                rw [Footprint.apply, if_neg Bool.false_ne_true, left]
              cases raised with
              | some raised => exact unmade
              | none =>
                  dsimp only
                  cases call.plan runtime options listing with
                  | error raised => exact unmade
                  | ok planned =>
                      dsimp only
                      cases call.mkdir dir with
                      | some raised => exact unmade
                      | none =>
                          dsimp only
                          rw [Footprint.apply, if_pos rfl, left, ← record_fst]
                          cases call.record runtime planned.1 listing with
                          | mk written raised =>
                              cases raised with
                              | some raised => rfl
                              | none => rfl

theorem landing_fst (listing : Listing) (name text : Text) :
    ((call.landing listing name text).map Prod.fst).Sublist [name] := by
  unfold ImportCall.landing
  cases listing.lookup name with
  | none => cases call.disk.write name <;> simp
  | some entry =>
      cases entry with
      | directory concepts => simp
      | file content => cases call.disk.write name <;> simp

theorem landed_fst (drafts : List DraftDoc) (listing : Listing) :
    ((call.landed runtime drafts listing).map Prod.fst).Sublist
      (drafts.map DraftDoc.filename) := by
  induction drafts generalizing listing with
  | nil => exact List.Sublist.refl _
  | cons draft rest ih =>
      unfold ImportCall.landed
      cases rendered runtime draft with
      | error raised => exact List.nil_sublist _
      | ok text =>
          dsimp only
          rw [List.map_append, List.map_cons, ← List.singleton_append]
          apply (landing_fst listing draft.filename text).append
          split
          · exact List.nil_sublist _
          · exact ih _

theorem written_fst (drafts : List DraftDoc) (listing : Listing) :
    ((call.written runtime drafts listing).map Prod.fst).Sublist
      (drafts.map DraftDoc.filename ++ [markerName]) := by
  unfold ImportCall.written
  rw [List.map_append]
  apply (landed_fst drafts listing).append
  split
  · exact List.nil_sublist _
  · exact landing_fst _ _ _

theorem named_plan {options : DraftOptions} {listing : Listing} {drafts : List DraftDoc}
    {skipped : List SkippedSection}
    (planned : call.plan runtime options listing = .ok (drafts, skipped)) : Named [] drafts := by
  obtain ⟨existing, -, planned⟩ := Except.bind_eq_ok_iff.mp planned
  obtain ⟨drafted, made, planned⟩ := Except.bind_eq_ok_iff.mp planned
  split at planned
  · cases planned
  · cases planned
    exact named_sourceDrafts made

/-- No file is written twice. -/
theorem nodup_footprint (dir : OutDir) :
    ((call.footprint runtime dir).written.map Prod.fst).Nodup := by
  unfold ImportCall.footprint
  split
  · dsimp only
    split
    · rename_i drafts skipped _ planned _
      obtain ⟨once, unmarked⟩ := (named_plan planned).distinct
      apply (written_fst drafts _).nodup
      exact once.append (List.nodup_singleton _) (by simpa using unmarked)
    · exact List.nodup_nil
  · exact List.nodup_nil

theorem written_of_not_made (dir : OutDir) (unmade : (call.footprint runtime dir).made = false) :
    (call.footprint runtime dir).written = [] := by
  unfold ImportCall.footprint at unmade ⊢
  split
  · rename_i first second
    rw [first, second] at unmade
    dsimp only at unmade ⊢
    split
    · rename_i third fourth fifth
      rw [third, fourth, fifth] at unmade
      cases unmade
    · rfl
  · rfl

/-- What was done makes no difference if and only if it is neutral. -/
theorem Footprint.same_iff {footprint : Footprint} {dir : OutDir}
    (once : (footprint.written.map Prod.fst).Nodup)
    (unmade : footprint.made = false → footprint.written = []) :
    (footprint.apply dir).Same dir ↔ footprint.Neutral dir := by
  cases made : footprint.made with
  | true =>
      rw [Footprint.apply, if_pos made]
      constructor
      · rintro ⟨present, same⟩
        exact ⟨(restores_iff once).mp same, fun _ => present.symm⟩
      · intro neutral
        exact ⟨(neutral.present made).symm, (restores_iff once).mpr neutral.restores⟩
  | false =>
      rw [Footprint.apply, if_neg (by rw [made]; exact Bool.false_ne_true)]
      have written := unmade made
      cases dir with
      | none =>
          apply iff_of_true ⟨rfl, fun name => rfl⟩
          refine ⟨⟨fun key member here => absurd here (AList.notMem_empty key), ?_⟩, ?_⟩
          · rw [written]
            exact List.forall_mem_nil _
          · rw [made]
            exact fun impossible => absurd impossible Bool.false_ne_true
      | some listing =>
          have restored := @restores_iff _ _ _ listing footprint.removed _ once
          rw [written] at restored
          constructor
          · rintro ⟨-, same⟩
            refine ⟨?_, fun _ => rfl⟩
            rw [written]
            exact restored.mp same
          · intro neutral
            refine ⟨rfl, restored.mpr ?_⟩
            have restores := neutral.restores
            rw [written] at restores
            exact restores

theorem removals_eq_nil_iff (names : List Value) (listing : Listing) :
    call.removals names listing = [] ↔
      ∀ name ∈ names.findSome? (call.fileNamed listing),
        (call.disk.unlink name).isSome = true := by
  induction names with
  | nil => simp [ImportCall.removals]
  | cons item rest ih =>
      unfold ImportCall.removals
      cases here : call.fileNamed listing item with
      | none => simpa [here] using ih
      | some name => simp [here, Option.isSome_iff_ne_none]

theorem removed_eq_nil_iff (listing : Listing) :
    call.removed runtime listing = [] ↔ call.ClearsNothing runtime listing := by
  unfold ImportCall.removed ImportCall.ClearsNothing
  cases call.force with
  | false => simp
  | true =>
      cases (listing.lookup markerName).map runtime.recorded with
      | none => simp
      | some read =>
          cases read with
          | error wrong => simp
          | ok names => simpa using removals_eq_nil_iff names listing

/-- What a run removes was there. -/
theorem mem_of_mem_removals {names : List Value} {listing : Listing} {name : Text}
    (removed : name ∈ call.removals names listing) : name ∈ listing := by
  induction names generalizing listing with
  | nil => cases removed
  | cons item rest ih =>
      unfold ImportCall.removals at removed
      cases here : call.fileNamed listing item with
      | none =>
          rw [here] at removed
          exact ih removed
      | some other =>
          rw [here] at removed
          dsimp only at removed
          split at removed
          · cases removed
          · rcases List.mem_cons.mp removed with rfl | later
            · exact mem_of_fileNamed here
            · exact (AList.mem_erase.mp (ih later)).2

theorem mem_of_mem_removed {listing : Listing} {name : Text}
    (removed : name ∈ call.removed runtime listing) : name ∈ listing := by
  unfold ImportCall.removed at removed
  split at removed
  · split at removed
    · exact mem_of_mem_removals removed
    · cases removed
  · cases removed

/-- What a run has done makes no difference if and only if it is harmless. -/
theorem neutral_footprint_iff (dir : OutDir) :
    (call.footprint runtime dir).Neutral dir ↔ call.Harmless runtime dir := by
  have cleared : Footprint.Neutral ⟨call.removed runtime dir.listing, false, []⟩ dir ↔
      call.ClearsNothing runtime dir.listing := by
    rw [← removed_eq_nil_iff]
    constructor
    · intro neutral
      rw [List.eq_nil_iff_forall_not_mem]
      intro name removed
      cases neutral.restores.removed name removed (mem_of_mem_removed removed)
    · intro none
      rw [none]
      exact ⟨⟨List.forall_mem_nil _, List.forall_mem_nil _⟩,
        fun made => absurd made Bool.false_ne_true⟩
  unfold ImportCall.footprint ImportCall.Harmless
  split
  · dsimp only
    split
    · exact ⟨fun neutral => ⟨neutral.present rfl, neutral.restores⟩,
        fun harmless => ⟨harmless.2, fun _ => harmless.1⟩⟩
    · exact cleared
  · exact iff_of_true ⟨⟨List.forall_mem_nil _, List.forall_mem_nil _⟩,
      fun made => absurd made Bool.false_ne_true⟩ trivial

theorem completes_iff (dir : OutDir) :
    (∃ report, (call.runImport runtime dir).2 = .ok report) ↔ call.Completes runtime dir := by
  unfold ImportCall.runImport ImportCall.Completes
  cases call.checked runtime with
  | error raised => simp
  | ok options =>
      cases call.checkRerun runtime dir with
      | error raised => simp
      | ok _ =>
          cases call.clear runtime dir.listing with
          | mk cleared raised =>
              cases raised with
              | some raised => simp
              | none =>
                  dsimp only
                  cases planned : call.plan runtime options cleared with
                  | error raised => simp [planned]
                  | ok found =>
                      obtain ⟨drafts, skipped⟩ := found
                      cases call.mkdir dir with
                      | some raised => simp
                      | none =>
                          dsimp only
                          cases recorded : call.record runtime drafts cleared with
                          | mk written raised =>
                              cases raised with
                              | some raised => simp [planned, recorded]
                              | none =>
                                  cases linted : runtime.lint written with
                                  | error raised => simp [planned, recorded, linted, Except.map]
                                  | ok findings => simp [planned, recorded, linted, Except.map]

/-- A failed import leaves the directory as it was if and only if it does not fail, or the steps
up to the one that fails are harmless. -/
theorem failed_import_changes_nothing_iff (runtime : ImportRuntime) (call : ImportCall)
    (dir : OutDir) :
    (∀ raised, (call.runImport runtime dir).2 = .error raised →
      (call.runImport runtime dir).1.Same dir) ↔
        call.Completes runtime dir ∨ call.Harmless runtime dir := by
  rw [← neutral_footprint_iff, ← Footprint.same_iff (nodup_footprint dir)
    (written_of_not_made dir), ← runImport_fst, ← completes_iff]
  cases (call.runImport runtime dir).2 with
  | ok report => simp
  | error raised => simp

end Spec

/-! ## A source without a draft -/

/-- The tables within ASCII. -/
def asciiTables : TextTables where
  toUnicode := .ascii
  isDecimal := Char.isDigit

/-- An importer that reads no YAML and emits the id of a draft only. -/
def sampleRuntime : ImportRuntime where
  toRuntime := .ofBlocks []
  tables := asciiTables
  repr s := (textOf s).getD []
  json := sampleJson
  safeDump entries :=
    match entries.get "id" with
    | some (.str docId) => .ok ("id: ".toList ++ (textOf docId).getD [] ++ ['\n'])
    | _ => .ok []
  readAdr _ _ _ := ⟨[], [], [], [], none⟩
  markerError _ := []
  lint _ := .ok []

/-- A forced import of a flat file. -/
def forcedCall (text : String) : ImportCall where
  source := ⟨"c".toList, true, some (.ok text.toList), [], []⟩
  kind := "claude-md".toList
  tier := "T2".toList
  outDir := "o".toList
  category := none
  idPrefix := none
  force := true
  resolveRoot := none
  unresolvedTargets := "error".toList
  generated := .null
  disk := .sound

/-- A directory with a recorded file. -/
def importedDir : OutDir :=
  some (insertAll ∅ [("a.md".toList, .file (.text "a".toList)),
    (markerName, .file (.text "\x7b\"created\": [\"a.md\"]\x7d".toList))])

/-- A forced run on a file without a section that is long enough raises, and the drafts of the
earlier run are gone. -/
theorem failed_rerun_loses_the_drafts :
    ∃ raised, ((forcedCall "Short.").runImport sampleRuntime importedDir).2 = .error raised ∧
      ¬((forcedCall "Short.").runImport sampleRuntime importedDir).1.Same importedDir := by
  refine ⟨_, rfl, ?_⟩
  rintro ⟨-, same⟩
  have gone := same "a.md".toList
  exact absurd gone (by decide)

end DataOlympus.Importer
