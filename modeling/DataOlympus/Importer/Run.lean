import DataOlympus.Importer.Sources
import DataOlympus.Merge.Restore
import DataOlympus.Python.JsonAscii

/-!
# An import run

`run_import` checks its options, clears what an earlier run recorded, makes the drafts of the
source, writes them one after the other, records them in a marker and lints the directory.  Every
step may raise, and what was done before stays.
-/

namespace DataOlympus.Importer

open Lines Replay

/-! ## The output directory -/

/-- What a regular file holds. -/
inductive FileContent where
  | text (text : Text)
  /-- Bytes that are no UTF-8. -/
  | bytes (raw : List UInt8)
  deriving DecidableEq

/-- An entry of the output directory. -/
inductive Entry where
  | file (content : FileContent)
  /-- A directory, with the `*.md` files beneath it. -/
  | directory (concepts : List (Text × FileContent))
  deriving DecidableEq

/-- The entries of a directory by name. -/
abbrev Listing : Type := AList fun _ : Text => Entry

/-- The output directory, if it exists. -/
abbrev OutDir : Type := Option Listing

/-- The entries; a directory that does not exist has none. -/
def OutDir.listing (dir : OutDir) : Listing :=
  dir.getD ∅

/-- Two directories exist both or not at all, and hold the same. -/
def OutDir.Same (dir other : OutDir) : Prop :=
  dir.isSome = other.isSome ∧ ∀ name, dir.listing.lookup name = other.listing.lookup name

/-- The `*.md` files at an entry or beneath it, by name and content. -/
def Entry.concepts (name : Text) : Entry → List (Text × FileContent)
  | .file content => if RelPath.isMarkdownName name then [(name, content)] else []
  | .directory concepts => concepts

/-- `out_dir.rglob("*.md")`. -/
def concepts (listing : Listing) : List (Text × FileContent) :=
  listing.entries.flatMap fun entry => entry.2.concepts entry.1

/-- `_MARKER`. -/
def markerName : Text :=
  ".data-olympus-import".toList

/-- The slashes in front of a path, and its parts. -/
def purePath (path : Text) : Nat × List Text :=
  let slashes := (path.takeWhile (· = '/')).length
  (if slashes = 2 then 2 else min slashes 1,
    (path.splitOn '/').filter fun part => part ≠ [] ∧ part ≠ ['.'])

/-- The name of `out_dir / name` if it is a direct child of `out_dir`. -/
def childName (outDir name : Text) : Option Text :=
  let base := purePath outDir
  let other := purePath name
  let target := if other.1 = 0 then (base.1, base.2 ++ other.2) else other
  if target.1 = base.1 ∧ target.2.dropLast = base.2 ∧ target.2 ≠ [] then target.2.getLast?
  else none

/-! ## One run -/

/-- `LintFinding`. -/
structure LintFinding where
  path : Text
  severity : Text
  field : Text
  message : Text

/-- What the importer runs on. -/
structure ImportRuntime extends Runtime where
  tables : TextTables
  repr : Repr
  json : JsonModule
  /-- `yaml.safe_dump`. -/
  safeDump : Mapping → Except ImportRaised Text
  readAdr : AdrReader
  /-- `str(exc)` where a marker cannot be read. -/
  markerError : Entry → Text
  /-- `lint_files` over the documents of the directory. -/
  lint : Listing → Except ImportRaised (List LintFinding)

/-- How `write_text` ends. -/
inductive WriteResult where
  | whole
  /-- The file could not be opened. -/
  | refused (raised : ImportRaised)
  /-- The file was opened, and this is left in it. -/
  | cut (raised : ImportRaised) (left : FileContent)

/-- The directory after a write. -/
def WriteResult.apply (listing : Listing) (name text : Text) :
    WriteResult → Listing × Option ImportRaised
  | whole => (listing.insert name (.file (.text text)), none)
  | refused raised => (listing, some raised)
  | cut raised left => (listing.insert name (.file left), some raised)

/-- What the file system does during a run. -/
structure Disk where
  unlink : Text → Option ImportRaised
  mkdir : Option ImportRaised
  write : Text → WriteResult

/-- A file system without faults. -/
def Disk.sound : Disk where
  unlink _ := none
  mkdir := none
  write _ := .whole

/-- A call of `run_import`. -/
structure ImportCall where
  source : Source
  kind : Text
  tier : Text
  /-- `str(out_dir)`. -/
  outDir : Text
  category : Option Text
  idPrefix : Option Text
  force : Bool
  /-- The path, and whether it is a directory. -/
  resolveRoot : Option (Text × Bool)
  unresolvedTargets : Text
  /-- `tool_generated()`. -/
  generated : Value
  disk : Disk

/-- `ImportReport`, but for its notes. -/
structure ImportReport where
  created : List Text
  skipped : List SkippedSection
  lint : List LintFinding

/-- `normalize_tier`, where it does not raise. -/
def normalizeTier (tier : Text) : Option Text :=
  let t := strip tier
  if t ∈ tiers.map String.toList then some t
  else if t.all Char.isDigit ∧ 'T' :: t ∈ tiers.map String.toList then some ('T' :: t)
  else none

/-- `str(name)` between quotes, as a marker or an option is printed. -/
def shown (repr : Repr) (text : Text) : Text :=
  repr (PyStr.ofText text)

section Run

variable (runtime : ImportRuntime) (call : ImportCall)

/-- The options are checked before anything else. -/
def ImportCall.checked : Except ImportRaised DraftOptions :=
  if call.unresolvedTargets ∉ ["error".toList, "warn".toList] then
    .error (.importError ("--unresolved-targets must be error or warn, got ".toList ++
      shown runtime.repr call.unresolvedTargets))
  else
    match call.resolveRoot.filter fun root => !root.2 with
    | some root => .error (.importError ("--resolve-root is not a directory: ".toList ++ root.1))
    | none =>
        match Kind.all.find? fun kind => kind.name = call.kind with
        | none => .error (.importError ("unknown --kind ".toList ++
            shown runtime.repr call.kind ++ " (allowed: ".toList ++
              List.intercalate ", ".toList (Kind.all.map Kind.name) ++ [')']))
        | some kind =>
            match normalizeTier call.tier with
            | none => .error (.importError ("invalid tier ".toList ++
                shown runtime.repr call.tier ++
                  " (allowed: ['T1', 'T2', 'T3', 'T4', 'meta'])".toList))
            | some tier =>
                if call.source.present then
                  .ok ⟨kind, tier, call.category, call.idPrefix, call.generated⟩
                else .error (.importError ("source not found: ".toList ++ call.source.path))

/-- The front matter of a document of the directory, unless it cannot be read. -/
def conceptFrontmatter (content : FileContent) : Except ImportRaised Mapping :=
  match content with
  | .bytes _ => .ok []
  | .text text => (runtime.lenientFrontmatter (readBack text)).mapError .python

/-- `_check_rerun`. -/
def ImportCall.checkRerun (dir : OutDir) : Except ImportRaised Unit :=
  if call.force then .ok ()
  else if (dir.listing.lookup markerName).isSome then
    .error (.importError ("refusing to re-import: ".toList ++ call.outDir ++
      " was already used as an import target (marker ".toList ++
        shown runtime.repr markerName ++ " present). Re-run with --force to overwrite, or ".toList ++
        "choose a fresh --out directory.".toList))
  else
    (concepts dir.listing).forM fun concept => do
      let entries ← conceptFrontmatter runtime concept.2
      if entries.isEmpty then .ok ()
      else .error (.importError ("refusing to write into non-empty bundle ".toList ++
        call.outDir ++ " (found governed file ".toList ++ shown runtime.repr concept.1 ++
          "). Use a fresh --out directory or pass --force to overwrite.".toList))

/-- `data["created"]` of the marker, or what is wrong with it. -/
def ImportRuntime.recorded (entry : Entry) : Except Text (List Value) :=
  let unreadable := " is unreadable (".toList ++ runtime.markerError entry ++ [')']
  let unrecorded := " does not record which files were imported".toList
  match entry with
  | .file (.text text) =>
      match runtime.json.loads (readBack text) with
      | none => .error unreadable
      | some (.dict entries) =>
          match Mapping.get entries "created" with
          | some (.list names) => .ok names
          | _ => .error unrecorded
      | some _ => .error unrecorded
  | _ => .error unreadable

/-- The text of a string, unless it has a lone surrogate. -/
def textOf (s : PyStr) : Option Text :=
  s.mapM fun
    | .scalar c => some c
    | .surrogate _ => none

/-- The file that a name of the marker stands for. -/
def ImportCall.fileNamed (listing : Listing) : Value → Option Text
  | .str s =>
      match (textOf s).bind (childName call.outDir) with
      | some name =>
          match listing.lookup name with
          | some (.file _) => some name
          | _ => none
      | none => none
  | _ => none

/-- The loop of `_clear_prior_import`. -/
def ImportCall.clearNames : List Value → Listing → Listing × Option ImportRaised
  | [], listing => (listing, none)
  | item :: rest, listing =>
      match call.fileNamed listing item with
      | none => ImportCall.clearNames rest listing
      | some name =>
          match call.disk.unlink name with
          | some raised => (listing, some raised)
          | none => ImportCall.clearNames rest (listing.erase name)

/-- `_clear_prior_import`, if the run is forced. -/
def ImportCall.clear (listing : Listing) : Listing × Option ImportRaised :=
  if call.force then
    match listing.lookup markerName with
    | none => (listing, none)
    | some entry =>
        match runtime.recorded entry with
        | .error wrong => (listing, some (.importError ("cannot force-overwrite ".toList ++
            call.outDir ++ ": the import marker ".toList ++ shown runtime.repr markerName ++
              wrong ++ ". Clear the directory or choose a fresh --out.".toList)))
        | .ok names => call.clearNames names listing
  else (listing, none)

/-- The id of a document of the directory. -/
def conceptIds (content : FileContent) : Except ImportRaised (List PyStr) :=
  (conceptFrontmatter runtime content).map fun entries =>
    match entries.get "id" with
    | some (.str docId) => if docId.isEmpty then [] else [docId]
    | _ => []

/-- `_existing_ids`. -/
def existingIds (listing : Listing) : Except ImportRaised (List PyStr) :=
  ((concepts listing).mapM fun concept => conceptIds runtime concept.2).map List.flatten

/-- The drafts of a run, beside what is left in the directory. -/
def ImportCall.plan (options : DraftOptions) (listing : Listing) :
    Except ImportRaised (List DraftDoc × List SkippedSection) := do
  let existing ← existingIds runtime listing
  let drafted ← sourceDrafts runtime.tables runtime.toRuntime runtime.repr runtime.readAdr
    call.source options existing
  if drafted.1.isEmpty then
    .error (.importError ("no importable concepts found in ".toList ++ call.source.path ++
      " (every candidate section was too short or empty). Nothing written.".toList))
  else .ok drafted

/-- `write_text`. -/
def ImportCall.put (listing : Listing) (name text : Text) : Listing × Option ImportRaised :=
  match listing.lookup name with
  | some (.directory _) => (listing, some (.files "Is a directory".toList))
  | _ => (call.disk.write name).apply listing name text

/-- `render_document` of a draft. -/
def rendered (draft : DraftDoc) : Except ImportRaised Text :=
  (runtime.safeDump draft.frontmatter).map fun dumped =>
    renderDocument (fun _ => dumped) draft.frontmatter draft.body

/-- The loop that writes the drafts. -/
def ImportCall.writeDrafts : List DraftDoc → Listing → Listing × Option ImportRaised
  | [], listing => (listing, none)
  | draft :: rest, listing =>
      match rendered runtime draft with
      | .error raised => (listing, some raised)
      | .ok text =>
          match call.put listing draft.filename text with
          | (written, some raised) => (written, some raised)
          | (written, none) => ImportCall.writeDrafts rest written

/-- The text of the marker. -/
def ImportCall.markerText (created : List Text) : Text :=
  Shape.printObject ("kind".toList, .text call.kind)
    [("source".toList, .text call.source.path), ("created".toList, .texts created)] ++ ['\n']

/-- The drafts are written and recorded. -/
def ImportCall.record (drafts : List DraftDoc) (listing : Listing) :
    Listing × Option ImportRaised :=
  match call.writeDrafts runtime drafts listing with
  | (written, some raised) => (written, some raised)
  | (written, none) =>
      call.put written markerName (call.markerText (drafts.map DraftDoc.filename))

/-- `out_dir.mkdir(parents=True, exist_ok=True)`. -/
def ImportCall.mkdir (dir : OutDir) : Option ImportRaised :=
  if dir.isSome then none else call.disk.mkdir

/-- A directory that exists, with other entries. -/
def OutDir.withListing (dir : OutDir) (listing : Listing) : OutDir :=
  dir.map fun _ => listing

/-- `run_import`. -/
def ImportCall.runImport (dir : OutDir) : OutDir × Except ImportRaised ImportReport :=
  match call.checked runtime with
  | .error raised => (dir, .error raised)
  | .ok options =>
      match call.checkRerun runtime dir with
      | .error raised => (dir, .error raised)
      | .ok () =>
          match call.clear runtime dir.listing with
          | (cleared, some raised) => (dir.withListing cleared, .error raised)
          | (cleared, none) =>
              match call.plan runtime options cleared with
              | .error raised => (dir.withListing cleared, .error raised)
              | .ok (drafts, skipped) =>
                  match call.mkdir dir with
                  | some raised => (dir.withListing cleared, .error raised)
                  | none =>
                      match call.record runtime drafts cleared with
                      | (written, some raised) => (some written, .error raised)
                      | (written, none) =>
                          (some written, (runtime.lint written).map fun findings =>
                            ⟨drafts.map DraftDoc.filename, skipped, findings⟩)

end Run

end DataOlympus.Importer
