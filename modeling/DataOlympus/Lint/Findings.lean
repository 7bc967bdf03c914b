import DataOlympus.Document.Frontmatter
import DataOlympus.Document.Validity
import DataOlympus.Graph.DepthFirst
import DataOlympus.Python.Dict
import DataOlympus.Python.IsoDate
import DataOlympus.Search.Pipeline

/-!
# Findings of the bundle linter

`lint_files` checks the front matter of every document on its own, then the fields that
name other documents against one another, then tier and category against the path.  A
report lists the findings in the order in which they are made, each with the path of its
document; the source keeps them in one list for each path.
-/

namespace DataOlympus.Lint

open Lines Python

inductive Severity where
  | error
  | warning
  deriving DecidableEq

/-- A `Finding`. -/
structure Finding where
  severity : Severity
  field : String
  message : PyStr
  deriving DecidableEq

abbrev Report : Type := List (RelPath × Finding)

/-- The findings of one document, as errors or warnings. -/
def Report.errors (report : Report) : Report :=
  report.filter fun item => item.2.severity = .error

/-- The runtime and the text functions that only the linter calls. -/
structure LintRuntime extends Runtime where
  /-- `str.casefold`. -/
  casefold : PyStr → PyStr
  /-- `repr` of a string. -/
  repr : PyStr → PyStr

def quoted (s : PyStr) : PyStr :=
  PyStr.lit "'" ++ s ++ PyStr.lit "'"

/-! ## The schema of one document -/

/-- `_ENUMS`, each vocabulary in sorted order. -/
def enums : List (String × List String) :=
  [("type", ["decision", "memory", "project", "reference", "standard", "workflow"]),
    ("status", ["accepted", "active", "deprecated", "draft", "proposed", "rejected",
      "superseded"]),
    ("tier", ["T1", "T2", "T3", "T4", "meta"])]

/-- `sorted(allowed)` as the message shows it. -/
def shownNames (names : List String) : PyStr :=
  PyStr.lit "[" ++ PyStr.join (PyStr.lit ", ") (names.map fun name => quoted (PyStr.lit name)) ++
    PyStr.lit "]"

/-- `type(value).__name__`. -/
def typeName : Value → String
  | .null => "NoneType"
  | .bool _ => "bool"
  | .int _ => "int"
  | .float _ => "float"
  | .str _ => "str"
  | .bytes _ => "bytes"
  | .date _ => "date"
  | .datetime .. => "datetime"
  | .list _ => "list"
  | .tuple _ => "tuple"
  | .set _ => "set"
  | .dict _ => "dict"

/-- `is_valid_generated_at(value)`. -/
def isValidGeneratedAt : Value → Bool
  | .str s => !s.blank
  | .datetime _ aware _ => aware
  | _ => false

/-- `generated_problems(value)`. -/
def generatedProblems : Value → List PyStr
  | .dict entries =>
      (match Mapping.get entries "by" with
        | some (.str by') =>
            if by'.blank then [PyStr.lit "'generated.by' must be a non-empty actor string"] else []
        | _ => [PyStr.lit "'generated.by' must be a non-empty actor string"]) ++
      match Mapping.get entries "at" with
      | some moment =>
          if isValidGeneratedAt moment then []
          else [PyStr.lit "'generated.at' must be an ISO 8601 datetime with an explicit offset"]
      | none => []
  | _ => [PyStr.lit "'generated' must be a mapping with 'by' and 'at'"]

/-- `has_content_change_time(frontmatter)`. -/
def hasContentChangeTime (entries : Mapping) : Bool :=
  (match entries.get "generated" with
    | some (.dict generated) => (Mapping.get generated "at").any isValidGeneratedAt
    | _ => false) ||
  (entries.get "timestamp").any Value.truthy

/-- The findings on required fields. -/
def requiredFindings (entries : Mapping) : List Finding :=
  (["id", "type", "status", "tier"].filter fun key => (entries.present key).isNone).map
    fun key => ⟨.error, key, PyStr.lit ("missing required field '" ++ key ++ "'")⟩

/-- The findings on recommended fields. -/
def recommendedFindings (entries : Mapping) : List Finding :=
  (["title", "description", "tags"].filter fun key => !(entries.get key).any Value.truthy).map
      (fun key => ⟨.warning, key, PyStr.lit ("missing recommended field '" ++ key ++ "'")⟩) ++
    if hasContentChangeTime entries then []
    else [⟨.warning, "timestamp", PyStr.lit ("missing recommended content-change time: " ++
      "'generated.at' (OKF v0.2) or the legacy 'timestamp'")⟩]

/-- The findings on `generated` and on `tags`. -/
def shapeFindings (entries : Mapping) : List Finding :=
  (match entries.get "generated" with
    | some value => (generatedProblems value).map (⟨.warning, "generated", ·⟩)
    | none => []) ++
  match entries.present "tags" with
  | some (.list _) => []
  | some value => [⟨.warning, "tags",
      PyStr.lit ("'tags' should be a list, got " ++ typeName value)⟩]
  | none => []

/-- `VALIDITY_DATE_FIELDS`. -/
def validityDateFields : List String :=
  ["valid_from", "valid_until", "last_verified", "recheck_by"]

section Document

variable (runtime : LintRuntime)

/-- The check of one enumerated field. -/
def enumFindings (entries : Mapping) (key : String) (allowed : List String) :
    Except Raised (List Finding) :=
  match entries.present key with
  | none => .ok []
  | some value =>
      if value.unhashable then .error .unhashable
      else if allowed.any fun name => value.isStr (PyStr.lit name) then .ok []
      else do
        let shown ← runtime.str value
        return [⟨.error, key, PyStr.lit "invalid " ++ PyStr.lit key ++ PyStr.lit " " ++
          quoted shown ++ PyStr.lit " (allowed: " ++ shownNames allowed ++ PyStr.lit ")"⟩]

/-- The warning on a status in force behind a passed `valid_until`. -/
def expiredFindings (entries : Mapping) (validUntil : Option Date) (today : Date) :
    Except Raised (List Finding) :=
  match validUntil with
  | none => .ok []
  | some day =>
      if today ≤ day then .ok []
      else
        match entries.get "status" with
        | some (.str status) =>
            if status ∈ inForceStatuses then
              .ok [⟨.warning, "validity", PyStr.lit "valid_until " ++
                quoted (PyStr.ofText day.isoformat) ++
                PyStr.lit " is in the past while status " ++ quoted status ++
                PyStr.lit " is in the in-force class"⟩]
            else .ok []
        | some value => if value.unhashable then .error .unhashable else .ok []
        | none => .ok []

/-- `_validity_findings(fm, today=…)`. -/
def validityFindings (entries : Mapping) (today : Date) : Except Raised (List Finding) :=
  match entries.present "validity" with
  | none => .ok []
  | some (.dict validity) =>
      let date (key : String) : Option Date × Bool :=
        runtime.normalizeValidityDate (Mapping.get validity key)
      match validityDateFields.filter fun key => (date key).2 with
      | [] => do
          let expired ← expiredFindings entries (date "valid_until").1 today
          return (match (date "recheck_by").1 with
            | some day =>
                if day < today then
                  [⟨.warning, "validity", PyStr.lit "recheck_by " ++
                    quoted (PyStr.ofText day.isoformat) ++ PyStr.lit " is in the past"⟩]
                else []
            | none => []) ++ expired
      | malformed =>
          .ok [⟨.warning, "validity", PyStr.lit "malformed validity value(s): " ++
            PyStr.join (PyStr.lit ", ") (malformed.map PyStr.lit)⟩]
  | some _ => .ok [⟨.warning, "validity", PyStr.lit "'validity' should be a mapping"⟩]

/-- `validate_document(doc, today=…)`. -/
def validateDocument (path : RelPath) (entries : Mapping) (today : Date) :
    Except Raised (List Finding) :=
  if path.isReserved then .ok []
  else do
    let vocabulary ← enums.mapM fun field => enumFindings runtime entries field.1 field.2
    let validity ← validityFindings runtime entries today
    return requiredFindings entries ++ vocabulary.flatten ++ recommendedFindings entries ++
      shapeFindings entries ++ validity

end Document

/-! ## The relations of a bundle -/

/-- `_path_shaped(target)`. -/
def pathShaped (target : PyStr) : Bool :=
  target.any (· = .scalar '/') || (PyStr.lit ".md").isSuffixOf target

def stringOf : Value → Option PyStr
  | .str s => some s
  | _ => none

/-- `_normalize_multi_ref(value)`. -/
def normalizeMultiRef : Option Value → List PyStr × Bool
  | none => ([], false)
  | some .null => ([], false)
  | some (.str s) => (if s.blank then [] else [s], false)
  | some (.list items) =>
      (items.filterMap stringOf, !items.all fun item => (stringOf item).isSome)
  | some _ => ([], true)

/-- `_normalize_single_ref(value)`. -/
def normalizeSingleRef : Option Value → Option PyStr × Bool
  | none => (none, false)
  | some .null => (none, false)
  | some (.str s) => (if s.blank then none else some s, false)
  | some _ => (none, true)

/-- A document of the bundle: `docs.items()`. -/
abbrev Docs : Type := List (RelPath × Mapping)

/-- The id of a document that others can name. -/
def usableId (entries : Mapping) : Option PyStr :=
  match entries.get "id" with
  | some (.str s) => if s.isEmpty then none else some s
  | _ => none

/-- `id_to_path.setdefault(doc_id, path)`. -/
def enterId (paths : Dict PyStr RelPath) (doc : RelPath × Mapping) : Dict PyStr RelPath :=
  match usableId doc.2 with
  | some id => if (paths.get id).isSome then paths else paths.set id doc.1
  | none => paths

/-- `id_to_path`: the first document that has an id. -/
def idToPath (docs : Docs) : Dict PyStr RelPath :=
  docs.foldl enterId Dict.empty

/-- What the linter keeps of the documents, by id. -/
structure Relations where
  supersedesById : Dict PyStr (List PyStr)
  supersededByById : Dict PyStr PyStr
  contradictsById : Dict PyStr (List PyStr)
  derivedFromById : Dict PyStr (List PyStr)
  statusById : Dict PyStr PyStr
  inForceById : Dict PyStr Bool
  validUntilById : Dict PyStr (Option Date)

def Relations.empty : Relations :=
  ⟨Dict.empty, Dict.empty, Dict.empty, Dict.empty, Dict.empty, Dict.empty, Dict.empty⟩

/-- The options of a lint run. -/
structure Options where
  /-- `resolve_ids`. -/
  external : List PyStr
  /-- `unresolved_severity` is not `"warn"`. -/
  unresolvedAreErrors : Bool
  /-- `root is not None`. -/
  rooted : Bool
  /-- `memory_inbox_prefix()`. -/
  inboxPrefix : Text
  /-- `_classify_by_path(rel, rules)`. -/
  classifyByPath : RelPath → Text × Text

def toldMalformed (field : String) (expected : String) (bad : Bool) : List Finding :=
  if bad then
    [⟨.error, field, PyStr.lit ("malformed '" ++ field ++ "' value: expected " ++ expected)⟩]
  else []

section CrossFile

variable (runtime : LintRuntime) (options : Options)

/-- What is said of one target of a relationship field. -/
def targetFindings (paths : Dict PyStr RelPath) (field : String) (target : PyStr) :
    List Finding :=
  let named := PyStr.lit ("'" ++ field ++ "' value ") ++ runtime.repr target ++
    PyStr.lit (" looks like a file path, not a stable concept id; " ++
      "use the target document's `id` instead")
  let unknown := PyStr.lit ("'" ++ field ++ "' references unknown id ") ++ runtime.repr target
  if (paths.get target).isSome || (field ≠ "contradicts" && target ∈ options.external) then
    if pathShaped target then [⟨.warning, field, named⟩] else []
  else if field = "contradicts" then
    [⟨.warning, field,
      if pathShaped target then named
      else unknown ++ PyStr.lit " (not found in this bundle)"⟩]
  else
    [⟨if options.unresolvedAreErrors then .error else .warning, field,
      unknown ++ PyStr.lit " (not found in this bundle" ++
        PyStr.lit (if pathShaped target then
          "; it looks like a file path, use the target document's `id`" else "") ++
        PyStr.lit ("; pass --resolve-root to resolve against a larger " ++
          "bundle, or --unresolved-targets warn while fixing a backlog)")⟩]

/-- The findings on the relationship fields of one document. -/
def referenceFindings (paths : Dict PyStr RelPath) (entries : Mapping) : List Finding :=
  let supersedes := normalizeMultiRef (entries.get "supersedes")
  let supersededBy := normalizeSingleRef (entries.get "superseded_by")
  let contradicts := normalizeMultiRef (entries.get "contradicts")
  let derivedFrom := normalizeMultiRef (entries.get "derived_from")
  let several := "a concept id string or a list of concept id strings"
  toldMalformed "supersedes" several supersedes.2 ++
    toldMalformed "superseded_by" "a single concept id string" supersededBy.2 ++
    toldMalformed "contradicts" several contradicts.2 ++
    toldMalformed "derived_from" several derivedFrom.2 ++
    ([("supersedes", supersedes.1), ("superseded_by", supersededBy.1.toList),
      ("contradicts", contradicts.1), ("derived_from", derivedFrom.1)].flatMap fun field =>
        field.2.flatMap (targetFindings runtime options paths field.1))

/-- `_lint_window(validity)`. -/
def lintWindow : Option Value → Option Date × Option Date
  | some (.dict validity) =>
      let validFrom := runtime.normalizeValidityDate (Mapping.get validity "valid_from")
      let validUntil := runtime.normalizeValidityDate (Mapping.get validity "valid_until")
      if validFrom.2 || validUntil.2 then (none, none) else (validFrom.1, validUntil.1)
  | _ => (none, none)

/-- `_lint_in_force(…)`. -/
def lintInForce (status : PyStr) (window : Option Date × Option Date) (today : Date)
    (inbox : Bool) : Bool :=
  !inbox && runtime.casefold status ∈ inForceStatuses && inWindow window.1 window.2 today

/-- `str(doc.status or "").strip()`. -/
def statusText (entries : Mapping) : Except Raised PyStr :=
  match entries.get "status" with
  | some value => if value.truthy then (runtime.str value).map PyStr.strip else .ok []
  | none => .ok []

/-- A document enters the maps. -/
def Relations.visit (today : Date) (relations : Relations) (doc : RelPath × Mapping) :
    Except Raised Relations :=
  match usableId doc.2 with
  | none => .ok relations
  | some id => do
      let status ← statusText runtime doc.2
      let window := lintWindow runtime (doc.2.get "validity")
      return {
        supersedesById :=
          relations.supersedesById.set id (normalizeMultiRef (doc.2.get "supersedes")).1
        supersededByById :=
          match (normalizeSingleRef (doc.2.get "superseded_by")).1 with
          | some target => relations.supersededByById.set id target
          | none => relations.supersededByById
        contradictsById :=
          relations.contradictsById.set id (normalizeMultiRef (doc.2.get "contradicts")).1
        derivedFromById :=
          relations.derivedFromById.set id (normalizeMultiRef (doc.2.get "derived_from")).1
        statusById := relations.statusById.set id status
        inForceById := relations.inForceById.set id
          (lintInForce runtime status window today
            (options.rooted && doc.1.isInbox options.inboxPrefix))
        validUntilById := relations.validUntilById.set id window.2 }

/-- The maps after every document. -/
def relationsOf (docs : Docs) (today : Date) : Except Raised Relations :=
  docs.foldlM (Relations.visit runtime options today) Relations.empty

end CrossFile

/-! ## Checks over the relations -/

/-- The finding at the document of an id. -/
def told (paths : Dict PyStr RelPath) (id : PyStr) (finding : Finding) : Report :=
  ((paths.get id).map fun path => (path, finding)).toList

/-- A relation between ids by its pairs; the source keeps a set of targets for each id. -/
abbrev IdGraph : Type := List (PyStr × PyStr)

/-- `sorted(set(ids))`. -/
def sortedIds (ids : List PyStr) : List PyStr :=
  ids.dedup.insertionSort fun first second => PyStr.le first second = true

/-- `sorted(graph.get(node, ()))`. -/
def IdGraph.neighbors (graph : IdGraph) (node : PyStr) : List PyStr :=
  sortedIds ((graph.filter fun edge => edge.1 = node).map Prod.snd)

/-- `_find_cycles(graph)`.  The depth of the search stays below the number of ids. -/
def findCycles (graph : IdGraph) : Option (List (List PyStr)) :=
  let starts := sortedIds (graph.map Prod.fst)
  (DepthFirst.searchFrom graph.neighbors (graph.map Prod.fst ++ graph.map Prod.snd).length
    starts).map DepthFirst.Search.cycles

def cycleFinding (field what : String) (cycle : List PyStr) : Finding :=
  ⟨.error, field, PyStr.lit (what ++ " cycle detected: ") ++ PyStr.join (PyStr.lit " -> ") cycle⟩

/-- Every member of a cycle is told of it. -/
def cycleFindings (paths : Dict PyStr RelPath) (field what : String) (graph : IdGraph) : Report :=
  ((findCycles graph).getD []).flatMap fun cycle =>
    cycle.dropLast.flatMap fun member => told paths member (cycleFinding field what cycle)

/-- The pairs of a map to lists of targets. -/
def targetPairs (targets : Dict PyStr (List PyStr)) : IdGraph :=
  targets.items.flatMap fun item => item.2.map fun target => (item.1, target)

/-- The edges between two different documents of the bundle. -/
def known (paths : Dict PyStr RelPath) (graph : IdGraph) (target : PyStr × PyStr → PyStr) :
    IdGraph :=
  graph.filter fun edge => edge.2 ≠ edge.1 && (paths.get (target edge)).isSome

/-- "A supersedes B", from both fields. -/
def supersessionGraph (paths : Dict PyStr RelPath) (relations : Relations) : IdGraph :=
  known paths (targetPairs relations.supersedesById) Prod.snd ++
    known paths (relations.supersededByById.items.map Prod.swap) Prod.fst

/-- "A derives from B". -/
def derivationGraph (paths : Dict PyStr RelPath) (relations : Relations) : IdGraph :=
  known paths (targetPairs relations.derivedFromById) Prod.snd

end DataOlympus.Lint
