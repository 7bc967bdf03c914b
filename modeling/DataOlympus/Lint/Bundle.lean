import DataOlympus.Lint.Findings

/-!
# Linting a bundle

The checks that look at several documents at once, and the whole of `lint_files`.
-/

namespace DataOlympus.Lint

open Lines Python

/-- `RETIRED_STATUSES`. -/
def retiredStatuses : List PyStr :=
  [PyStr.lit "deprecated", PyStr.lit "superseded", PyStr.lit "rejected"]

/-- `is_retired(status, valid_until, today, graph_excluded=…)`. -/
def isRetired (status : PyStr) (validUntil : Option Date) (today : Date)
    (graphExcluded : Bool) : Bool :=
  if graphExcluded || status ∈ retiredStatuses then true else isExpired validUntil today

/-- `self-supersession`: a document that names itself. -/
def selfFindings (paths : Dict PyStr RelPath) (graph : IdGraph) (field verb : String) : Report :=
  ((graph.filter fun edge => edge.1 = edge.2).map Prod.fst).flatMap fun id =>
    told paths id ⟨.error, field, quoted id ++ PyStr.lit (" cannot " ++ verb ++ " itself")⟩

/-- The ids whose list of targets holds the id itself, each once. -/
def selfTargets (targets : Dict PyStr (List PyStr)) : IdGraph :=
  (targets.items.filter fun item => item.1 ∈ item.2).map fun item => (item.1, item.1)

section Relational

variable (runtime : LintRuntime) (paths : Dict PyStr RelPath) (relations : Relations)

def statusIsInForce (id : PyStr) : Bool :=
  runtime.casefold ((relations.statusById.get id).getD []) ∈ inForceStatuses

/-- The asymmetric pairs. -/
def asymmetryFindings : Report :=
  (known paths (targetPairs relations.supersedesById) Prod.snd).flatMap (fun edge =>
      if relations.supersededByById.get edge.2 = some edge.1 then []
      else told paths edge.1 ⟨.warning, "supersedes", quoted edge.1 ++ PyStr.lit " supersedes " ++
        quoted edge.2 ++ PyStr.lit " but " ++ quoted edge.2 ++
        PyStr.lit " does not list 'superseded_by: " ++ edge.1 ++ PyStr.lit "'"⟩) ++
    (known paths relations.supersededByById.items Prod.snd).flatMap fun edge =>
      if edge.1 ∈ (relations.supersedesById.get edge.2).getD [] then []
      else told paths edge.1 ⟨.warning, "superseded_by", quoted edge.1 ++
        PyStr.lit " is superseded_by " ++ quoted edge.2 ++ PyStr.lit " but " ++ quoted edge.2 ++
        PyStr.lit " does not list 'supersedes: " ++ edge.1 ++ PyStr.lit "'"⟩

/-- The status of a document against its `superseded_by`. -/
def statusFindings : Report :=
  relations.supersededByById.items.flatMap (fun item =>
      let status := (relations.statusById.get item.1).getD []
      if runtime.casefold status ∈ inForceStatuses then
        told paths item.1 ⟨.warning, "superseded_by", quoted item.1 ++
          PyStr.lit " has 'superseded_by' set but status " ++ runtime.repr status ++
          PyStr.lit " is in-force"⟩
      else []) ++
    relations.statusById.items.flatMap fun item =>
      if runtime.casefold item.2 = PyStr.lit "superseded" &&
          (relations.supersededByById.get item.1).isNone then
        told paths item.1 ⟨.warning, "status", quoted item.1 ++
          PyStr.lit " has status 'superseded' but no 'superseded_by' is set"⟩
      else []

/-- A pair is reported once, in whichever order it comes first. -/
def firstOfPairs : IdGraph → IdGraph
  | [] => []
  | edge :: rest =>
      edge :: (firstOfPairs rest).filter fun other => other ≠ edge && other ≠ edge.swap

/-- The pairs of documents in force that contradict each other. -/
def contradictionFindings : Report :=
  let pairs := (known paths (targetPairs relations.contradictsById) Prod.snd).filter fun edge =>
    statusIsInForce runtime relations edge.1 && statusIsInForce runtime relations edge.2
  (firstOfPairs pairs).flatMap fun edge =>
    told paths edge.1 ⟨.warning, "contradicts", quoted edge.1 ++
        PyStr.lit " contradicts in-force doc " ++ quoted edge.2⟩ ++
      if paths.get edge.2 = paths.get edge.1 then []
      else told paths edge.2 ⟨.warning, "contradicts", quoted edge.2 ++
        PyStr.lit " is contradicted by in-force doc " ++ quoted edge.1⟩

/-! ## Documents that derive from others -/

/-- A document derives from one that it supersedes. -/
def isMixed (edge : PyStr × PyStr) : Bool :=
  edge.2 ∈ (relations.supersedesById.get edge.1).getD [] ||
    relations.supersededByById.get edge.2 = some edge.1

/-- The pairs of a document and a source it derives from, each document's sources in order. -/
def sortedSources (targets : Dict PyStr (List PyStr)) : IdGraph :=
  targets.items.flatMap fun item =>
    ((sortedIds item.2).filter fun source => source ≠ item.1).map fun source => (item.1, source)

/-- The findings on a document that derives from one that it supersedes. -/
def mixedFindings : Report :=
  ((sortedSources relations.derivedFromById).filter (isMixed relations)).flatMap fun edge =>
    told paths edge.1 ⟨.error, "derived_from", quoted edge.1 ++ PyStr.lit " derives from " ++
      quoted edge.2 ++ PyStr.lit " but also supersedes it; a successor is not a dependent of " ++
      PyStr.lit "the document it retires, so remove " ++ quoted edge.2 ++
      PyStr.lit " from 'derived_from'"⟩

/-- `in_force_superseders.get(target, [])`, sorted. -/
def inForceSuperseders (target : PyStr) : List PyStr :=
  (((known paths (targetPairs relations.supersedesById) Prod.snd).filter fun edge =>
      edge.2 = target && (relations.inForceById.get edge.1).getD false).map
    Prod.fst).insertionSort fun first second => PyStr.le first second = true

/-- `retirement_reason(source)`. -/
def retirementReason (today : Date) (source : PyStr) : Option PyStr :=
  let rawStatus := (relations.statusById.get source).getD []
  let status := runtime.casefold rawStatus
  let superseders := inForceSuperseders paths relations source
  let validUntil := ((relations.validUntilById.get source).getD none)
  if !isRetired status validUntil today (!superseders.isEmpty) then none
  else if status ∈ retiredStatuses then some (PyStr.lit "status " ++ quoted rawStatus)
  else match superseders with
    | first :: _ => some (PyStr.lit "superseded by in-force " ++ quoted first)
    | [] => some (PyStr.lit "expired: valid_until " ++
        (validUntil.map fun day => PyStr.ofText day.isoformat).getD [] ++
        PyStr.lit " is before " ++ PyStr.ofText today.isoformat)

/-- The pairs of a document in force and a retired source that it derives from, with the
reason: in the order of the ids. -/
def retiredSources (today : Date) : List ((PyStr × PyStr) × PyStr) :=
  let dependents := (sortedIds (relations.derivedFromById.items.map Prod.fst)).filter fun id =>
    (relations.inForceById.get id).getD false && (inForceSuperseders paths relations id).isEmpty
  dependents.flatMap fun id =>
    (((sortedIds ((relations.derivedFromById.get id).getD [])).filter fun source =>
        source ≠ id && (paths.get source).isSome && !isMixed relations (id, source)).filterMap
      fun source => (retirementReason runtime paths relations today source).map
        fun reason => ((id, source), reason))

/-- The warnings at both ends of a derivation from a retired source. -/
def retiredFindings (today : Date) : Report :=
  let pairs := retiredSources runtime paths relations today
  pairs.flatMap (fun pair =>
      told paths pair.1.1 ⟨.warning, "derived_from", quoted pair.1.1 ++
        PyStr.lit " is in force but derives from " ++ quoted pair.1.2 ++
        PyStr.lit ", which is no longer in force (" ++ pair.2 ++ PyStr.lit "); decide whether " ++
        quoted pair.1.1 ++
        PyStr.lit " still holds, needs rewording, or should be retired"⟩) ++
    (sortedIds (pairs.map fun pair => pair.1.2)).flatMap fun source =>
      let dependents := (pairs.filter fun pair => pair.1.2 = source).map fun pair => pair.1.1
      told paths source ⟨.warning, "derived_from", quoted source ++
        PyStr.lit " is no longer in force (" ++
        (retirementReason runtime paths relations today source).getD (PyStr.lit "None") ++
        PyStr.lit ") but in-force documents derive from it: " ++
        PyStr.join (PyStr.lit ", ") ((sortedIds dependents).map quoted) ++
        PyStr.lit "; review them"⟩

/-- `_derived_from_findings(…)`. -/
def derivedFromFindings (today : Date) : Report :=
  selfFindings paths (selfTargets relations.derivedFromById) "derived_from" "derive from" ++
    cycleFindings paths "derived_from" "derivation" (derivationGraph paths relations) ++
    mixedFindings paths relations ++ retiredFindings runtime paths relations today

/-- The findings over the relations of a bundle. -/
def relationFindings (today : Date) : Report :=
  selfFindings paths (selfTargets relations.supersedesById) "supersedes" "supersede" ++
    ((relations.supersededByById.items.filter fun edge => edge.2 = edge.1).map
      Prod.fst).flatMap (fun id => told paths id ⟨.error, "superseded_by", quoted id ++
        PyStr.lit " cannot be superseded by itself"⟩) ++
    cycleFindings paths "supersedes" "supersession" (supersessionGraph paths relations) ++
    asymmetryFindings paths relations ++ statusFindings runtime paths relations ++
    contradictionFindings runtime paths relations ++
    derivedFromFindings runtime paths relations today

end Relational

/-! ## The whole run -/

section Run

variable (runtime : LintRuntime) (options : Options)

/-- `_cross_file_lifecycle_findings(docs, …)`. -/
def crossFileFindings (docs : Docs) (today : Date) : Except Raised Report := do
  let paths := idToPath docs
  let relations ← relationsOf runtime options docs today
  return docs.flatMap (fun doc =>
      (referenceFindings runtime options paths doc.2).map fun finding => (doc.1, finding)) ++
    relationFindings runtime paths relations today

/-- `_taxonomy_findings(docs, root, path_rules)` at one document. -/
def taxonomyFindings (path : RelPath) (entries : Mapping) : List Finding :=
  let implied := options.classifyByPath path
  let tiers := ["T1", "T2", "T3", "T4", "meta"].map PyStr.lit
  let pathTier := PyStr.ofText implied.1
  let expected := if pathTier ∈ tiers then pathTier else PyStr.lit "meta"
  (match entries.get "tier" with
    | some (.str tier) =>
        if tier ∈ tiers ∧ tier ≠ expected then
          [⟨.warning, "tier", PyStr.lit "frontmatter tier " ++ runtime.repr tier ++
            PyStr.lit " disagrees with the path taxonomy, which implies tier " ++
            runtime.repr pathTier ++ PyStr.lit "; the index uses " ++ runtime.repr tier ++
            PyStr.lit (", but the write blocklist (KB_WRITE_BLOCK_TIERS) classifies by path, " ++
              "so writes to this document are governed as ") ++ runtime.repr pathTier⟩]
        else []
    | _ => []) ++
  match entries.get "category" with
  | some (.str category) =>
      if category ≠ [] ∧ category ≠ PyStr.ofText implied.2 then
        [⟨.warning, "category", PyStr.lit "frontmatter category " ++ runtime.repr category ++
          PyStr.lit " disagrees with the path taxonomy, which implies category " ++
          runtime.repr (PyStr.ofText implied.2) ++ PyStr.lit "; the index uses " ++
          runtime.repr category⟩]
      else []
  | _ => []

/-- `Document.load(md)` and the check of its schema. -/
def loadAndValidate (today : Date) (file : RelPath × Text) :
    Except Raised ((RelPath × Mapping) × List Finding) := do
  let (entries, _) ← runtime.parseFrontmatter file.2
  let findings ← validateDocument runtime file.1 entries today
  return ((file.1, entries), findings)

/-- `lint_files(files, …)`. -/
def lintFiles (files : List (RelPath × Text)) (today : Date) : Except Raised Report := do
  let loaded ← files.mapM (loadAndValidate runtime today)
  let docs := loaded.map Prod.fst
  let related ← crossFileFindings runtime options docs today
  return loaded.flatMap (fun doc => doc.2.map fun finding => (doc.1.1, finding)) ++ related ++
    if options.rooted then
      docs.flatMap fun doc =>
        (taxonomyFindings runtime options doc.1 doc.2).map fun finding => (doc.1, finding)
    else []

end Run

end DataOlympus.Lint
