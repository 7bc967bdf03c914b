import DataOlympus.Control.Except
import DataOlympus.Lint.Bundle

/-!
# Lint errors do not depend on the date

A run of the linter reads the date for the validity windows, for `recheck_by` and for the
documents that a retired source leaves behind.  All of these are warnings, so the errors of
a bundle, and with them the exit of a continuous integration job, are those of any other day.
-/

namespace DataOlympus.Lint

open Lines Python

theorem Report.errors_append (first second : Report) :
    Report.errors (first ++ second) = first.errors ++ second.errors :=
  List.filter_append _ _

theorem Report.errors_flatMap {α : Type*} (items : List α) (findings : α → Report) :
    Report.errors (items.flatMap findings) = items.flatMap fun item => (findings item).errors := by
  induction items with
  | nil => rfl
  | cons item rest ih => rw [List.flatMap_cons, List.flatMap_cons, errors_append, ih]

/-- A warning leaves no error. -/
theorem errors_told_warning (paths : Dict PyStr RelPath) (id : PyStr) (field : String)
    (message : PyStr) : (told paths id ⟨.warning, field, message⟩).errors = [] := by
  unfold told
  cases paths.get id <;> rfl

/-! ## One document -/

/-- The errors among the findings of one document. -/
def errorsOf (findings : List Finding) : List Finding :=
  findings.filter fun finding => finding.severity = .error

theorem errorsOf_append (first second : List Finding) :
    errorsOf (first ++ second) = errorsOf first ++ errorsOf second :=
  List.filter_append _ _

/-- The status that the vocabulary check let through is no container. -/
theorem hashable_of_enumFindings {runtime : LintRuntime} {entries : Mapping} {key : String}
    {allowed : List String} {findings : List Finding}
    (checked : enumFindings runtime entries key allowed = .ok findings) {value : Value}
    (found : entries.get key = some value) : value.unhashable = false := by
  cases value with
  | list items => simp [enumFindings, Mapping.present, found, Value.unhashable] at checked
  | dict items => simp [enumFindings, Mapping.present, found, Value.unhashable] at checked
  | _ => rfl

/-- Behind a status that is no container, the warning on an expired document raises nothing. -/
theorem exists_expiredFindings {entries : Mapping}
    (hashable : ∀ value, entries.get "status" = some value → value.unhashable = false)
    (validUntil : Option Date) (today : Date) :
    ∃ findings, expiredFindings entries validUntil today = .ok findings ∧
      errorsOf findings = [] := by
  unfold expiredFindings
  cases validUntil with
  | none => exact ⟨[], rfl, rfl⟩
  | some day =>
      dsimp only
      split
      · exact ⟨[], rfl, rfl⟩
      · split
        · split
          · exact ⟨_, rfl, rfl⟩
          · exact ⟨[], rfl, rfl⟩
        · rename_i value _ found
          rw [if_neg (by simp [hashable value found])]
          exact ⟨[], rfl, rfl⟩
        · exact ⟨[], rfl, rfl⟩

theorem exists_validityFindings (runtime : LintRuntime) {entries : Mapping}
    (hashable : ∀ value, entries.get "status" = some value → value.unhashable = false)
    (today : Date) :
    ∃ findings, validityFindings runtime entries today = .ok findings ∧
      errorsOf findings = [] := by
  unfold validityFindings
  split
  · exact ⟨[], rfl, rfl⟩
  · rename_i validity _
    dsimp only
    split
    · rcases exists_expiredFindings hashable
        (runtime.normalizeValidityDate (Mapping.get validity "valid_until")).1 today with
        ⟨expired, done, noError⟩
      refine ⟨_, congrArg (· >>= _) done, ?_⟩
      rw [errorsOf_append, noError, List.append_nil]
      split
      · split
        · rfl
        · rfl
      · rfl
    · exact ⟨_, rfl, rfl⟩
  · exact ⟨_, rfl, rfl⟩

/-- The schema errors of a document are those of any other day. -/
theorem validateDocument_errors (runtime : LintRuntime) (path : RelPath) (entries : Mapping)
    (today other : Date) :
    (validateDocument runtime path entries today).map errorsOf =
      (validateDocument runtime path entries other).map errorsOf := by
  unfold validateDocument
  split
  · rfl
  · cases checked : enums.mapM fun field => enumFindings runtime entries field.1 field.2 with
    | error raised => rfl
    | ok vocabulary =>
        have hashable : ∀ value, entries.get "status" = some value →
            value.unhashable = false := by
          intro value found
          have status : ("status", ["accepted", "active", "deprecated", "draft", "proposed",
              "rejected", "superseded"]) ∈ enums := by
            simp [enums]
          rcases Except.mem_mapM_of_mem checked status with ⟨findings, -, done⟩
          exact hashable_of_enumFindings done found
        rcases exists_validityFindings runtime hashable today with ⟨findings, done, noError⟩
        rcases exists_validityFindings runtime hashable other with ⟨findings', done', noError'⟩
        simp only [done, done', bind, Except.bind, pure, Except.pure, Except.map,
          errorsOf_append, noError, noError']

/-! ## Several documents -/

/-- The relations without the one map that the date enters. -/
def Relations.timeless (relations : Relations) : Relations :=
  { relations with inForceById := Dict.empty }

theorem Relations.visit_timeless {runtime : LintRuntime} {options : Options} (today other : Date)
    {relations relations' : Relations} (doc : RelPath × Mapping)
    (same : relations.timeless = relations'.timeless) :
    (relations.visit runtime options today doc).map timeless =
      (relations'.visit runtime options other doc).map timeless := by
  unfold Relations.visit
  split
  · exact congrArg Except.ok same
  · rcases relations with ⟨_, _, _, _, _, _, _⟩
    rcases relations' with ⟨_, _, _, _, _, _, _⟩
    simp only [timeless, Relations.mk.injEq, true_and] at same
    rcases same with ⟨rfl, rfl, rfl, rfl, rfl, rfl⟩
    cases statusText runtime doc.2 with
    | error raised => rfl
    | ok status => rfl

theorem relationsOf_timeless (runtime : LintRuntime) (options : Options) (docs : Docs)
    (today other : Date) :
    (relationsOf runtime options docs today).map Relations.timeless =
      (relationsOf runtime options docs other).map Relations.timeless :=
  Except.foldlM_map_congr (fun _ _ doc same => Relations.visit_timeless today other doc same) rfl

/-- All that the date decides are warnings. -/
theorem errors_retiredFindings (runtime : LintRuntime) (paths : Dict PyStr RelPath)
    (relations : Relations) (today : Date) :
    (retiredFindings runtime paths relations today).errors = [] := by
  simp only [retiredFindings, Report.errors_append, Report.errors_flatMap, errors_told_warning,
    List.flatMap_eq_nil_iff, List.append_eq_nil_iff, implies_true, and_self]

/-- The errors over the relations, from what the date does not enter. -/
theorem errors_relationFindings (runtime : LintRuntime) (paths : Dict PyStr RelPath)
    (relations : Relations) (today : Date) :
    (relationFindings runtime paths relations today).errors =
      (relationFindings runtime paths relations.timeless today).errors := by
  simp only [relationFindings, derivedFromFindings, Report.errors_append,
    errors_retiredFindings]
  rfl

/-- The cross-file errors are those of any other day. -/
theorem crossFileFindings_errors (runtime : LintRuntime) (options : Options) (docs : Docs)
    (today other : Date) :
    (crossFileFindings runtime options docs today).map Report.errors =
      (crossFileFindings runtime options docs other).map Report.errors := by
  refine Except.bind_map_congr (relationsOf_timeless runtime options docs today other) ?_
  intro relations relations' same
  refine congrArg Except.ok ?_
  rw [Report.errors_append, Report.errors_append, errors_relationFindings, same,
    errors_relationFindings runtime _ relations']
  simp only [relationFindings, derivedFromFindings, Report.errors_append, errors_retiredFindings]

/-! ## The whole run -/

/-- What the date does not enter of a document that is loaded and checked. -/
def checkedView (loaded : (RelPath × Mapping) × List Finding) :
    (RelPath × Mapping) × List Finding :=
  (loaded.1, errorsOf loaded.2)

theorem loadAndValidate_view (runtime : LintRuntime) (file : RelPath × Text)
    (today other : Date) :
    (loadAndValidate runtime today file).map checkedView =
      (loadAndValidate runtime other file).map checkedView := by
  unfold loadAndValidate
  cases runtime.parseFrontmatter file.2 with
  | error raised => rfl
  | ok parsed =>
      have errors := validateDocument_errors runtime file.1 parsed.1 today other
      refine Except.bind_map_congr errors fun findings findings' same => ?_
      exact congrArg (fun errors => Except.ok ((file.1, parsed.1), errors)) same

/-- The errors of the schema checks, from the view. -/
theorem errors_schema (loaded : List ((RelPath × Mapping) × List Finding)) :
    Report.errors (loaded.flatMap fun doc => doc.2.map fun finding => (doc.1.1, finding)) =
      (loaded.map checkedView).flatMap fun doc => doc.2.map fun finding => (doc.1.1, finding) := by
  rw [Report.errors_flatMap, List.flatMap_map]
  congr 1
  funext doc
  exact List.filter_map

/-- The errors of a lint run, and whether it raises, are those of any other day. -/
theorem lintFiles_errors_eq (runtime : LintRuntime) (options : Options)
    (files : List (RelPath × Text)) (today other : Date) :
    (lintFiles runtime options files today).map Report.errors =
      (lintFiles runtime options files other).map Report.errors := by
  refine Except.bind_map_congr
    (Except.mapM_map_congr fun file => loadAndValidate_view runtime file today other) ?_
  intro loaded loaded' same
  have docs : loaded.map Prod.fst = loaded'.map Prod.fst := by
    have firsts := congrArg (List.map Prod.fst) same
    simpa [Function.comp_def, checkedView] using firsts
  rw [docs]
  refine Except.bind_map_congr (crossFileFindings_errors runtime options _ today other) ?_
  intro related related' alike
  refine congrArg Except.ok ?_
  rw [Report.errors_append, Report.errors_append, Report.errors_append, Report.errors_append,
    errors_schema, errors_schema, same, alike]

end DataOlympus.Lint
