import DataOlympus.Python.IsoDate
import DataOlympus.Search.Facets
import DataOlympus.Search.Retrieval
import DataOlympus.Sql.Where

/-!
# The columns behind the in-force filter

The tables as SQLite holds them: an absent date is `NULL`, a date is text, and the inbox flag is
a number.  The filter is a condition with nulls over these columns; the response layer reads the
same row into strings, where an absent date is the empty one, and compares in Python.
-/

namespace DataOlympus

open Lines Sql

/-- A row of `docs`, as far as the in-force filter reads it. -/
structure DocsRecord where
  id : Option PyStr
  status : Option PyStr
  validFrom : Option Text
  validUntil : Option Text
  isInbox : Int

/-- A row of `edges`. -/
structure EdgesRecord where
  sourceId : PyStr
  rel : Text
  targetId : PyStr
  deriving DecidableEq

/-- The two tables. -/
structure Tables where
  docs : List DocsRecord
  edges : List EdgesRecord

/-! ## What the build inserts -/

/-- The bound values of a row: `doc.valid_from or None`, `int(is_inbox)`. -/
def DocRow.record (row : DocRow) : DocsRecord where
  id := some row.id
  status := some row.status
  validFrom := row.validFrom.map Date.isoformat
  validUntil := row.validUntil.map Date.isoformat
  isInbox := if row.isInbox then 1 else 0

/-- The `rel` column. -/
def Relation.rel : Relation → Text
  | supersedes => "supersedes".toList
  | supersededBy => "superseded_by".toList
  | contradicts => "contradicts".toList
  | derivedFrom => "derived_from".toList

/-- The bound values of an edge. -/
def Edge.record (edge : Edge) : EdgesRecord :=
  ⟨edge.source, edge.relation.rel, edge.target⟩

/-- The tables of a built index; `edge_rows` is a set. -/
def Index.tables (index : Index) : Tables :=
  ⟨index.rows.map DocRow.record, (index.edges.map Edge.record).dedup⟩

/-! ## The filter -/

namespace DocsRecord

variable (record : DocsRecord) (today : Text)

/-- `status IN (…)`. -/
def statusFragment : Truth :=
  isIn record.status (inForceStatuses.map some)

/-- `in_force_sql_fragment()`.  SQLite compares the bytes of two texts in UTF-8, which are in the
order of the code points. -/
def inForceSqlFragment : Truth :=
  conj
    (disj (isNull record.validFrom) (compare nameLe record.validFrom (some today)))
    (disj (isNull record.validUntil)
      (compare (fun day today => nameLe today day) record.validUntil (some today)))

/-- `not_inbox_sql_fragment()`. -/
def notInboxSqlFragment : Truth :=
  compare (fun flag zero => decide (flag = zero)) (some record.isInbox) (some 0)

/-- The row is joined to an end of an edge. -/
def joins (id : PyStr) : Truth :=
  compare (fun first second => decide (first = second)) record.id (some id)

end DocsRecord

namespace Tables

variable (tables : Tables) (today : Text)

/-- `graph_excluded_ids_sql(…)`. -/
def graphExcludedRows : List (Option PyStr) :=
  tables.edges.flatMap fun edge => tables.docs.flatMap fun src => tables.docs.filterMap fun tgt =>
    if holds (conj (src.joins edge.sourceId) (conj (tgt.joins edge.targetId)
        (conj (compare (fun first second => decide (first = second)) (some edge.rel)
            (some "supersedes".toList))
          (conj src.statusFragment (conj src.notInboxSqlFragment
            (src.inForceSqlFragment today)))))) then
      some (some edge.targetId)
    else none

/-- The fragments that `_facet_filters(in_force=True)` adds to a query. -/
def inForceFilter (record : DocsRecord) : Truth :=
  conj record.statusFragment (conj (record.inForceSqlFragment today)
    (conj record.notInboxSqlFragment (negate (isIn record.id (tables.graphExcludedRows today)))))

/-- `graph_excluded_ids(today=…)`. -/
def graphExcludedIds : List (Option PyStr) :=
  distinct (tables.graphExcludedRows today)

/-- `graph_excluded_count(today=…)`. -/
def graphExcludedCount : Nat :=
  countDistinct (tables.graphExcludedRows today)

end Tables

/-! ## The response layer -/

/-- What `kb_get` reads off an `IndexedDoc` for its flag. -/
structure DocStrings where
  id : Option PyStr
  status : PyStr
  validFrom : Text
  validUntil : Text
  isInbox : Bool

/-- `row["status"] or ""`, `bool(row["is_inbox"])`. -/
def DocsRecord.indexedDoc (record : DocsRecord) : DocStrings where
  id := record.id
  status := record.status.getD []
  validFrom := record.validFrom.getD []
  validUntil := record.validUntil.getD []
  isInbox := decide (record.isInbox ≠ 0)

namespace DocStrings

variable (doc : DocStrings) (today : Text)

/-- `is_expired(doc.valid_until, today)`. -/
def isExpired : Bool :=
  decide (doc.validUntil ≠ []) && nameLt doc.validUntil today

/-- `is_upcoming(doc.valid_from, today)`. -/
def isUpcoming : Bool :=
  decide (doc.validFrom ≠ []) && nameLt today doc.validFrom

/-- `is_in_force(doc.status, doc.valid_from, doc.valid_until, today, is_inbox=doc.is_inbox)`. -/
def isInForce : Bool :=
  if doc.isInbox then false
  else if doc.status ∉ inForceStatuses then false
  else !doc.isExpired today && !doc.isUpcoming today

end DocStrings

namespace Tables

variable (tables : Tables) (today : Text)

/-- `idx.get(id)`. -/
def get (id : PyStr) : Option DocStrings :=
  (tables.docs.find? fun record => holds (record.joins id)).map DocsRecord.indexedDoc

/-- The `in_force` flag of `kb_get_fn(…)`; `none` is `KbNotFoundError`. -/
def kbGetInForce (id : PyStr) : Option Bool :=
  (tables.get id).map fun doc =>
    decide (doc.id ∉ tables.graphExcludedIds today) && doc.isInForce today

end Tables

/-! ## Both computations -/

theorem isoformat_ne_nil (date : Date) : date.isoformat ≠ [] := by
  simp [Date.isoformat]

section Agreement

variable {index : Index} {today : Text}

/-- The row of a document keeps to the status class, the window and the floor if and only if its
strings do. -/
theorem holds_fragments (row : DocRow) :
    (holds row.record.statusFragment && (holds (row.record.inForceSqlFragment today) &&
      holds row.record.notInboxSqlFragment)) = row.record.indexedDoc.isInForce today := by
  have starts : (row.record.validFrom.all fun day => nameLe day today) =
      !row.record.indexedDoc.isUpcoming today := by
    cases here : row.validFrom with
    | none => simp [DocRow.record, DocsRecord.indexedDoc, DocStrings.isUpcoming, here]
    | some day =>
        simp [DocRow.record, DocsRecord.indexedDoc, DocStrings.isUpcoming, here,
          isoformat_ne_nil, nameLt_eq_not]
  have lasts : (row.record.validUntil.all fun day => nameLe today day) =
      !row.record.indexedDoc.isExpired today := by
    cases here : row.validUntil with
    | none => simp [DocRow.record, DocsRecord.indexedDoc, DocStrings.isExpired, here]
    | some day =>
        simp [DocRow.record, DocsRecord.indexedDoc, DocStrings.isExpired, here,
          isoformat_ne_nil, nameLt_eq_not]
  have status : holds row.record.statusFragment = decide (row.status ∈ inForceStatuses) :=
    (holds_isIn_some row.status inForceStatuses).trans (decide_eq_decide.mpr Iff.rfl)
  have floor : holds row.record.notInboxSqlFragment = !row.isInbox := by
    cases here : row.isInbox <;>
      simp [DocsRecord.notInboxSqlFragment, DocRow.record, here]
  have inbox : row.record.indexedDoc.isInbox = row.isInbox := by
    cases here : row.isInbox <;> simp [DocsRecord.indexedDoc, DocRow.record, here]
  rw [status, floor, DocsRecord.inForceSqlFragment, holds_conj, holds_isNull_or_compare,
    holds_isNull_or_compare, starts, lasts, DocStrings.isInForce, inbox]
  have column : row.record.indexedDoc.status = row.status := rfl
  rw [column]
  cases row.isInbox with
  | true => simp
  | false =>
      by_cases inClass : row.status ∈ inForceStatuses
      · simp [inClass, Bool.and_comm]
      · simp [inClass]

/-- The targets of the edges that exclude. -/
def Tables.excludedTargets (tables : Tables) (today : Text) : List PyStr :=
  (tables.graphExcludedRows today).filterMap id

/-- No row of the subquery is `NULL`. -/
theorem graphExcludedRows_eq (tables : Tables) :
    tables.graphExcludedRows today = (tables.excludedTargets today).map some := by
  have present : ∀ cell ∈ tables.graphExcludedRows today, cell.isSome = true := by
    intro cell member
    obtain ⟨edge, -, atEdge⟩ := List.mem_flatMap.mp member
    obtain ⟨src, -, atSource⟩ := List.mem_flatMap.mp atEdge
    obtain ⟨tgt, -, chosen⟩ := List.mem_filterMap.mp atSource
    split at chosen
    · cases chosen
      rfl
    · cases chosen
  rw [Tables.excludedTargets]
  generalize tables.graphExcludedRows today = cells at present
  induction cells with
  | nil => rfl
  | cons cell cells ih =>
      obtain ⟨target, rfl⟩ := Option.isSome_iff_exists.mp (present cell List.mem_cons_self)
      rw [List.filterMap_cons_some (rfl : id (some target) = some target), List.map_cons,
        ← ih fun cell later => present cell (List.mem_cons_of_mem _ later)]

theorem holds_joins (row : DocRow) (id : PyStr) :
    holds (row.record.joins id) = decide (row.id = id) := by
  rw [DocsRecord.joins, holds_compare]
  rfl

/-- A document is found under its id. -/
theorem get_tables (distinct : (index.rows.map DocRow.id).Nodup) {row : DocRow}
    (member : row ∈ index.rows) : index.tables.get row.id = some row.record.indexedDoc := by
  have found := get_of_mem distinct member
  have same : index.tables.docs.find? (fun record => holds (record.joins row.id)) =
      (index.rows.find? fun other => other.id = row.id).map DocRow.record := by
    rw [Index.tables, List.find?_map]
    congr 2
    exact funext fun other => holds_joins other row.id
  rw [Tables.get, same]
  rw [Index.get] at found
  rw [found]
  rfl

/-- A row passes the filter unless it is excluded or its strings are out of force. -/
theorem holds_inForceFilter (row : DocRow) :
    holds (index.tables.inForceFilter today row.record) =
      (!decide (row.id ∈ index.tables.excludedTargets today) &&
        row.record.indexedDoc.isInForce today) := by
  have filter : holds (negate (isIn row.record.id (index.tables.graphExcludedRows today))) =
      !decide (row.id ∈ index.tables.excludedTargets today) := by
    rw [graphExcludedRows_eq]
    exact (holds_not_isIn_some row.id _).trans (congrArg not (decide_eq_decide.mpr Iff.rfl))
  rw [← holds_fragments, Tables.inForceFilter, holds_conj, holds_conj, holds_conj, filter]
  ac_rfl

/-- The flag of a document is set if and only if its row passes the filter. -/
theorem kbGetInForce_eq (distinct : (index.rows.map DocRow.id).Nodup) {row : DocRow}
    (member : row ∈ index.rows) :
    index.tables.kbGetInForce today row.id =
      some (holds (index.tables.inForceFilter today row.record)) := by
  have excluded : decide (row.record.indexedDoc.id ∉ index.tables.graphExcludedIds today) =
      !decide (row.id ∈ index.tables.excludedTargets today) := by
    rw [Tables.graphExcludedIds, graphExcludedRows_eq, Sql.distinct, ← decide_not]
    apply decide_eq_decide.mpr
    rw [List.mem_dedup]
    exact not_congr (List.mem_map_of_injective fun _ _ => Option.some.inj)
  rw [Tables.kbGetInForce, get_tables distinct member, Option.map_some, excluded,
    holds_inForceFilter]

end Agreement

/-! ## The texts stand for dates -/

/-- Every date of the row fits into its text. -/
def DocRow.Fits (row : DocRow) : Prop :=
  (∀ day ∈ row.validFrom, day.Fits) ∧ ∀ day ∈ row.validUntil, day.Fits

/-- The strings of a row are judged as its dates. -/
theorem isInForce_indexedDoc {row : DocRow} (fits : row.Fits) {today : Date}
    (bounds : today.Fits) :
    row.record.indexedDoc.isInForce today.isoformat = row.inForce today := by
  have expired : row.record.indexedDoc.isExpired today.isoformat =
      isExpired row.validUntil today := by
    cases here : row.validUntil with
    | none => simp [DocRow.record, DocsRecord.indexedDoc, DocStrings.isExpired, here, isExpired]
    | some day =>
        have order := Date.nameLe_isoformat bounds (fits.2 day here)
        simp [DocRow.record, DocsRecord.indexedDoc, DocStrings.isExpired, here, isExpired,
          isoformat_ne_nil, nameLt_eq_not, order, ← not_le]
  have upcoming : row.record.indexedDoc.isUpcoming today.isoformat =
      isUpcoming row.validFrom today := by
    cases here : row.validFrom with
    | none => simp [DocRow.record, DocsRecord.indexedDoc, DocStrings.isUpcoming, here, isUpcoming]
    | some day =>
        have order := Date.nameLe_isoformat (fits.1 day here) bounds
        simp [DocRow.record, DocsRecord.indexedDoc, DocStrings.isUpcoming, here, isUpcoming,
          isoformat_ne_nil, nameLt_eq_not, order, ← not_le]
  have inbox : row.record.indexedDoc.isInbox = row.isInbox := by
    cases here : row.isInbox <;> simp [DocsRecord.indexedDoc, DocRow.record, here]
  have column : row.record.indexedDoc.status = row.status := rfl
  rw [DocStrings.isInForce, expired, upcoming, inbox, column]
  rfl

theorem rel_eq_supersedes_iff {relation : Relation} :
    relation.rel = "supersedes".toList ↔ relation = .supersedes := by
  cases relation with
  | supersedes => exact iff_of_true rfl rfl
  | supersededBy => exact iff_of_false (by decide) (by decide)
  | contradicts => exact iff_of_false (by decide) (by decide)
  | derivedFrom => exact iff_of_false (by decide) (by decide)

/-- The subquery finds the targets that the graph excludes. -/
theorem mem_excludedTargets_iff {index : Index} (fits : ∀ row ∈ index.rows, row.Fits)
    {today : Date} (bounds : today.Fits) {id : PyStr} :
    id ∈ index.tables.excludedTargets today.isoformat ↔ index.graphExcluded today id = true := by
  have source : ∀ row ∈ index.rows, holds (conj row.record.statusFragment
      (conj row.record.notInboxSqlFragment (row.record.inForceSqlFragment today.isoformat))) =
        row.inForce today := by
    intro row member
    rw [← isInForce_indexedDoc (fits row member) bounds, ← holds_fragments, holds_conj, holds_conj]
    ac_rfl
  have cells : id ∈ index.tables.excludedTargets today.isoformat ↔
      some id ∈ index.tables.graphExcludedRows today.isoformat := by
    rw [graphExcludedRows_eq]
    exact (List.mem_map_of_injective fun _ _ => Option.some.inj).symm
  rw [cells, Tables.graphExcludedRows, Index.graphExcluded]
  simp only [List.mem_flatMap, List.mem_filterMap, List.any_eq_true, Bool.and_eq_true,
    decide_eq_true_eq]
  constructor
  · rintro ⟨record, inEdges, src, inDocs, tgt, alsoInDocs, chosen⟩
    obtain ⟨edge, inIndex, rfl⟩ := List.mem_map.mp (List.mem_dedup.mp inEdges)
    obtain ⟨row, inRows, rfl⟩ := List.mem_map.mp inDocs
    obtain ⟨target, targetInRows, rfl⟩ := List.mem_map.mp alsoInDocs
    split at chosen
    · rename_i joined
      cases chosen
      rw [holds_conj, holds_conj, holds_conj, holds_joins, holds_joins, source row inRows,
        holds_compare] at joined
      simp only [Bool.and_eq_true, decide_eq_true_eq, Option.any_some] at joined
      obtain ⟨atSource, atTarget, kind, inForce⟩ := joined
      exact ⟨edge, inIndex, ⟨⟨rel_eq_supersedes_iff.mp kind, rfl⟩, row, inRows, atSource, inForce⟩,
        target, targetInRows, atTarget⟩
    · cases chosen
  · rintro ⟨edge, inIndex, ⟨⟨kind, rfl⟩, row, inRows, atSource, inForce⟩, target, targetInRows,
      atTarget⟩
    refine ⟨edge.record, List.mem_dedup.mpr (List.mem_map_of_mem inIndex), row.record,
      List.mem_map_of_mem inRows, target.record, List.mem_map_of_mem targetInRows, ?_⟩
    rw [if_pos]
    · rfl
    · rw [holds_conj, holds_conj, holds_conj, holds_joins, holds_joins, source row inRows,
        holds_compare]
      simp only [Bool.and_eq_true, decide_eq_true_eq, Option.any_some]
      exact ⟨atSource, atTarget, rel_eq_supersedes_iff.mpr kind, inForce⟩

/-- The filter over the columns is the predicate on dates. -/
theorem holds_inForceFilter_eq {index : Index} (fits : ∀ row ∈ index.rows, row.Fits)
    {today : Date} (bounds : today.Fits) {row : DocRow} (member : row ∈ index.rows) :
    holds (index.tables.inForceFilter today.isoformat row.record) = index.inForce today row := by
  have excluded : decide (row.id ∈ index.tables.excludedTargets today.isoformat) =
      index.graphExcluded today row.id := by
    rw [Bool.eq_iff_iff, decide_eq_true_iff]
    exact mem_excludedTargets_iff fits bounds
  rw [holds_inForceFilter, excluded, isInForce_indexedDoc (fits row member) bounds, Index.inForce]

/-- The flag that the response layer computes of the columns is the one of the index. -/
theorem kbGetInForce_isoformat {index : Index} (distinct : (index.rows.map DocRow.id).Nodup)
    (fits : ∀ row ∈ index.rows, row.Fits) {today : Date} (bounds : today.Fits) (id : PyStr) :
    index.tables.kbGetInForce today.isoformat id =
      (kbGet index id today).map GetResponse.inForce := by
  rw [kbGet, Option.map_map]
  cases found : index.get id with
  | none =>
      have absent : index.tables.get id = none := by
        rw [Tables.get, Index.tables, List.find?_map]
        rw [Index.get] at found
        simpa [holds_joins] using found
      rw [Tables.kbGetInForce, absent]
      rfl
  | some row =>
      have member := List.mem_of_find?_eq_some found
      obtain rfl : row.id = id := by simpa using List.find?_some found
      rw [kbGetInForce_eq distinct member, holds_inForceFilter_eq fits bounds member,
        ← inForce_of_row row]
      rfl

/-- A document passes the filter of a query if and only if the response layer reports it in
force, and the counter counts the excluded ids. -/
theorem sql_filter_agrees_with_kb_get (runtime : Runtime) (config : IndexConfig) (tree : Tree)
    (index : Index) (built : runtime.build config tree = .ok index) (today : Text) :
    (∀ record ∈ index.tables.docs, ∃ id, record.id = some id ∧
      (holds (index.tables.inForceFilter today record) = true ↔
        index.tables.kbGetInForce today id = some true)) ∧
    (∀ id, index.tables.kbGetInForce today id = some true →
      ∃ record ∈ index.tables.docs, record.id = some id ∧
        holds (index.tables.inForceFilter today record) = true) ∧
    index.tables.graphExcludedCount today = (index.tables.graphExcludedIds today).length := by
  have distinct := runtime.row_id_nodup_of_build config built
  refine ⟨?_, ?_, ?_⟩
  · intro record member
    obtain ⟨row, inRows, rfl⟩ := List.mem_map.mp member
    refine ⟨row.id, rfl, ?_⟩
    rw [kbGetInForce_eq distinct inRows, Option.some.injEq]
  · intro id flag
    obtain ⟨doc, found, inForce⟩ := Option.map_eq_some_iff.mp flag
    obtain ⟨record, first, rfl⟩ := Option.map_eq_some_iff.mp found
    have member := List.mem_of_find?_eq_some first
    have joined := List.find?_some first
    obtain ⟨row, inRows, rfl⟩ := List.mem_map.mp member
    have same : row.id = id := by
      rw [holds_joins] at joined
      exact of_decide_eq_true joined
    subst same
    refine ⟨row.record, member, rfl, ?_⟩
    rw [kbGetInForce_eq distinct inRows] at flag
    exact Option.some.inj flag
  · rw [Tables.graphExcludedCount, Tables.graphExcludedIds, graphExcludedRows_eq]
    exact countDistinct_map_some _

/-- The loader on a rule and its successor. -/
def successionRuntime : Runtime :=
  Runtime.ofBlocks [
    ("id: new".toList, .dict [(.str (PyStr.lit "id"), .str (PyStr.lit "new")),
      (.str (PyStr.lit "status"), .str (PyStr.lit "active")),
      (.str (PyStr.lit "supersedes"), .str (PyStr.lit "old"))]),
    ("id: old".toList, .dict [(.str (PyStr.lit "id"), .str (PyStr.lit "old")),
      (.str (PyStr.lit "status"), .str (PyStr.lit "active"))])]

/-- The tree of both. -/
def successionTree : Tree :=
  (Tree.write ∅ rulePath "---\nid: new\n---\nb".toList).write
    ⟨["old.md".toList], by decide, by decide⟩ "---\nid: old\n---\nb".toList

/-- Its index. -/
def successionIndex : Index :=
  (successionRuntime.build IndexConfig.default successionTree).toOption.getD ⟨[], [], 0, 0⟩

theorem built_successionIndex :
    successionRuntime.build IndexConfig.default successionTree = .ok successionIndex :=
  rfl

/-- The successor passes and the rule does not. -/
theorem successor_passes_the_filter :
    successionIndex.tables.kbGetInForce "2026-01-01".toList (PyStr.lit "new") = some true ∧
      successionIndex.tables.kbGetInForce "2026-01-01".toList (PyStr.lit "old") = some false ∧
      (∃ record ∈ successionIndex.tables.docs, record.id = some (PyStr.lit "new") ∧
        holds (successionIndex.tables.inForceFilter "2026-01-01".toList record) = true) ∧
      (successionIndex.tables.graphExcludedIds "2026-01-01".toList).length = 1 := by
  obtain ⟨-, passes, counted⟩ := sql_filter_agrees_with_kb_get successionRuntime
    IndexConfig.default successionTree successionIndex built_successionIndex
    "2026-01-01".toList
  have inForce : successionIndex.tables.kbGetInForce "2026-01-01".toList (PyStr.lit "new") =
      some true := by
    decide +kernel
  refine ⟨inForce, by decide +kernel, passes _ inForce, ?_⟩
  rw [← counted]
  decide +kernel

end DataOlympus
