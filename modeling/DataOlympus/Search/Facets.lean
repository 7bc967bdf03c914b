import DataOlympus.Gate.GovernedLane

/-!
# Facet filters

Every pass of a search restricts the rows of the index by the same fragments of SQL.
They spell the in-force predicate out over the columns, where the response layer calls
`is_in_force`; `sqlInForce_eq` and `excludedIds_eq` say that both are one predicate.
-/

namespace DataOlympus

open Lines

namespace DocRow

/-- `docs.status IN (…)`, `in_force_sql_fragment()` and `not_inbox_sql_fragment()` on one
row.  A missing date is `NULL`. -/
def sqlInForce (row : DocRow) (today : Date) : Bool :=
  decide (row.status ∈ inForceStatuses) &&
    (row.validFrom.all (· ≤ today) && row.validUntil.all (today ≤ ·)) && !row.isInbox

theorem sqlInForce_eq (row : DocRow) (today : Date) :
    row.sqlInForce today = row.inForce today := by
  have starts : row.validFrom.all (· ≤ today) = !isUpcoming row.validFrom today := by
    cases row.validFrom with
    | none => rfl
    | some day => simp [isUpcoming, ← not_lt]
  have lasts : row.validUntil.all (today ≤ ·) = !isExpired row.validUntil today := by
    cases row.validUntil with
    | none => rfl
    | some day => simp [isExpired, ← not_lt]
  unfold sqlInForce inForce isInForce inWindow
  rw [starts, lasts]
  cases row.isInbox with
  | true => simp
  | false =>
      by_cases inClass : row.status ∈ inForceStatuses
      · simp [inClass, Bool.and_comm]
      · simp [inClass]

/-- `not_expired_sql_fragment()`. -/
def notExpired (row : DocRow) (today : Date) : Bool :=
  row.validUntil.all (today ≤ ·)

end DocRow

namespace Index

/-- `graph_excluded_ids_sql(…)`: the targets of `supersedes` edges from rows in force,
both ends being indexed. -/
def excludedIds (index : Index) (today : Date) : List PyStr :=
  (index.edges.filter fun edge =>
    edge.relation = .supersedes &&
      index.rows.any (fun row => row.id = edge.source && row.sqlInForce today) &&
      index.rows.any fun row => row.id = edge.target).map Edge.target

theorem mem_excludedIds_iff (index : Index) (today : Date) (id : PyStr) :
    id ∈ index.excludedIds today ↔ index.graphExcluded today id = true := by
  simp only [excludedIds, graphExcluded, List.mem_map, List.mem_filter, List.any_eq_true,
    Bool.and_eq_true, decide_eq_true_eq, DocRow.sqlInForce_eq]
  constructor
  · rintro ⟨edge, ⟨member, ⟨kind, source⟩, target⟩, rfl⟩
    exact ⟨edge, member, ⟨⟨kind, rfl⟩, source⟩, target⟩
  · rintro ⟨edge, member, ⟨⟨kind, rfl⟩, source⟩, target⟩
    exact ⟨edge, ⟨member, ⟨kind, source⟩, target⟩, rfl⟩

end Index

/-- What a caller may restrict a search to. -/
structure Facets where
  tier : Option PyStr
  category : Option PyStr
  status : Option PyStr
  inForce : Bool
  docType : Option PyStr
  includeExpired : Bool
  validityState : Option Text

/-- A search without facets. -/
def Facets.default : Facets where
  tier := none
  category := none
  status := none
  inForce := false
  docType := none
  includeExpired := false
  validityState := none

inductive ValidityState where
  | expired
  | stale
  | expiringWithin (days : Nat)

/-- Why a search raises. -/
inductive SearchError where
  | unknownValidityState (value : Text)
  /-- The day `expiring_within:N` counts to is out of range. -/
  | dateOverflow
  deriving DecidableEq

/-- The parts of the Python library the filters call. -/
structure Calendar where
  /-- `int(text)`. -/
  intOf : Text → Option Int
  /-- `date + timedelta(days=n)`. -/
  addDays : Date → Nat → Option Date

namespace Calendar

variable (calendar : Calendar)

/-- `_parse_validity_state(value)`. -/
def parseValidityState (value : Text) : Except SearchError ValidityState :=
  if ':' ∈ value then
    if value.takeWhile (· ≠ ':') ≠ "expiring_within".toList then
      .error (.unknownValidityState value)
    else
      match calendar.intOf ((value.dropWhile (· ≠ ':')).drop 1) with
      | none => .error (.unknownValidityState value)
      | some days =>
          if days < 0 then .error (.unknownValidityState value)
          else .ok (.expiringWithin days.toNat)
  else if value = "expired".toList then .ok .expired
  else if value = "stale".toList then .ok .stale
  else if value = "expiring_within".toList then .ok (.expiringWithin 0)
  else .error (.unknownValidityState value)

/-- The validity facet, or the default exclusion of expired rows. -/
def validityFilter (facets : Facets) (today : Date) : Except SearchError (DocRow → Bool) :=
  match facets.validityState.filter (· ≠ []) with
  | some value => do
      match ← calendar.parseValidityState value with
      | .expired => return fun row => row.validUntil.any (· < today)
      | .stale => return fun row => row.recheckBy.any (· < today)
      | .expiringWithin days =>
          match calendar.addDays today days with
          | none => .error .dateOverflow
          | some cutoff =>
              return fun row => row.validUntil.any fun day => today ≤ day && day ≤ cutoff
  | none =>
      .ok (if facets.includeExpired then fun _ => true else fun row => row.notExpired today)

/-- `if value:` followed by `docs.column = ?`. -/
def matchesFacet (wanted : Option PyStr) (column : PyStr) : Bool :=
  wanted.all fun value => value.isEmpty || column = value

/-- `_facet_filters(…)` as a predicate on the rows of the index. -/
def facetFilters (index : Index) (facets : Facets) (today : Date) :
    Except SearchError (DocRow → Bool) :=
  (calendar.validityFilter facets today).map fun validity row =>
    matchesFacet facets.tier row.tier && matchesFacet facets.category row.category &&
      matchesFacet facets.status row.status &&
      (!facets.inForce || row.sqlInForce today && row.id ∉ index.excludedIds today) &&
      matchesFacet facets.docType row.docType && validity row

/-- With `in_force` requested the filters let only rows in force pass. -/
theorem inForce_of_facetFilters {index : Index} {facets : Facets} {today : Date}
    {admits : DocRow → Bool} (filters : calendar.facetFilters index facets today = .ok admits)
    (requested : facets.inForce = true) {row : DocRow} (admitted : admits row = true) :
    index.inForce today row = true := by
  rcases Except.map_eq_ok_iff.mp filters with ⟨validity, -, rfl⟩
  simp only [requested, Bool.not_true, Bool.false_or, Bool.and_eq_true, decide_eq_true_eq,
    Index.mem_excludedIds_iff, DocRow.sqlInForce_eq, Bool.not_eq_true] at admitted
  rcases admitted with ⟨⟨⟨-, inForce, notExcluded⟩, -⟩, -⟩
  rw [Index.inForce, notExcluded, inForce]
  rfl

end Calendar

end DataOlympus
