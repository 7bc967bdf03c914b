import DataOlympus.Control.Except
import DataOlympus.Python.Mapping

/-!
# The state of the corpus

What the build of an index finds out about the corpus: the documents without a status, and
those that have expired or are about to.  It is written to a mapping and read back from one.
-/

namespace DataOlympus

open Lines

/-- `int(value)` on values that are no integers; `none` where it raises. -/
structure IntParser where
  ofFloat : BitVec 64 → Option Int
  ofStr : PyStr → Option Int
  ofBytes : List UInt8 → Option Int

/-- `int(value)`. -/
def IntParser.int (parser : IntParser) : Value → Option Int
  | .int n => some n
  | .bool b => some b.toInt
  | .float bits => parser.ofFloat bits
  | .str s => parser.ofStr s
  | .bytes b => parser.ofBytes b
  | _ => none

namespace Value

/-- `list(value)`. -/
def iterate : Value → Option (List Value)
  | .list items => some items
  | .tuple items => some items
  | .set items => some items
  | .dict entries => some (entries.map Prod.fst)
  | .str s => some (s.map fun c => .str [c])
  | .bytes b => some (b.map fun byte => .int byte.toNat)
  | _ => none

/-- The value as one that has `get`. -/
def mapping : Value → Option Mapping
  | .dict entries => some entries
  | _ => none

end Value

/-- A document of an expiry bucket. -/
structure ExpiryItem where
  id : PyStr
  path : PyStr
  validUntil : PyStr
  deriving DecidableEq

structure MaintenanceState where
  statusPresentInAllKbEntries : Bool
  missingStatusPaths : List PyStr
  missingStatusCount : Int
  recentlyExpired : List ExpiryItem
  recentlyExpiredCount : Int
  expiringSoon : List ExpiryItem
  expiringSoonCount : Int
  deriving DecidableEq

def ExpiryItem.toDict (item : ExpiryItem) : Value :=
  .dict (Mapping.ofFields
    [("id", .str item.id), ("path", .str item.path), ("valid_until", .str item.validUntil)])

/-- A list with the count of all that there are. -/
def bucket (key : String) (count : Int) (items : List Value) : Value :=
  .dict (Mapping.ofFields [("count", .int count), (key, .list items)])

namespace MaintenanceState

variable (state : MaintenanceState)

def isDirty : Bool :=
  !state.statusPresentInAllKbEntries || 0 < state.recentlyExpiredCount ||
    0 < state.expiringSoonCount

/-- The fields of `to_dict()`. -/
def fields : List (String × Value) :=
  [("status_present_in_all_kb_entries", .bool state.statusPresentInAllKbEntries),
    ("missing_status",
      bucket "paths" state.missingStatusCount (state.missingStatusPaths.map .str)),
    ("recently_expired",
      bucket "items" state.recentlyExpiredCount (state.recentlyExpired.map ExpiryItem.toDict)),
    ("expiring_soon",
      bucket "items" state.expiringSoonCount (state.expiringSoon.map ExpiryItem.toDict))]

end MaintenanceState

section Reading

variable (runtime : Runtime) (parser : IntParser)

/-- `ExpiryItem.from_dict(…)`, unless it raises. -/
def ExpiryItem.fromDict (value : Value) : Option ExpiryItem := do
  let data ← value.mapping
  let id ← (runtime.str ((data.get "id").getD (.str []))).toOption
  let path ← (runtime.str ((data.get "path").getD (.str []))).toOption
  let validUntil ← (runtime.str ((data.get "valid_until").getD (.str []))).toOption
  return { id, path, validUntil }

/-- `data.get(name) or {}`, with its count and its list. -/
def readBucket {α : Type} (read : Value → Option α) (data : Mapping) (name key : String) :
    Option (Int × List α) := do
  let found := (data.get name).getD .null
  let held ← if found.truthy then found.mapping else some []
  let listed ← ((held.get key).getD (.list [])).iterate
  let items ← listed.mapM read
  let count ← parser.int ((held.get "count").getD (.int 0))
  return (count, items)

/-- `MaintenanceState.from_dict(data)`, unless it raises. -/
def MaintenanceState.fromDict (data : Mapping) : Option MaintenanceState := do
  let missing ← readBucket parser (fun path => (runtime.str path).toOption) data
    "missing_status" "paths"
  let recently ← readBucket parser (ExpiryItem.fromDict runtime) data "recently_expired" "items"
  let soon ← readBucket parser (ExpiryItem.fromDict runtime) data "expiring_soon" "items"
  return {
    statusPresentInAllKbEntries :=
      ((data.get "status_present_in_all_kb_entries").getD (.bool true)).truthy
    missingStatusPaths := missing.2
    missingStatusCount := missing.1
    recentlyExpired := recently.2
    recentlyExpiredCount := recently.1
    expiringSoon := soon.2
    expiringSoonCount := soon.1 }

end Reading

section RoundTrip

variable {runtime : Runtime} {parser : IntParser}

theorem toOption_str (s : PyStr) : (runtime.str (.str s)).toOption = some s :=
  rfl

theorem ExpiryItem.fromDict_toDict (item : ExpiryItem) :
    ExpiryItem.fromDict runtime item.toDict = some item := by
  simp [fromDict, toDict, Value.mapping, toOption_str, List.lookup_cons]

/-- A bucket whose items are read back is read back. -/
theorem readBucket_bucket {α : Type} {read : Value → Option α} {write : α → Value}
    (readBack : ∀ item, read (write item) = some item) {data : Mapping} {name key : String}
    {count : Int} {items : List α} (different : key ≠ "count")
    (found : data.get name = some (bucket key count (items.map write))) :
    readBucket parser read data name key = some (count, items) := by
  have listed : (items.map write).mapM read = some items := by
    clear found
    induction items with
    | nil => rfl
    | cons item rest ih =>
        rw [List.map_cons, List.mapM_cons, readBack, ih]
        rfl
  have held : (bucket key count (items.map write)).truthy = true := rfl
  have fields : (bucket key count (items.map write)).mapping = some (Mapping.ofFields
      [("count", .int count), (key, .list (items.map write))]) := rfl
  have isKey : (key == "count") = false := beq_eq_false_iff_ne.mpr different
  simp only [readBucket, found, Option.getD_some, held, if_true, fields, Option.bind_eq_bind,
    Option.bind_some, Mapping.get_ofFields, List.lookup_cons, isKey, beq_self_eq_true,
    Value.iterate, listed, IntParser.int]
  rfl

/-- A mapping with the fields of a state is read back as that state. -/
theorem MaintenanceState.fromDict_fields (state : MaintenanceState) (first : String × Value)
    (other : first.1 = "computed_at") :
    MaintenanceState.fromDict runtime parser (Mapping.ofFields (first :: state.fields)) =
      some state := by
  have found : ∀ key, key ≠ "computed_at" →
      (Mapping.ofFields (first :: state.fields)).get key = state.fields.lookup key := by
    intro key different
    rw [Mapping.get_ofFields, List.lookup_cons, other, beq_eq_false_iff_ne.mpr different]
  have missing := @readBucket_bucket parser _ (fun path => (runtime.str path).toOption) .str
    toOption_str _ "missing_status" "paths" state.missingStatusCount state.missingStatusPaths
    (by decide) (found "missing_status" (by decide))
  have recently := @readBucket_bucket parser _ (ExpiryItem.fromDict runtime) ExpiryItem.toDict
    ExpiryItem.fromDict_toDict _ "recently_expired" "items" state.recentlyExpiredCount
    state.recentlyExpired (by decide) (found "recently_expired" (by decide))
  have soon := @readBucket_bucket parser _ (ExpiryItem.fromDict runtime) ExpiryItem.toDict
    ExpiryItem.fromDict_toDict _ "expiring_soon" "items" state.expiringSoonCount
    state.expiringSoon (by decide) (found "expiring_soon" (by decide))
  have present := found "status_present_in_all_kb_entries" (by decide)
  simp only [fromDict, missing, recently, soon, present, Option.bind_eq_bind, Option.bind_some]
  rfl

end RoundTrip

end DataOlympus
