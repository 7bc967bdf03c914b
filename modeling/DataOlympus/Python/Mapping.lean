import DataOlympus.Python.Value

/-!
# Assignment to a mapping

`mapping[key] = value` for a text key, and what a lookup finds afterwards.
-/

namespace DataOlympus

open Lines

theorem PyStr.lit_injective : Function.Injective PyStr.lit := by
  intro first second same
  exact String.toList_injective (PyStr.ofText_injective same)

theorem Value.isStr_iff {value : Value} {s : PyStr} :
    value.isStr s = true ↔ value = .str s := by
  cases value <;> simp [isStr]

/-- A value is no two strings. -/
theorem Value.isStr_eq_false {value : Value} {s t : PyStr} (here : value.isStr s = true)
    (different : t ≠ s) : value.isStr t = false := by
  rw [Value.isStr_iff.mp here]
  simpa [isStr] using different.symm

namespace Mapping

/-- `mapping[key] = value`. -/
def set (entries : Mapping) (key : String) (value : Value) : Mapping :=
  if entries.any fun entry => entry.1.isStr (PyStr.lit key) then
    entries.map fun entry =>
      if entry.1.isStr (PyStr.lit key) then (entry.1, value) else entry
  else entries ++ [(.str (PyStr.lit key), value)]

/-- The mapping without a key. -/
def without (entries : Mapping) (key : String) : Mapping :=
  entries.filter fun entry => !entry.1.isStr (PyStr.lit key)

theorem get_cons (entry : Value × Value) (entries : Mapping) (key : String) :
    get (entry :: entries) key =
      if entry.1.isStr (PyStr.lit key) then some entry.2 else get entries key := by
  unfold get
  rw [List.find?_cons]
  cases entry.1.isStr (PyStr.lit key) <;> rfl

/-- A mapping with text keys. -/
def ofFields (fields : List (String × Value)) : Mapping :=
  fields.map fun field => (.str (PyStr.lit field.1), field.2)

/-- A lookup by a text key. -/
@[simp]
theorem get_ofFields (fields : List (String × Value)) (key : String) :
    (ofFields fields).get key = fields.lookup key := by
  induction fields with
  | nil => rfl
  | cons field rest ih =>
      rw [ofFields, List.map_cons, get_cons, ← ofFields, ih, List.lookup_cons]
      by_cases same : key = field.1
      · subst key
        rw [if_pos (Value.isStr_iff.mpr rfl), beq_self_eq_true]
      · have different : PyStr.lit field.1 ≠ PyStr.lit key := by
          intro equal
          exact same (PyStr.lit_injective equal).symm
        rw [if_neg (by simpa [Value.isStr] using different), beq_eq_false_iff_ne.mpr same]

theorem get_append_of_absent {entries : Mapping} {key : String}
    (absent : (entries.any fun entry => entry.1.isStr (PyStr.lit key)) = false)
    (more : Mapping) : get (entries ++ more) key = get more key := by
  induction entries with
  | nil => rfl
  | cons entry rest ih =>
      rw [List.any_cons, Bool.or_eq_false_iff] at absent
      rw [List.cons_append, get_cons, absent.1]
      exact ih absent.2

theorem get_append_of_get_nil {entries more : Mapping} {key : String}
    (nothing : get more key = none) : get (entries ++ more) key = get entries key := by
  induction entries with
  | nil => exact nothing
  | cons entry rest ih => rw [List.cons_append, get_cons, get_cons, ih]

@[simp]
theorem get_set (entries : Mapping) (key : String) (value : Value) :
    (entries.set key value).get key = some value := by
  unfold set
  split
  · rename_i present
    induction entries with
    | nil => cases present
    | cons entry rest ih =>
        rw [List.map_cons, get_cons]
        by_cases here : entry.1.isStr (PyStr.lit key) = true
        · simp [here]
        · rw [List.any_cons, Bool.or_eq_true] at present
          simpa [here] using ih (present.resolve_left here)
  · rename_i absent
    rw [get_append_of_absent (Bool.eq_false_iff.mpr absent), get_cons, if_pos]
    exact Value.isStr_iff.mpr rfl

theorem get_set_of_ne {key other : String} (different : PyStr.lit other ≠ PyStr.lit key)
    (entries : Mapping) (value : Value) :
    (entries.set key value).get other = entries.get other := by
  unfold set
  split
  · clear * - different
    induction entries with
    | nil => rfl
    | cons entry rest ih =>
        rw [List.map_cons, get_cons, get_cons, ih]
        by_cases here : entry.1.isStr (PyStr.lit key) = true
        · simp [here, Value.isStr_eq_false here different]
        · simp [here]
  · apply get_append_of_get_nil
    rw [get_cons, Value.isStr_eq_false (Value.isStr_iff.mpr rfl) different]
    rfl

theorem set_of_present {entries : Mapping} {key : String}
    (present : (entries.any fun entry => entry.1.isStr (PyStr.lit key)) = true) (value : Value) :
    set entries key value = entries.map fun entry =>
      if entry.1.isStr (PyStr.lit key) then (entry.1, value) else entry := by
  rw [Mapping.set, if_pos present]

theorem set_of_absent {entries : Mapping} {key : String}
    (absent : (entries.any fun entry => entry.1.isStr (PyStr.lit key)) = false) (value : Value) :
    set entries key value = entries ++ [(.str (PyStr.lit key), value)] := by
  rw [Mapping.set, absent, if_neg Bool.false_ne_true]

theorem any_set (entries : Mapping) (key : String) (value : Value) :
    ((set entries key value).any fun entry => entry.1.isStr (PyStr.lit key)) = true := by
  cases found : entries.any fun entry => entry.1.isStr (PyStr.lit key) with
  | true =>
      rw [set_of_present found, List.any_map, ← found]
      congr 1
      funext entry
      rw [Function.comp_apply]
      split
      · rfl
      · rfl
  | false =>
      rw [set_of_absent found, List.any_append, List.any_cons, Value.isStr_iff.mpr rfl,
        Bool.true_or, Bool.or_true]

/-- The later assignment counts. -/
theorem set_set (entries : Mapping) (key : String) (first second : Value) :
    (entries.set key first).set key second = entries.set key second := by
  rw [set_of_present (any_set entries key first)]
  cases found : entries.any fun entry => entry.1.isStr (PyStr.lit key) with
  | true =>
      rw [set_of_present found, set_of_present found, List.map_map]
      apply List.map_congr_left
      intro entry _
      by_cases here : entry.1.isStr (PyStr.lit key) = true
      · simp only [Function.comp_apply, here, if_true]
      · simp only [Function.comp_apply, here, Bool.false_eq_true, if_false]
  | false =>
      have kept : (entries.map fun entry =>
          if entry.1.isStr (PyStr.lit key) then (entry.1, second) else entry) = entries := by
        rw [List.map_congr_left (g := id), List.map_id]
        intro entry member
        rw [List.any_eq_false] at found
        rw [if_neg (found entry member)]
        rfl
      rw [set_of_absent found, set_of_absent found, List.map_append, kept, List.map_singleton,
        if_pos (Value.isStr_iff.mpr rfl)]

theorem without_set (entries : Mapping) (key : String) (value : Value) :
    (entries.set key value).without key = entries.without key := by
  unfold set without
  split
  · clear * -
    induction entries with
    | nil => rfl
    | cons entry rest ih =>
        rw [List.map_cons, List.filter_cons, List.filter_cons, ih]
        by_cases here : entry.1.isStr (PyStr.lit key) = true <;> simp [here]
  · rw [List.filter_append]
    simp [Value.isStr]

@[simp]
theorem get_without (entries : Mapping) (key : String) :
    (entries.without key).get key = none := by
  unfold without
  induction entries with
  | nil => rfl
  | cons entry rest ih =>
      rw [List.filter_cons]
      by_cases here : entry.1.isStr (PyStr.lit key) = true
      · simpa [here] using ih
      · simpa [here, get_cons] using ih

theorem get_without_of_ne {key other : String} (different : PyStr.lit other ≠ PyStr.lit key)
    (entries : Mapping) : (entries.without key).get other = entries.get other := by
  unfold without
  induction entries with
  | nil => rfl
  | cons entry rest ih =>
      rw [List.filter_cons, get_cons]
      by_cases here : entry.1.isStr (PyStr.lit key) = true
      · simp [here, Value.isStr_eq_false here different, ih]
      · simp [here, get_cons, ih]

end Mapping

end DataOlympus
