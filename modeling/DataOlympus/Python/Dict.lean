import Mathlib.Data.List.Nodup
import Mathlib.Data.List.Sort

/-!
# Insertion-ordered dictionaries

A list of items without repeated keys.  Assignment replaces an item in its place or
appends it, and every operation is described by the items it leaves.
-/

namespace DataOlympus.Python

universe u v w

/-- A `dict`. -/
structure Dict (α : Type u) (β : Type v) where
  items : List (α × β)
  once : (items.map Prod.fst).Nodup

namespace Dict

variable {α : Type u} {β : Type v}

@[ext]
theorem ext {first second : Dict α β} (same : first.items = second.items) : first = second := by
  cases first
  cases second
  cases same
  rfl

/-- `{}`. -/
def empty : Dict α β :=
  ⟨[], List.nodup_nil⟩

/-- `{k: v for k, v in d.items() if keep(k, v)}`. -/
def filter (keep : α → β → Bool) (dict : Dict α β) : Dict α β where
  items := dict.items.filter fun item => keep item.1 item.2
  once := dict.once.sublist (List.filter_sublist.map Prod.fst)

/-- `{k: f(v) for k, v in d.items()}`. -/
def mapValues {γ : Type w} (f : β → γ) (dict : Dict α β) : Dict α γ where
  items := dict.items.map fun item => (item.1, f item.2)
  once := by
    rw [List.map_map]
    exact dict.once

/-- `dict(sorted(d.items(), key=…)[:count])`. -/
def sortTake (before : α × β → α × β → Prop) [DecidableRel before] (count : Nat)
    (dict : Dict α β) : Dict α β where
  items := (dict.items.insertionSort before).take count
  once := by
    have sorted : ((dict.items.insertionSort before).map Prod.fst).Nodup :=
      ((List.perm_insertionSort before dict.items).map Prod.fst).nodup_iff.mpr dict.once
    exact sorted.sublist ((List.take_sublist _ _).map Prod.fst)

variable {dict : Dict α β} {key other : α} {value found : β}

/-- A dictionary has one value for a key. -/
theorem value_eq (first : (key, value) ∈ dict.items) (second : (key, found) ∈ dict.items) :
    value = found :=
  congrArg Prod.snd (List.inj_on_of_nodup_map dict.once first second rfl)

theorem mem_filter {keep : α → β → Bool} {item : α × β} :
    item ∈ (dict.filter keep).items ↔ item ∈ dict.items ∧ keep item.1 item.2 = true :=
  List.mem_filter

theorem mem_mapValues {γ : Type w} {f : β → γ} {item : α × γ} :
    item ∈ (dict.mapValues f).items ↔ ∃ held, (item.1, held) ∈ dict.items ∧ item.2 = f held := by
  unfold mapValues
  rw [List.mem_map]
  constructor
  · rintro ⟨⟨first, held⟩, member, rfl⟩
    exact ⟨held, member, rfl⟩
  · rintro ⟨held, member, made⟩
    exact ⟨(item.1, held), member, Prod.ext rfl made.symm⟩

theorem mem_of_mem_sortTake {before : α × β → α × β → Prop} [DecidableRel before] {count : Nat}
    {item : α × β} (member : item ∈ (dict.sortTake before count).items) : item ∈ dict.items :=
  (List.perm_insertionSort before dict.items).mem_iff.mp (List.mem_of_mem_take member)

/-- An item that few others come before is among the first of an ordered list. -/
theorem mem_take_of_few {before : α × β → α × β → Prop} [DecidableRel before] [DecidableEq α]
    {sorted : List (α × β)} {count : Nat} {item : α × β} (ordered : sorted.Pairwise before)
    (once : (sorted.map Prod.fst).Nodup) (member : item ∈ sorted)
    (few : (sorted.filter fun other => other.1 ≠ item.1 ∧ before other item).length < count) :
    item ∈ sorted.take count := by
  obtain ⟨earlier, later, rfl⟩ := List.append_of_mem member
  have all_before : ∀ other ∈ earlier, decide (other.1 ≠ item.1 ∧ before other item) = true := by
    intro other here
    rw [List.map_append, List.map_cons, List.nodup_append] at once
    have different := once.2.2 _ (List.mem_map_of_mem here) _ List.mem_cons_self
    have first := (List.pairwise_append.mp ordered).2.2 other here item List.mem_cons_self
    exact decide_eq_true ⟨different, first⟩
  have short : earlier.length < count := by
    apply lt_of_le_of_lt _ few
    rw [List.filter_append, List.filter_eq_self.mpr all_before, List.length_append]
    exact Nat.le_add_right _ _
  obtain ⟨rest, rfl⟩ := Nat.exists_eq_add_of_lt short
  rw [Nat.add_assoc, List.take_length_add_append]
  exact List.mem_append_right _ List.mem_cons_self

/-- An item stays among the first when few others come before it. -/
theorem mem_sortTake {before : α × β → α × β → Prop} [DecidableRel before] [DecidableEq α]
    {count : Nat} {item : α × β} (total : ∀ first second, before first second ∨ before second first)
    (trans : ∀ first second third, before first second → before second third →
      before first third) (member : item ∈ dict.items)
    (few : (dict.items.filter fun other => other.1 ≠ item.1 ∧ before other item).length < count) :
    item ∈ (dict.sortTake before count).items := by
  have : Std.Total before := ⟨total⟩
  have : IsTrans (α × β) before := ⟨trans⟩
  have permuted := List.perm_insertionSort before dict.items
  apply mem_take_of_few (List.pairwise_insertionSort before dict.items)
  · exact (permuted.map Prod.fst).nodup_iff.mpr dict.once
  · exact permuted.mem_iff.mpr member
  · rw [(permuted.filter _).length_eq]
    exact few

variable [DecidableEq α]

/-- `d.get(key)`. -/
def get (dict : Dict α β) (key : α) : Option β :=
  dict.items.lookup key

/-- `d[key] = value`. -/
def set (dict : Dict α β) (key : α) (value : β) : Dict α β where
  items :=
    if key ∈ dict.items.map Prod.fst then
      dict.items.map fun item => if item.1 = key then (key, value) else item
    else dict.items ++ [(key, value)]
  once := by
    split
    · rw [List.map_map]
      convert dict.once using 1
      apply List.map_congr_left
      intro item _
      simp only [Function.comp_apply]
      split
      · rename_i here
        exact here.symm
      · rfl
    · rename_i absent
      rw [List.map_append]
      apply dict.once.append (List.nodup_singleton key)
      intro other present last
      cases List.mem_singleton.mp last
      exact absent present

/-- `d.pop(key, None)`. -/
def erase (dict : Dict α β) (key : α) : Dict α β :=
  dict.filter fun other _ => other ≠ key

/-- `d.update(dict.fromkeys(keys, value))`. -/
def setAll (dict : Dict α β) (keys : List α) (value : β) : Dict α β :=
  keys.foldl (fun current key => current.set key value) dict

theorem get_eq_some_iff : dict.get key = some value ↔ (key, value) ∈ dict.items := by
  obtain ⟨items, once⟩ := dict
  unfold get
  induction items with
  | nil => simp
  | cons item rest ih =>
      obtain ⟨first, held⟩ := item
      rw [List.map_cons, List.nodup_cons] at once
      rw [List.lookup_cons]
      by_cases same : key = first
      · subst first
        simp only [beq_self_eq_true, Option.some.injEq, List.mem_cons, Prod.mk.injEq, true_and]
        constructor
        · intro held_eq
          exact .inl held_eq.symm
        · rintro (value_eq | later)
          · exact value_eq.symm
          · exact absurd (List.mem_map_of_mem later) once.1
      · rw [beq_eq_false_iff_ne.mpr same]
        simp only [List.mem_cons, Prod.mk.injEq, same, false_and, false_or]
        exact ih once.2

theorem mem_set : (other, found) ∈ (dict.set key value).items ↔
    other = key ∧ found = value ∨ other ≠ key ∧ (other, found) ∈ dict.items := by
  unfold set
  simp only
  split
  · rename_i present
    rw [List.mem_map]
    constructor
    · rintro ⟨⟨first, held⟩, member, made⟩
      by_cases same : first = key
      · rw [if_pos same] at made
        cases made
        exact .inl ⟨rfl, rfl⟩
      · rw [if_neg same] at made
        cases made
        exact .inr ⟨same, member⟩
    · rintro (⟨rfl, rfl⟩ | ⟨different, member⟩)
      · obtain ⟨⟨_, held⟩, member, rfl⟩ := List.mem_map.mp present
        exact ⟨_, member, if_pos rfl⟩
      · exact ⟨_, member, if_neg different⟩
  · rename_i absent
    rw [List.mem_append, List.mem_singleton, Prod.mk.injEq]
    constructor
    · rintro (before | here)
      · refine .inr ⟨?_, before⟩
        rintro rfl
        exact absent (List.mem_map_of_mem before)
      · exact .inl here
    · rintro (here | ⟨-, before⟩)
      · exact .inr here
      · exact .inl before

theorem mem_setAll {keys : List α} : (other, found) ∈ (dict.setAll keys value).items ↔
    other ∈ keys ∧ found = value ∨ other ∉ keys ∧ (other, found) ∈ dict.items := by
  unfold setAll
  induction keys generalizing dict with
  | nil => simp
  | cons first rest ih =>
      rw [List.foldl_cons, ih, mem_set, List.mem_cons]
      by_cases here : other = first
      · subst here
        by_cases later : other ∈ rest <;> simp [later]
      · simp [here]

@[simp]
theorem get_set (dict : Dict α β) (key : α) (value : β) :
    (dict.set key value).get key = some value :=
  get_eq_some_iff.mpr (mem_set.mpr (.inl ⟨rfl, rfl⟩))

theorem get_set_of_ne (dict : Dict α β) (value : β) (different : other ≠ key) :
    (dict.set key value).get other = dict.get other := by
  apply Option.ext
  intro found
  rw [get_eq_some_iff, get_eq_some_iff, mem_set]
  simp [different]

@[simp]
theorem get_erase (dict : Dict α β) (key : α) : (dict.erase key).get key = none := by
  apply Option.eq_none_iff_forall_not_mem.mpr
  intro found member
  have kept := (mem_filter.mp (get_eq_some_iff.mp member)).2
  simp at kept

theorem get_erase_of_ne (dict : Dict α β) (different : other ≠ key) :
    (dict.erase key).get other = dict.get other := by
  apply Option.ext
  intro found
  rw [get_eq_some_iff, get_eq_some_iff, erase, mem_filter]
  simp [different]

theorem get_mapValues {γ : Type w} (f : β → γ) (dict : Dict α β) (key : α) :
    (dict.mapValues f).get key = (dict.get key).map f := by
  apply Option.ext
  intro found
  rw [get_eq_some_iff, mem_mapValues, Option.map_eq_some_iff]
  simp only [get_eq_some_iff, @eq_comm _ found]

/-- Assigning the items of a dictionary in their order restores it. -/
theorem foldl_set_items (dict : Dict α β) :
    dict.items.foldl (fun current item => current.set item.1 item.2) empty = dict := by
  have grows : ∀ (items : List (α × β)) (current : Dict α β),
      ((current.items ++ items).map Prod.fst).Nodup →
        (items.foldl (fun current item => current.set item.1 item.2) current).items =
          current.items ++ items := by
    intro items
    induction items with
    | nil => simp
    | cons item rest ih =>
        intro current once
        have absent : item.1 ∉ current.items.map Prod.fst := by
          intro present
          rw [List.map_append, List.nodup_append] at once
          exact once.2.2 _ present _ (by simp) rfl
        have appended : (current.set item.1 item.2).items = current.items ++ [item] :=
          if_neg absent
        rw [List.foldl_cons, ih, appended]
        · simp
        · rw [appended]
          simpa using once
  apply ext
  rw [grows dict.items empty dict.once]
  rfl

end Dict

end DataOlympus.Python
