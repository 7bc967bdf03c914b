import DataOlympus.Python.Dict
import Mathlib.Algebra.Ring.Nat
import Mathlib.Data.List.Dedup

/-!
# Tallies in batches

A tally counts keys in memory.  It may be written out and cleared at any time, and the
written counts are added up again at the end.
-/

namespace DataOlympus.Select

open Python

universe u v w

/-- Counts in memory, and the rows written out, once there are some. -/
structure Tally (κ : Type u) where
  counts : Dict κ Nat
  rows : Option (List (κ × Nat))

variable {κ : Type u} [DecidableEq κ]

/-- The sum of the rows of a key. -/
def rowSum (rows : List (κ × Nat)) (key : κ) : Nat :=
  ((rows.filter fun row => row.1 = key).map Prod.snd).sum

/-- The sums by key. -/
def groups (rows : List (κ × Nat)) : List (κ × Nat) :=
  (rows.map Prod.fst).dedup.map fun key => (key, rowSum rows key)

namespace Tally

/-- Nothing was counted. -/
def empty : Tally κ :=
  ⟨.empty, none⟩

/-- One more of a key. -/
def add (tally : Tally κ) (key : κ) : Tally κ :=
  { tally with counts := tally.counts.set key ((tally.counts.get key).getD 0 + 1) }

/-- The counts are written out and cleared. -/
def flush (tally : Tally κ) : Tally κ :=
  ⟨.empty, some (tally.rows.getD [] ++ tally.counts.items)⟩

/-- A tally that has grown to its ceiling is flushed. -/
def checkpoint (maxEntries : Int) (tally : Tally κ) : Tally κ :=
  if 0 < maxEntries ∧ maxEntries ≤ tally.counts.items.length then tally.flush else tally

/-- The keys that were counted often enough, with their counts. -/
def items (minCount : Int) (tally : Tally κ) : List (κ × Nat) :=
  match tally.rows with
  | none => tally.counts.items.filter fun item => minCount ≤ item.2
  | some rows =>
      let written := if tally.counts.items.isEmpty then rows else rows ++ tally.counts.items
      (groups written).filter fun item => minCount ≤ item.2

/-- How often a key was counted. -/
def total (tally : Tally κ) (key : κ) : Nat :=
  rowSum (tally.rows.getD []) key + rowSum tally.counts.items key

end Tally

theorem rowSum_append (first second : List (κ × Nat)) (key : κ) :
    rowSum (first ++ second) key = rowSum first key + rowSum second key := by
  unfold rowSum
  rw [List.filter_append, List.map_append, List.sum_append]

theorem rowSum_cons (row : κ × Nat) (rows : List (κ × Nat)) (key : κ) :
    rowSum (row :: rows) key = (if row.1 = key then row.2 else 0) + rowSum rows key := by
  unfold rowSum
  rw [List.filter_cons]
  by_cases here : row.1 = key
  · simp [here]
  · simp [here]

theorem rowSum_eq_zero_of_absent {rows : List (κ × Nat)} {key : κ}
    (absent : key ∉ rows.map Prod.fst) : rowSum rows key = 0 := by
  have none : (rows.filter fun row => row.1 = key) = [] := by
    rw [List.filter_eq_nil_iff]
    intro row member same
    exact absent (List.mem_map.mpr ⟨row, member, of_decide_eq_true same⟩)
  rw [rowSum, none]
  rfl

/-- A key that occurs with positive counts has a positive sum. -/
theorem rowSum_pos_iff {rows : List (κ × Nat)} (positive : ∀ row ∈ rows, 0 < row.2) {key : κ} :
    0 < rowSum rows key ↔ key ∈ rows.map Prod.fst := by
  constructor
  · intro counted
    by_contra absent
    rw [rowSum_eq_zero_of_absent absent] at counted
    exact lt_irrefl 0 counted
  · intro present
    obtain ⟨row, member, rfl⟩ := List.mem_map.mp present
    have counted := positive row member
    obtain ⟨before, after, rfl⟩ := List.append_of_mem member
    rw [rowSum_append, rowSum_cons, if_pos rfl]
    omega

/-- A dictionary has one row for a key. -/
theorem rowSum_items (dict : Dict κ Nat) (key : κ) :
    rowSum dict.items key = (dict.get key).getD 0 := by
  obtain ⟨items, once⟩ := dict
  unfold Dict.get
  induction items with
  | nil => rfl
  | cons item rest ih =>
      rw [List.map_cons, List.nodup_cons] at once
      rw [rowSum_cons, List.lookup_cons]
      by_cases here : item.1 = key
      · subst here
        rw [if_pos rfl, rowSum_eq_zero_of_absent once.1]
        simp
      · rw [if_neg here, beq_eq_false_iff_ne.mpr (Ne.symm here), Nat.zero_add]
        exact ih once.2

theorem mem_groups {rows : List (κ × Nat)} {key : κ} {count : Nat} :
    (key, count) ∈ groups rows ↔ key ∈ rows.map Prod.fst ∧ count = rowSum rows key := by
  unfold groups
  rw [List.mem_map]
  constructor
  · rintro ⟨other, member, made⟩
    cases made
    exact ⟨List.mem_dedup.mp member, rfl⟩
  · rintro ⟨member, rfl⟩
    exact ⟨key, List.mem_dedup.mpr member, rfl⟩

theorem nodup_groups (rows : List (κ × Nat)) : ((groups rows).map Prod.fst).Nodup := by
  have keys : (groups rows).map Prod.fst = (rows.map Prod.fst).dedup := by
    unfold groups
    rw [List.map_map]
    exact List.map_id _
  rw [keys]
  exact List.nodup_dedup _

namespace Tally

variable {tally : Tally κ}

/-- Every count is of something that was counted. -/
def Positive (tally : Tally κ) : Prop :=
  ∀ row ∈ tally.rows.getD [] ++ tally.counts.items, 0 < row.2

omit [DecidableEq κ] in
theorem positive_empty : (empty : Tally κ).Positive := by
  intro row member
  cases member

theorem total_empty (key : κ) : (empty : Tally κ).total key = 0 :=
  rfl

theorem total_add (tally : Tally κ) (key other : κ) :
    (tally.add key).total other = tally.total other + if other = key then 1 else 0 := by
  unfold total add
  simp only [rowSum_items]
  by_cases same : other = key
  · subst same
    rw [Dict.get_set, if_pos rfl, Option.getD_some, Nat.add_assoc]
  · rw [Dict.get_set_of_ne _ _ same, if_neg same, Nat.add_zero]

theorem positive_add (positive : tally.Positive) (key : κ) : (tally.add key).Positive := by
  rintro ⟨other, count⟩ member
  rcases List.mem_append.mp member with written | counted
  · exact positive _ (List.mem_append_left _ written)
  · rcases Dict.mem_set.mp counted with ⟨-, rfl⟩ | ⟨-, before⟩
    · exact Nat.succ_pos _
    · exact positive _ (List.mem_append_right _ before)

theorem total_flush (tally : Tally κ) (key : κ) : tally.flush.total key = tally.total key := by
  unfold total flush
  rw [Option.getD_some, rowSum_append]
  rfl

omit [DecidableEq κ] in
theorem positive_flush (positive : tally.Positive) : tally.flush.Positive := by
  intro row member
  rw [flush, Option.getD_some] at member
  rcases List.mem_append.mp member with written | counted
  · exact positive row written
  · cases counted

/-- A checkpoint changes no total. -/
theorem total_checkpoint (maxEntries : Int) (tally : Tally κ) (key : κ) :
    (tally.checkpoint maxEntries).total key = tally.total key := by
  unfold checkpoint
  by_cases full : 0 < maxEntries ∧ maxEntries ≤ tally.counts.items.length
  · rw [if_pos full]
    exact total_flush tally key
  · rw [if_neg full]

omit [DecidableEq κ] in
theorem positive_checkpoint (maxEntries : Int) (positive : tally.Positive) :
    (tally.checkpoint maxEntries).Positive := by
  unfold checkpoint
  by_cases full : 0 < maxEntries ∧ maxEntries ≤ tally.counts.items.length
  · rw [if_pos full]
    exact positive_flush positive
  · rw [if_neg full]
    exact positive

omit [DecidableEq κ] in
/-- The rows that are grouped at the end. -/
theorem written_eq (tally : Tally κ) (rows : List (κ × Nat)) :
    (if tally.counts.items.isEmpty then rows else rows ++ tally.counts.items) =
      rows ++ tally.counts.items := by
  cases held : tally.counts.items with
  | nil => simp
  | cons item rest => simp

/-- However often a tally was flushed, it yields the keys with their total counts. -/
theorem mem_items (positive : tally.Positive) {minCount : Int} {key : κ} {count : Nat} :
    (key, count) ∈ tally.items minCount ↔
      count = tally.total key ∧ 0 < count ∧ minCount ≤ count := by
  have counted : 0 < tally.total key ↔
      key ∈ (tally.rows.getD [] ++ tally.counts.items).map Prod.fst := by
    rw [← rowSum_pos_iff positive, rowSum_append]
    rfl
  unfold items
  cases stored : tally.rows with
  | none =>
      rw [stored, Option.getD_none, List.nil_append] at counted
      have held : tally.total key = (tally.counts.get key).getD 0 := by
        rw [total, stored, Option.getD_none, rowSum_items]
        exact Nat.zero_add _
      rw [List.mem_filter, decide_eq_true_iff, ← Dict.get_eq_some_iff, ← and_assoc]
      apply and_congr_left
      intro _
      constructor
      · intro here
        have same : count = tally.total key := by rw [held, here, Option.getD_some]
        refine ⟨same, ?_⟩
        rw [same, counted]
        exact List.mem_map_of_mem (Dict.get_eq_some_iff.mp here)
      · rintro ⟨same, here⟩
        rw [same, counted] at here
        obtain ⟨⟨other, found⟩, member, rfl⟩ := List.mem_map.mp here
        have got := Dict.get_eq_some_iff.mpr member
        rw [same, held, got, Option.getD_some]
  | some rows =>
      rw [stored, Option.getD_some] at counted
      have summed : tally.total key = rowSum (rows ++ tally.counts.items) key := by
        rw [total, rowSum_append, stored, Option.getD_some]
      simp only [written_eq, List.mem_filter, decide_eq_true_iff, mem_groups, ← counted,
        ← summed]
      constructor
      · rintro ⟨⟨here, rfl⟩, enough⟩
        exact ⟨rfl, here, enough⟩
      · rintro ⟨rfl, here, enough⟩
        exact ⟨⟨here, rfl⟩, enough⟩

theorem nodup_items (tally : Tally κ) (minCount : Int) :
    ((tally.items minCount).map Prod.fst).Nodup := by
  unfold items
  cases tally.rows with
  | none => exact tally.counts.once.sublist (List.filter_sublist.map Prod.fst)
  | some rows => exact (nodup_groups _).sublist (List.filter_sublist.map Prod.fst)

/-- Counting a list of keys. -/
theorem total_foldl_add (keys : List κ) (tally : Tally κ) (key : κ) :
    (keys.foldl add tally).total key = tally.total key + keys.count key := by
  induction keys generalizing tally with
  | nil => rfl
  | cons first rest ih =>
      rw [List.foldl_cons, ih, total_add, List.count_cons, Nat.add_assoc]
      congr 1
      rw [Nat.add_comm]
      congr 1
      by_cases same : key = first
      · rw [if_pos same, same, beq_self_eq_true, if_pos rfl]
      · rw [if_neg same, beq_eq_false_iff_ne.mpr (Ne.symm same)]
        rfl

theorem positive_foldl_add (keys : List κ) (positive : tally.Positive) :
    (keys.foldl add tally).Positive := by
  induction keys generalizing tally with
  | nil => exact positive
  | cons first rest ih => exact ih (positive_add positive first)

end Tally

/-- A loop whose state adds up from two states runs on two parts of its items. -/
theorem foldl_splits {σ : Type v} {ι : Type w} {step : σ → ι → σ} {adds : σ → σ → σ → Prop}
    (left : ∀ whole first second item, adds whole first second →
      adds (step whole item) (step first item) second)
    (right : ∀ whole first second item, adds whole first second →
      adds (step whole item) first (step second item))
    (p : ι → Bool) (items : List ι) {whole first second : σ} (initially : adds whole first second) :
    adds (items.foldl step whole) ((items.filter fun item => !p item).foldl step first)
      ((items.filter p).foldl step second) := by
  induction items generalizing whole first second with
  | nil => exact initially
  | cons item rest ih =>
      rw [List.foldl_cons]
      cases taken : p item with
      | true =>
          rw [List.filter_cons_of_neg (by simp [taken]), List.filter_cons_of_pos taken,
            List.foldl_cons]
          exact ih (right _ _ _ item initially)
      | false =>
          rw [List.filter_cons_of_pos (by simp [taken]), List.filter_cons_of_neg (by simp [taken]),
            List.foldl_cons]
          exact ih (left _ _ _ item initially)

end DataOlympus.Select
