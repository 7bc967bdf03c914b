import DataOlympus.Merge.Replay

/-!
# Removing and writing keys

Some keys of a finite map are removed and others are written.  The map is what it was if and
only if every removed key is written again and every written value was there before.
-/

namespace DataOlympus.Replay

universe u v

variable {α : Type u} {β : Type v} [DecidableEq α]

/-- The map without the keys. -/
def eraseAll (map : AList fun _ : α => β) : List α → AList fun _ : α => β
  | [] => map
  | key :: rest => eraseAll (map.erase key) rest

theorem lookup_eraseAll (map : AList fun _ : α => β) (keys : List α) (key : α) :
    (eraseAll map keys).lookup key = if key ∈ keys then none else map.lookup key := by
  induction keys generalizing map with
  | nil => rfl
  | cons first rest ih =>
      rw [eraseAll, ih]
      by_cases later : key ∈ rest
      · rw [if_pos later, if_pos (List.mem_cons_of_mem _ later)]
      · rw [if_neg later]
        by_cases same : key = first
        · rw [same, AList.lookup_erase, if_pos List.mem_cons_self]
        · rw [AList.lookup_erase_ne same, if_neg (by simp [same, later])]

theorem insertAll_append (map : AList fun _ : α => β) (first second : List (α × β)) :
    insertAll map (first ++ second) = insertAll (insertAll map first) second := by
  induction first generalizing map with
  | nil => rfl
  | cons pair rest ih => exact ih _

/-- What a map holds once keys were removed and then pairs written. -/
theorem lookup_insertAll_eraseAll (map : AList fun _ : α => β) (keys : List α)
    {pairs : List (α × β)} {key : α} (unwritten : key ∉ pairs.map Prod.fst) :
    (insertAll (eraseAll map keys) pairs).lookup key =
      if key ∈ keys then none else map.lookup key := by
  rw [lookup_insertAll_of_not_mem _ unwritten, lookup_eraseAll]

/-- The removed keys are written again, and what is written was there. -/
structure Restores (map : AList fun _ : α => β) (keys : List α) (pairs : List (α × β)) :
    Prop where
  removed : ∀ key ∈ keys, key ∈ map → key ∈ pairs.map Prod.fst
  written : ∀ pair ∈ pairs, map.lookup pair.1 = some pair.2

theorem restores_iff {map : AList fun _ : α => β} {keys : List α} {pairs : List (α × β)}
    (once : (pairs.map Prod.fst).Nodup) :
    (∀ key, (insertAll (eraseAll map keys) pairs).lookup key = map.lookup key) ↔
      Restores map keys pairs := by
  constructor
  · intro same
    constructor
    · intro key erased here
      by_contra unwritten
      have gone := same key
      rw [lookup_insertAll_eraseAll map keys unwritten, if_pos erased] at gone
      have found := AList.lookup_isSome.mpr here
      rw [← gone] at found
      cases found
    · intro pair member
      rw [← same pair.1, lookup_insertAll_of_mem _ once member]
  · intro restores key
    by_cases written : key ∈ pairs.map Prod.fst
    · obtain ⟨pair, member, rfl⟩ := List.mem_map.mp written
      rw [lookup_insertAll_of_mem _ once member, restores.written pair member]
    · rw [lookup_insertAll_eraseAll map keys written]
      split
      · rename_i erased
        have absent : key ∉ map := fun here => written (restores.removed key erased here)
        exact (AList.lookup_eq_none.mpr absent).symm
      · rfl

end DataOlympus.Replay
