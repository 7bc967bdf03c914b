import Mathlib.Data.List.AList

/-!
# Replaying changes on a finite map

A finite map whose keys were changed on one side is carried onto another map.  A key
the other side left alone takes the changed value; a key both sides changed is left to
a merge, which may fail.
-/

namespace DataOlympus.Replay

universe u v

variable {α : Type u} {β : Type v} [DecidableEq α]

/-- The map with all the pairs inserted, the last one of a key remaining. -/
def insertAll (map : AList fun _ : α => β) : List (α × β) → AList fun _ : α => β
  | [] => map
  | (key, value) :: rest => insertAll (map.insert key value) rest

theorem lookup_insertAll_of_not_mem (map : AList fun _ : α => β) {pairs : List (α × β)}
    {key : α} (absent : key ∉ pairs.map Prod.fst) :
    (insertAll map pairs).lookup key = map.lookup key := by
  induction pairs generalizing map with
  | nil => rfl
  | cons pair rest ih =>
      simp only [List.map_cons, List.mem_cons, not_or] at absent
      rw [insertAll, ih _ absent.2, AList.lookup_insert_ne absent.1]

theorem lookup_insertAll_of_mem (map : AList fun _ : α => β) {pairs : List (α × β)}
    {key : α} {value : β} (once : (pairs.map Prod.fst).Nodup)
    (member : (key, value) ∈ pairs) :
    (insertAll map pairs).lookup key = some value := by
  induction pairs generalizing map with
  | nil => cases member
  | cons pair rest ih =>
      rw [List.map_cons, List.nodup_cons] at once
      rcases List.mem_cons.mp member with rfl | later
      · rw [insertAll, lookup_insertAll_of_not_mem _ once.1, AList.lookup_insert]
      · exact ih _ once.2 later

/-- The map with the value of every listed key, where all of them have one. -/
def replay (onto : AList fun _ : α => β) (value : α → Option β) :
    List α → Option (AList fun _ : α => β)
  | [] => some onto
  | key :: rest =>
      match value key, replay onto value rest with
      | some found, some replayed => some (replayed.insert key found)
      | _, _ => none

/-- A replay assigns their values to the listed keys and leaves the others alone. -/
theorem lookup_replay {onto replayed : AList fun _ : α => β} {value : α → Option β}
    {keys : List α} (done : replay onto value keys = some replayed) (key : α) :
    replayed.lookup key = if key ∈ keys then value key else onto.lookup key := by
  induction keys generalizing replayed with
  | nil =>
      cases done
      simp
  | cons first rest ih =>
      unfold replay at done
      cases valueOf : value first with
      | none => simp [valueOf] at done
      | some found =>
          cases before : replay onto value rest with
          | none => simp [valueOf, before] at done
          | some earlier =>
              simp only [valueOf, before, Option.some.injEq] at done
              subst replayed
              by_cases same : key = first
              · subst key
                simp [valueOf]
              · rw [AList.lookup_insert_ne same, ih before]
                simp [same]

/-- A replay succeeds exactly when every listed key has a value. -/
theorem exists_replay_iff {onto : AList fun _ : α => β} {value : α → Option β}
    {keys : List α} :
    (∃ replayed, replay onto value keys = some replayed) ↔
      ∀ key ∈ keys, (value key).isSome = true := by
  induction keys with
  | nil => simp [replay]
  | cons first rest ih =>
      rw [List.forall_mem_cons, ← ih, replay]
      cases value first with
      | none => simp
      | some found =>
          cases replay onto value rest with
          | none => simp
          | some earlier => simp

variable [DecidableEq β]

/-- What a changed key becomes: the changed value where the other side left the key
alone, and otherwise the outcome of the merge. -/
def carried (base ours theirs : AList fun _ : α => β) (merge : α → Option β) (key : α) :
    Option β :=
  if theirs.lookup key = base.lookup key then ours.lookup key else merge key

/-- Changes to keys that the other side left alone are carried over, and the result is
the union of both sides. -/
theorem replay_carried_of_disjoint {base ours theirs : AList fun _ : α => β}
    {merge : α → Option β} {changed : List α}
    (disjoint : ∀ key ∈ changed, theirs.lookup key = base.lookup key)
    (present : ∀ key ∈ changed, (ours.lookup key).isSome = true) :
    ∃ union, replay theirs (carried base ours theirs merge) changed = some union ∧
      ∀ key, union.lookup key =
        if key ∈ changed then ours.lookup key else theirs.lookup key := by
  have each : ∀ key ∈ changed, carried base ours theirs merge key = ours.lookup key := by
    intro key member
    rw [carried, if_pos (disjoint key member)]
  have succeeds : ∀ key ∈ changed,
      (carried base ours theirs merge key).isSome = true := by
    intro key member
    rw [each key member]
    exact present key member
  rcases exists_replay_iff.mpr succeeds with ⟨union, done⟩
  refine ⟨union, done, ?_⟩
  intro key
  rw [lookup_replay done]
  by_cases member : key ∈ changed
  · rw [if_pos member, if_pos member, each key member]
  · rw [if_neg member, if_neg member]

end DataOlympus.Replay
