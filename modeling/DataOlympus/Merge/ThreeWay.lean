import Mathlib.Logic.Basic
import Mathlib.Tactic.Choose

/-!
# Three-way merges

A change takes one map to another and leaves all but a few keys alone.  It is picked onto a
third map key by key: a value that one side left alone yields to the other side, and a value
that both sides changed is left to a merge, which may fail.  A replay picks one change after
another, and what becomes of a key depends on nothing but that key.
-/

namespace DataOlympus.ThreeWay

universe u v

variable {α : Type u} {β : Type v}

/-- The merge of one value. -/
structure Merge (β : Type v) where
  merge : (base ours theirs : β) → Option β
  theirs_unchanged : ∀ base ours, merge base ours base = some ours
  ours_unchanged : ∀ base theirs, merge base base theirs = some theirs

/-- The merge that gives up where both sides changed the value differently. -/
def Merge.strict [DecidableEq β] : Merge β where
  merge base ours theirs :=
    if theirs = base then some ours
    else if ours = base ∨ ours = theirs then some theirs
    else none
  theirs_unchanged base ours := if_pos rfl
  ours_unchanged base theirs := by
    by_cases same : theirs = base
    · rw [if_pos same, same]
    · rw [if_neg same, if_pos (.inl rfl)]

/-- A change of the listed keys. -/
structure Change (α : Type u) (β : Type v) where
  before : α → β
  after : α → β
  keys : List α
  elsewhere : ∀ key, key ∉ keys → after key = before key

section Replay

variable (merge : Merge β)

namespace Change

/-- The change at one key. -/
def mergeAt (change : Change α β) (key : α) (ours : β) : Option β :=
  merge.merge (change.before key) ours (change.after key)

/-- The change on top of another map. -/
def pick (change : Change α β) (onto : α → β) : Option (α → β) :=
  if ∀ key ∈ change.keys, (change.mergeAt merge key (onto key)).isSome = true then
    some fun key => (change.mergeAt merge key (onto key)).getD (onto key)
  else none

end Change

/-- The changes one after another on top of another map. -/
def replay : List (Change α β) → (α → β) → Option (α → β)
  | [], onto => some onto
  | change :: rest, onto => (change.pick merge onto).bind (replay rest)

/-- The changes of one key. -/
def replayAt (key : α) : List (Change α β) → β → Option β
  | [], ours => some ours
  | change :: rest, ours => (change.mergeAt merge key ours).bind (replayAt key rest)

end Replay

variable {merge : Merge β} {changes : List (Change α β)} {onto : α → β}

theorem Change.mergeAt_of_not_mem {change : Change α β} {key : α} (absent : key ∉ change.keys)
    (ours : β) : change.mergeAt merge key ours = some ours := by
  rw [mergeAt, change.elsewhere key absent]
  exact merge.theirs_unchanged _ _

/-- A change is picked exactly if it is merged at every key. -/
theorem Change.pick_eq_some_iff {change : Change α β} {picked : α → β} :
    change.pick merge onto = some picked ↔
      ∀ key, change.mergeAt merge key (onto key) = some (picked key) := by
  constructor
  · intro done key
    unfold pick at done
    split at done
    · rename_i clean
      cases done
      by_cases member : key ∈ change.keys
      · obtain ⟨value, merged⟩ := Option.isSome_iff_exists.mp (clean key member)
        simp only [merged, Option.getD_some]
      · simp only [change.mergeAt_of_not_mem member, Option.getD_some]
    · cases done
  · intro merged
    have clean : ∀ key ∈ change.keys, (change.mergeAt merge key (onto key)).isSome = true := by
      intro key _
      rw [merged key]
      rfl
    rw [pick, if_pos clean]
    congr 1
    funext key
    rw [merged key]
    rfl

/-- A replay succeeds exactly if it succeeds at every key. -/
theorem replay_eq_some_iff {replayed : α → β} :
    replay merge changes onto = some replayed ↔
      ∀ key, replayAt merge key changes (onto key) = some (replayed key) := by
  induction changes generalizing onto with
  | nil =>
      rw [replay, Option.some.injEq, funext_iff]
      simp only [replayAt, Option.some.injEq]
  | cons change rest ih =>
      rw [replay, Option.bind_eq_some_iff]
      constructor
      · rintro ⟨picked, here, later⟩ key
        rw [replayAt, change.pick_eq_some_iff.mp here key]
        exact ih.mp later key
      · intro all
        have each : ∀ key, ∃ value, change.mergeAt merge key (onto key) = some value ∧
            replayAt merge key rest value = some (replayed key) := by
          intro key
          exact Option.bind_eq_some_iff.mp (all key)
        choose picked here later using each
        exact ⟨picked, change.pick_eq_some_iff.mpr here, ih.mpr later⟩

/-- A key that no change touches keeps its value. -/
theorem replayAt_of_untouched {key : α} (untouched : ∀ change ∈ changes, key ∉ change.keys)
    (ours : β) : replayAt merge key changes ours = some ours := by
  induction changes with
  | nil => rfl
  | cons change rest ih =>
      obtain ⟨here, later⟩ := List.forall_mem_cons.mp untouched
      rw [replayAt, change.mergeAt_of_not_mem here]
      exact ih later

/-- A replay succeeds exactly if it succeeds at the keys that the changes touch. -/
theorem exists_replay_iff :
    (∃ replayed, replay merge changes onto = some replayed) ↔
      ∀ change ∈ changes, ∀ key ∈ change.keys,
        (replayAt merge key changes (onto key)).isSome = true := by
  constructor
  · rintro ⟨replayed, done⟩ change _ key _
    rw [replay_eq_some_iff.mp done key]
    rfl
  · intro touched
    have each : ∀ key, ∃ value, replayAt merge key changes (onto key) = some value := by
      intro key
      by_cases some_change : ∃ change ∈ changes, key ∈ change.keys
      · obtain ⟨change, member, here⟩ := some_change
        exact Option.isSome_iff_exists.mp (touched change member key here)
      · have untouched : ∀ change ∈ changes, key ∉ change.keys :=
          fun change member here => some_change ⟨change, member, here⟩
        exact ⟨onto key, replayAt_of_untouched untouched _⟩
    choose replayed done using each
    exact ⟨replayed, replay_eq_some_iff.mpr done⟩

/-- A replay goes on where a shorter one ended. -/
theorem replayAt_append (earlier later : List (Change α β)) (key : α) (ours : β) :
    replayAt merge key (earlier ++ later) ours =
      (replayAt merge key earlier ours).bind (replayAt merge key later) := by
  induction earlier generalizing ours with
  | nil => rfl
  | cons change rest ih =>
      rw [List.cons_append, replayAt, replayAt, Option.bind_assoc]
      congr 1
      funext merged
      exact ih merged

/-- What conflicts on one map conflicts on every map that agrees with it where the changes
go, and further changes do not resolve it. -/
theorem not_exists_replay_of_agree {conflicting : α → β} {later : List (Change α β)}
    (conflict : replay merge changes conflicting = none)
    (agree : ∀ change ∈ changes, ∀ key ∈ change.keys, onto key = conflicting key) :
    ¬∃ replayed, replay merge (changes ++ later) onto = some replayed := by
  rintro ⟨replayed, done⟩
  have replays : ∃ replayed, replay merge changes conflicting = some replayed := by
    rw [exists_replay_iff]
    intro change member key touched
    have whole := replay_eq_some_iff.mp done key
    rw [replayAt_append, agree change member key touched] at whole
    obtain ⟨value, merged, -⟩ := Option.bind_eq_some_iff.mp whole
    rw [merged]
    rfl
  obtain ⟨other, impossible⟩ := replays
  rw [conflict] at impossible
  cases impossible

end DataOlympus.ThreeWay
