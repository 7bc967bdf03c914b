import DataOlympus.Text.Lines

/-!
# Files behind a write cache

Programs see the newest content of every file and the newest entry of every directory.  The
disk may lag behind: a crash keeps of a file that was not synchronized whatever it likes, and
of a directory entry any of the values since the directory was synchronized.
-/

namespace DataOlympus.Storage

open Lines

universe u v

/-- What programs read of a file, and whether the disk holds the same. -/
structure File where
  content : Text
  settled : Bool

/-- The file that a name stands for, and the ones the disk may still hold under it. -/
structure Entry (φ : Type u) where
  newest : Option φ
  older : List (Option φ)

namespace Entry

variable {φ : Type u}

/-- The disk may hold this file under the name. -/
def Holds (entry : Entry φ) (file : Option φ) : Prop :=
  file = entry.newest ∨ file ∈ entry.older

def set (entry : Entry φ) (file : Option φ) : Entry φ :=
  ⟨file, entry.newest :: entry.older⟩

def sync (entry : Entry φ) : Entry φ :=
  ⟨entry.newest, []⟩

variable {entry : Entry φ} {file other : Option φ}

@[simp]
theorem newest_set : (entry.set file).newest = file :=
  rfl

@[simp]
theorem newest_sync : entry.sync.newest = entry.newest :=
  rfl

@[simp]
theorem holds_set : (entry.set file).Holds other ↔ other = file ∨ entry.Holds other := by
  simp [Holds, set]

@[simp]
theorem holds_sync : entry.sync.Holds other ↔ other = entry.newest := by
  simp [Holds, sync]

theorem holds_newest (entry : Entry φ) : entry.Holds entry.newest :=
  .inl rfl

end Entry

/-- The files and the directory entries. -/
structure Cache (ν : Type u) (φ : Type v) where
  files : φ → File
  entries : ν → Entry φ

namespace Cache

variable {ν : Type u} {φ : Type v} [DecidableEq ν] [DecidableEq φ]

/-- No file has a name. -/
def empty : Cache ν φ where
  files _ := ⟨[], true⟩
  entries _ := ⟨none, []⟩

def write (cache : Cache ν φ) (file : φ) (content : Text) : Cache ν φ :=
  { cache with files := Function.update cache.files file ⟨content, false⟩ }

def fsync (cache : Cache ν φ) (file : φ) : Cache ν φ :=
  { cache with files := Function.update cache.files file ⟨(cache.files file).content, true⟩ }

/-- Let a name stand for another file, or for none. -/
def bind (cache : Cache ν φ) (name : ν) (file : Option φ) : Cache ν φ :=
  { cache with entries := Function.update cache.entries name ((cache.entries name).set file) }

omit [DecidableEq ν] [DecidableEq φ] in
/-- Synchronize the entries of one directory. -/
def syncNames (cache : Cache ν φ) (inside : ν → Bool) : Cache ν φ :=
  { cache with entries := fun name =>
      if inside name then (cache.entries name).sync else cache.entries name }

omit [DecidableEq ν] [DecidableEq φ] in
/-- What programs read under a name. -/
def read (cache : Cache ν φ) (name : ν) : Option Text :=
  (cache.entries name).newest.map fun file => (cache.files file).content

omit [DecidableEq ν] [DecidableEq φ] in
/-- A crash may leave this on the disk. -/
structure Crashes (cache target : Cache ν φ) : Prop where
  kept : ∀ file, (cache.files file).settled = true → target.files file = cache.files file
  held : ∀ name, (cache.entries name).Holds (target.entries name).newest
  forgotten : ∀ name, (target.entries name).older = []

variable {cache target : Cache ν φ} {name other : ν} {file : φ}
  {bound held : Option φ}

omit [DecidableEq ν] [DecidableEq φ] in
theorem Crashes.holds (crashes : cache.Crashes target)
    (holds : (target.entries name).Holds held) : (cache.entries name).Holds held := by
  rcases holds with rfl | older
  · exact crashes.held name
  · rw [crashes.forgotten name] at older
    cases older

omit [DecidableEq ν] in
theorem files_write {content : Text} {written : φ} : (cache.write file content).files written =
    if written = file then ⟨content, false⟩ else cache.files written := by
  by_cases same : written = file
  · simp [write, same]
  · simp [write, same]

omit [DecidableEq ν] in
theorem files_fsync {synced : φ} : (cache.fsync file).files synced =
    if synced = file then ⟨(cache.files file).content, true⟩ else cache.files synced := by
  by_cases same : synced = file
  · simp [fsync, same]
  · simp [fsync, same]

omit [DecidableEq φ] in
theorem entries_bind : (cache.bind name bound).entries other =
    if other = name then (cache.entries other).set bound else cache.entries other := by
  by_cases same : other = name
  · subst other
    simp [bind]
  · simp [bind, same]

omit [DecidableEq ν] [DecidableEq φ] in
theorem newest_syncNames {inside : ν → Bool} :
    ((cache.syncNames inside).entries other).newest = (cache.entries other).newest := by
  unfold syncNames
  by_cases member : inside other = true
  · simp [member]
  · simp [member]

omit [DecidableEq ν] [DecidableEq φ] in
theorem holds_of_holds_syncNames {inside : ν → Bool}
    (holds : ((cache.syncNames inside).entries other).Holds held) :
    (cache.entries other).Holds held := by
  unfold syncNames at holds
  by_cases member : inside other = true
  · simp only [member, if_true, Entry.holds_sync] at holds
    exact .inl holds
  · simp only [if_neg member] at holds
    exact holds

omit [DecidableEq ν] [DecidableEq φ] in
theorem eq_newest_of_holds_syncNames {inside : ν → Bool} (member : inside other = true)
    (holds : ((cache.syncNames inside).entries other).Holds held) :
    held = (cache.entries other).newest := by
  simpa only [syncNames, member, if_true, Entry.holds_sync] using holds

end Cache

end DataOlympus.Storage
