import Mathlib.Logic.Function.Basic

/-!
# Working trees

The contents of paths in the commit that is checked out, in the index, and on disk.  A hard
reset knows the paths of the commit and of the index only: a file that is in neither stays.
-/

namespace DataOlympus.Git

universe u v

/-- A checkout. -/
structure WorkingTree (ρ : Type u) (γ : Type v) where
  head : ρ → Option γ
  index : ρ → Option γ
  files : ρ → Option γ

namespace WorkingTree

variable {ρ : Type u} {γ : Type v}

/-- The files are those of the commit. -/
def Clean (tree : WorkingTree ρ γ) : Prop :=
  tree.files = tree.head

/-- A path of the commit or of the index. -/
def Tracked (tree : WorkingTree ρ γ) (path : ρ) : Prop :=
  tree.head path ≠ none ∨ tree.index path ≠ none

/-- `git reset --hard HEAD`. -/
def resetHard (tree : WorkingTree ρ γ) : WorkingTree ρ γ where
  head := tree.head
  index := tree.head
  files path :=
    if (tree.head path).isSome || (tree.index path).isSome then tree.head path
    else tree.files path

/-- `git commit`. -/
def commit (tree : WorkingTree ρ γ) : WorkingTree ρ γ :=
  { tree with head := tree.index }

section Update

variable [DecidableEq ρ]

/-- A file is written. -/
def write (tree : WorkingTree ρ γ) (path : ρ) (content : γ) : WorkingTree ρ γ :=
  { tree with files := Function.update tree.files path (some content) }

/-- `git add path`. -/
def add (tree : WorkingTree ρ γ) (path : ρ) : WorkingTree ρ γ :=
  { tree with index := Function.update tree.index path (tree.files path) }

@[simp]
theorem head_write (tree : WorkingTree ρ γ) (path : ρ) (content : γ) :
    (tree.write path content).head = tree.head :=
  rfl

@[simp]
theorem index_write (tree : WorkingTree ρ γ) (path : ρ) (content : γ) :
    (tree.write path content).index = tree.index :=
  rfl

@[simp]
theorem files_write (tree : WorkingTree ρ γ) (path : ρ) (content : γ) :
    (tree.write path content).files = Function.update tree.files path (some content) :=
  rfl

@[simp]
theorem head_add (tree : WorkingTree ρ γ) (path : ρ) : (tree.add path).head = tree.head :=
  rfl

@[simp]
theorem files_add (tree : WorkingTree ρ γ) (path : ρ) : (tree.add path).files = tree.files :=
  rfl

@[simp]
theorem index_add (tree : WorkingTree ρ γ) (path : ρ) :
    (tree.add path).index = Function.update tree.index path (tree.files path) :=
  rfl

end Update

/-- A hard reset cleans a checkout exactly if no untracked file is there. -/
theorem clean_resetHard_iff {tree : WorkingTree ρ γ} :
    tree.resetHard.Clean ↔ ∀ path, ¬ tree.Tracked path → tree.files path = none := by
  unfold Clean resetHard Tracked
  simp only [funext_iff]
  apply forall_congr'
  intro path
  cases inHead : tree.head path with
  | some content => simp
  | none =>
      cases inIndex : tree.index path with
      | some content => simp
      | none => simp

end WorkingTree

end DataOlympus.Git
