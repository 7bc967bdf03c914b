import DataOlympus.Document.Path
import DataOlympus.Git.WorkingTree
import Mathlib.Data.List.Nodup

/-!
# Writes that do not commit

A commit in a session worktree writes its files, adds each to the index and commits.  When
it fails on the way, a hard reset is to leave the worktree at HEAD.  The reset does not
remove a file that was written and not added, and a single document that could not be
written is not reset at all.
-/

namespace DataOlympus

open Lines Git

/-- How far the write of one file gets. -/
inductive FileEnd where
  /-- `makedirs` or `open` raises. -/
  | unopened
  /-- The open file keeps what was written of it before an error. -/
  | broken (left : Text)
  /-- `git add` fails, with the index updated or not. -/
  | unadded (indexed : Bool)
  | added
  deriving DecidableEq

/-- A file to write. -/
structure TargetFile where
  targetPath : RelPath
  postimage : Text
  ending : FileEnd

/-- The files of a session worktree. -/
abbrev SessionTree : Type :=
  WorkingTree RelPath Text

/-- Whether a commit was made. -/
inductive CommitEnd where
  | failed
  | committed
  deriving DecidableEq

/-- What is done for one file. -/
def TargetFile.perform (file : TargetFile) (tree : SessionTree) : SessionTree :=
  match file.ending with
  | .unopened => tree
  | .broken left => tree.write file.targetPath left
  | .unadded indexed =>
      let written := tree.write file.targetPath file.postimage
      if indexed then written.add file.targetPath else written
  | .added => (tree.write file.targetPath file.postimage).add file.targetPath

/-- `reset_worktree(…)`; the caller suppresses its failure. -/
def cleanUp (resets : Bool) (tree : SessionTree) : SessionTree :=
  if resets then tree.resetHard else tree

/-- One call of `_commit_in_worktree`, after the base was refreshed. -/
structure SingleCommit where
  /-- Every gate lets the postimage pass. -/
  gated : Bool
  file : TargetFile
  /-- `git commit` succeeds. -/
  commits : Bool
  /-- `git reset` succeeds. -/
  resets : Bool

/-- Write, add, commit: only the git commands are cleaned up after. -/
def SingleCommit.run (attempt : SingleCommit) (tree : SessionTree) : CommitEnd × SessionTree :=
  if !attempt.gated then (.failed, tree)
  else
    let written := attempt.file.perform tree
    match attempt.file.ending with
    | .unopened | .broken _ => (.failed, written)
    | .unadded _ => (.failed, cleanUp attempt.resets written)
    | .added =>
        if attempt.commits then (.committed, written.commit)
        else (.failed, cleanUp attempt.resets written)

/-- One call of `commit_multifile_in_worktree`, after the base was refreshed. -/
structure MultifileCommit where
  gated : Bool
  files : List TargetFile
  commits : Bool
  resets : Bool

/-- The loop over the files, up to the first that fails. -/
def writeAll : List TargetFile → SessionTree → Bool × SessionTree
  | [], tree => (true, tree)
  | file :: rest, tree =>
      if file.ending = .added then writeAll rest (file.perform tree)
      else (false, file.perform tree)

/-- Write and add each file, commit, and clean up after any failure.  A path that is given
twice is locked when its second lock is taken. -/
def MultifileCommit.run (attempt : MultifileCommit) (tree : SessionTree) :
    CommitEnd × SessionTree :=
  if !attempt.gated ∨ ¬ (attempt.files.map TargetFile.targetPath).Nodup then (.failed, tree)
  else
    let (all, written) := writeAll attempt.files tree
    if all && attempt.commits then (.committed, written.commit)
    else (.failed, cleanUp attempt.resets written)

/-- The files that are opened, with what they hold then. -/
def opened : List TargetFile → List (RelPath × Text)
  | [] => []
  | file :: rest =>
      match file.ending with
      | .unopened => []
      | .broken left => [(file.targetPath, left)]
      | .unadded _ => [(file.targetPath, file.postimage)]
      | .added => (file.targetPath, file.postimage) :: opened rest

/-- The paths that get into the index. -/
def staged : List TargetFile → List RelPath
  | [] => []
  | file :: rest =>
      match file.ending with
      | .unopened | .broken _ => []
      | .unadded indexed => if indexed then [file.targetPath] else []
      | .added => file.targetPath :: staged rest

/-- Every opened file holds what HEAD holds. -/
def HoldsHead (tree : SessionTree) (files : List TargetFile) : Prop :=
  ∀ file ∈ opened files, tree.head file.1 = some file.2

/-- Every opened file is in HEAD or in the index. -/
def Recoverable (tree : SessionTree) (files : List TargetFile) : Prop :=
  ∀ file ∈ opened files, tree.Tracked file.1 ∨ file.1 ∈ staged files

/-- What a clean-up leaves clean. -/
def Cleaned (tree : SessionTree) (files : List TargetFile) (resets : Bool) : Prop :=
  if resets then Recoverable tree files else HoldsHead tree files

/-- When a failed write of a document leaves the worktree at HEAD. -/
def SingleCommit.LeavesHead (attempt : SingleCommit) (tree : SessionTree) : Prop :=
  attempt.gated →
    match attempt.file.ending with
    | .unopened | .broken _ => HoldsHead tree [attempt.file]
    | .unadded _ | .added => Cleaned tree [attempt.file] attempt.resets

/-- When a failed write of a bundle leaves the worktree at HEAD. -/
def MultifileCommit.LeavesHead (attempt : MultifileCommit) (tree : SessionTree) : Prop :=
  attempt.gated → (attempt.files.map TargetFile.targetPath).Nodup →
    Cleaned tree attempt.files attempt.resets

/-! ## The files of a bundle -/

theorem head_perform (file : TargetFile) (tree : SessionTree) :
    (file.perform tree).head = tree.head := by
  obtain ⟨path, postimage, ending⟩ := file
  cases ending with
  | unadded indexed => cases indexed <;> rfl
  | _ => rfl

/-- Other files stay. -/
theorem files_perform_of_ne (file : TargetFile) {path : RelPath}
    (different : path ≠ file.targetPath) (tree : SessionTree) :
    (file.perform tree).files path = tree.files path := by
  obtain ⟨target, postimage, ending⟩ := file
  have same : (Function.update tree.files target (some postimage)) path = tree.files path :=
    Function.update_of_ne different _ _
  cases ending with
  | unopened => rfl
  | broken left => exact Function.update_of_ne different _ _
  | unadded indexed => cases indexed <;> exact same
  | added => exact same

theorem index_perform_of_ne (file : TargetFile) {path : RelPath}
    (different : path ≠ file.targetPath) (tree : SessionTree) :
    (file.perform tree).index path = tree.index path := by
  obtain ⟨target, postimage, ending⟩ := file
  cases ending with
  | unadded indexed =>
      cases indexed with
      | false => rfl
      | true => exact Function.update_of_ne different _ _
  | added => exact Function.update_of_ne different _ _
  | _ => rfl

theorem targetPath_of_mem_opened {files : List TargetFile} {file : RelPath × Text}
    (member : file ∈ opened files) : file.1 ∈ files.map TargetFile.targetPath := by
  induction files with
  | nil => cases member
  | cons first rest ih =>
      obtain ⟨path, postimage, ending⟩ := first
      rw [List.map_cons, List.mem_cons]
      cases ending with
      | unopened => cases member
      | broken left => exact .inl (congrArg Prod.fst (List.mem_singleton.mp member))
      | unadded indexed => exact .inl (congrArg Prod.fst (List.mem_singleton.mp member))
      | added =>
          rcases List.mem_cons.mp member with rfl | later
          · exact .inl rfl
          · exact .inr (ih later)

theorem head_writeAll (files : List TargetFile) (tree : SessionTree) :
    (writeAll files tree).2.head = tree.head := by
  induction files generalizing tree with
  | nil => rfl
  | cons first rest ih =>
      unfold writeAll
      by_cases done : first.ending = .added
      · rw [if_pos done, ih, head_perform]
      · rw [if_neg done, head_perform]

/-- A file that is not opened stays. -/
theorem files_writeAll_of_absent {files : List TargetFile} {path : RelPath}
    (absent : path ∉ (opened files).map Prod.fst) (tree : SessionTree) :
    (writeAll files tree).2.files path = tree.files path := by
  induction files generalizing tree with
  | nil => rfl
  | cons first rest ih =>
      obtain ⟨target, postimage, ending⟩ := first
      unfold writeAll
      cases ending with
      | unopened => rfl
      | broken left =>
          have different : path ≠ target := List.ne_of_not_mem_cons absent
          simp only [reduceCtorEq, if_false]
          exact files_perform_of_ne ⟨target, postimage, _⟩ different tree
      | unadded indexed =>
          have different : path ≠ target := List.ne_of_not_mem_cons absent
          simp only [reduceCtorEq, if_false]
          exact files_perform_of_ne ⟨target, postimage, _⟩ different tree
      | added =>
          have different : path ≠ target := List.ne_of_not_mem_cons absent
          rw [if_pos rfl, ih (List.not_mem_of_not_mem_cons absent)]
          exact files_perform_of_ne ⟨target, postimage, _⟩ different tree

/-- An opened file holds what was left of it. -/
theorem files_writeAll_of_opened {files : List TargetFile}
    (distinct : (files.map TargetFile.targetPath).Nodup) {file : RelPath × Text}
    (member : file ∈ opened files) (tree : SessionTree) :
    (writeAll files tree).2.files file.1 = some file.2 := by
  induction files generalizing tree with
  | nil => cases member
  | cons first rest ih =>
      rw [List.map_cons, List.nodup_cons] at distinct
      obtain ⟨target, postimage, ending⟩ := first
      unfold writeAll
      cases ending with
      | unopened => cases member
      | broken left =>
          cases List.mem_singleton.mp member
          exact Function.update_self _ _ _
      | unadded indexed =>
          cases List.mem_singleton.mp member
          cases indexed <;> exact Function.update_self _ _ _
      | added =>
          rw [if_pos rfl]
          rcases List.mem_cons.mp member with rfl | later
          · rw [files_writeAll_of_absent]
            · exact Function.update_self _ _ _
            · intro again
              obtain ⟨other, present, same⟩ := List.mem_map.mp again
              have named := targetPath_of_mem_opened present
              rw [same] at named
              exact distinct.1 named
          · exact ih distinct.2 later _

/-- The index gets the staged paths. -/
theorem index_writeAll_iff (files : List TargetFile) (tree : SessionTree) (path : RelPath) :
    (writeAll files tree).2.index path ≠ none ↔
      tree.index path ≠ none ∨ path ∈ staged files := by
  induction files generalizing tree with
  | nil => simp [writeAll, staged]
  | cons first rest ih =>
      obtain ⟨target, postimage, ending⟩ := first
      unfold writeAll staged
      by_cases here : path = target
      · subst here
        cases ending with
        | unopened => simp [TargetFile.perform]
        | broken left => simp [TargetFile.perform]
        | unadded indexed => cases indexed <;> simp [TargetFile.perform]
        | added => simp [ih, TargetFile.perform]
      · have kept := index_perform_of_ne ⟨target, postimage, ending⟩ here tree
        cases ending with
        | unopened => simp [kept]
        | broken left => simp [kept]
        | unadded indexed => cases indexed <;> simp [kept, here]
        | added => simp [ih, kept, here]

section Clean

variable {files : List TargetFile} {tree : SessionTree}

/-- Without a reset, the opened files have to hold what HEAD holds. -/
theorem clean_writeAll_iff (clean : tree.Clean)
    (distinct : (files.map TargetFile.targetPath).Nodup) :
    (writeAll files tree).2.Clean ↔ HoldsHead tree files := by
  unfold WorkingTree.Clean at clean ⊢
  rw [head_writeAll]
  constructor
  · intro same file member
    rw [← congrFun same file.1, files_writeAll_of_opened distinct member]
  · intro holds
    funext path
    by_cases touched : path ∈ (opened files).map Prod.fst
    · obtain ⟨file, member, rfl⟩ := List.mem_map.mp touched
      rw [files_writeAll_of_opened distinct member, holds file member]
    · rw [files_writeAll_of_absent touched, clean]

/-- With a reset, the opened files have to be in HEAD or in the index. -/
theorem clean_resetHard_writeAll_iff (clean : tree.Clean)
    (distinct : (files.map TargetFile.targetPath).Nodup) :
    (writeAll files tree).2.resetHard.Clean ↔ Recoverable tree files := by
  rw [WorkingTree.clean_resetHard_iff]
  have tracked_iff : ∀ path, (writeAll files tree).2.Tracked path ↔
      tree.Tracked path ∨ path ∈ staged files := by
    intro path
    rw [WorkingTree.Tracked, index_writeAll_iff, head_writeAll, ← or_assoc]
    rfl
  simp only [tracked_iff]
  constructor
  · intro gone file member
    by_contra untracked
    have absent := gone file.1 untracked
    rw [files_writeAll_of_opened distinct member] at absent
    cases absent
  · intro recoverable path untracked
    have untouched : path ∉ (opened files).map Prod.fst := by
      intro touched
      obtain ⟨file, member, rfl⟩ := List.mem_map.mp touched
      exact untracked (recoverable file member)
    rw [files_writeAll_of_absent untouched, clean]
    by_contra present
    exact untracked (.inl (.inl present))

theorem clean_cleanUp_iff (clean : tree.Clean)
    (distinct : (files.map TargetFile.targetPath).Nodup) (resets : Bool) :
    (cleanUp resets (writeAll files tree).2).Clean ↔ Cleaned tree files resets := by
  unfold cleanUp Cleaned
  cases resets with
  | true => exact clean_resetHard_writeAll_iff clean distinct
  | false => exact clean_writeAll_iff clean distinct

end Clean

theorem perform_eq_writeAll (file : TargetFile) (tree : SessionTree) :
    file.perform tree = (writeAll [file] tree).2 := by
  unfold writeAll
  by_cases done : file.ending = .added
  · rw [if_pos done]
    rfl
  · rw [if_neg done]

/-- An attempt that fails in a clean worktree leaves it at HEAD exactly if each opened file
can be reset: its path is in HEAD or in the index and the reset is made, or it holds what
HEAD holds. -/
theorem failed_commit_leaves_head_iff (tree : SessionTree) (clean : tree.Clean) :
    (∀ attempt : SingleCommit, (attempt.run tree).1 = .failed →
      ((attempt.run tree).2.Clean ↔ attempt.LeavesHead tree)) ∧
    ∀ attempt : MultifileCommit, (attempt.run tree).1 = .failed →
      ((attempt.run tree).2.Clean ↔ attempt.LeavesHead tree) := by
  constructor
  · rintro ⟨gated, file, commits, resets⟩ failed
    unfold SingleCommit.LeavesHead
    unfold SingleCommit.run at failed ⊢
    cases gated with
    | false => simpa using clean
    | true =>
        have one : ([file].map TargetFile.targetPath).Nodup := List.nodup_singleton _
        simp only [Bool.not_true, Bool.false_eq_true, if_false, perform_eq_writeAll,
          true_implies] at failed ⊢
        cases ending : file.ending with
        | unopened => exact clean_writeAll_iff clean one
        | broken left => exact clean_writeAll_iff clean one
        | unadded indexed => exact clean_cleanUp_iff clean one resets
        | added =>
            simp only [ending] at failed ⊢
            cases commits with
            | true => cases failed
            | false => exact clean_cleanUp_iff clean one resets
  · rintro ⟨gated, files, commits, resets⟩ failed
    unfold MultifileCommit.LeavesHead
    unfold MultifileCommit.run at failed ⊢
    by_cases refused : !gated ∨ ¬ (files.map TargetFile.targetPath).Nodup
    · rw [if_pos refused]
      apply iff_of_true clean
      intro passed distinct
      rcases refused with closed | repeated
      · have through : gated = true := passed
        rw [through] at closed
        cases closed
      · exact absurd distinct repeated
    · simp only [refused, if_false] at failed ⊢
      rw [not_or, Bool.not_eq_true', Bool.not_eq_false, not_not] at refused
      simp only [refused.1, refused.2, true_implies]
      by_cases made : ((writeAll files tree).1 && commits) = true
      · rw [if_pos made] at failed
        cases failed
      · rw [if_neg made]
        exact clean_cleanUp_iff clean refused.2 resets

/-- A worktree of a commit without files. -/
def bareTree : SessionTree :=
  ⟨fun _ => none, fun _ => none, fun _ => none⟩

/-- A new rule whose commit is declined. -/
def declinedCommit : SingleCommit :=
  ⟨true, ⟨rulePath, "Ask first.".toList, .added⟩, false, true⟩

/-- A new rule that `git add` refuses. -/
def refusedAdd : SingleCommit :=
  ⟨true, ⟨rulePath, "Ask first.".toList, .unadded false⟩, true, true⟩

/-- A declined commit is cleaned up after. -/
theorem declined_commit_is_cleaned : (declinedCommit.run bareTree).2.Clean := by
  apply ((failed_commit_leaves_head_iff bareTree rfl).1 declinedCommit rfl).mpr
  intro gated file member
  cases List.mem_singleton.mp member
  exact .inr List.mem_cons_self

/-- The file that was written stays when it cannot be added. -/
theorem refused_add_leaves_file :
    ¬ ∀ (tree : SessionTree), tree.Clean → ∀ attempt : SingleCommit,
      (attempt.run tree).1 = .failed → (attempt.run tree).2.Clean := by
  intro cleaned
  have clean := cleaned bareTree rfl refusedAdd rfl
  cases congrFun clean rulePath

end DataOlympus
