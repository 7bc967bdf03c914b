import DataOlympus.Pending.Disk

/-!
# Garbage collection of session worktrees

A worktree that was idle for long enough is removed, and its branch deleted, unless its
HEAD has commits that upstream lacks or a claim wrote on the branch.  Both are asked of git
and of the pending queue while the serializer is held.  Without an `origin` there is nothing
to lack, and the files of the worktree are not looked at.
-/

namespace DataOlympus

open Lines

universe u

/-- A file `<pending_id>.claimed`; it may be damaged. -/
structure Sidecar where
  pendingId : PendingId
  entry : Option PendingEntry

/-- The file `<name>.meta.json`. -/
inductive MetaFile where
  | missing
  | damaged
  | lastActivity (time : Option Time)

/-- The worktree of a session. -/
structure CheckedOut (κ : Type u) where
  metadata : MetaFile
  head : Option κ
  /-- A tracked file differs from HEAD. -/
  modified : Bool

/-- The repository with its session worktrees, and the claims of the pending queue. -/
structure SessionRepo (κ : Type u) where
  worktrees : Text → Option (CheckedOut κ)
  branches : Text → Option κ
  /-- `origin/<branch>` -/
  upstream : Option κ
  remotes : List Text
  sidecars : List Sidecar

/-- What comes of a git command. -/
inductive GitAnswer (α : Type u) where
  /-- It is not there, or takes too long. -/
  | raised
  /-- Its exit code is not zero. -/
  | failed
  | printed (value : α)

/-- Whether a probe answers; what it answers is then exact. -/
inductive Probe where
  | raises
  | fails
  | answers
  deriving DecidableEq

/-- One call of `claim_guard`, which reconciles the claims first. -/
structure GuardCall where
  reconcile : List Sidecar → List Sidecar
  raises : Bool

/-- How `git worktree remove` ends. -/
inductive RemoveEnd where
  | refused
  | removed
  /-- The worktree is gone and the command fails. -/
  | removedAndFailed
  deriving DecidableEq

/-- The calls that are made for one worktree. -/
structure GcCalls (κ : Type u) where
  revList : Probe
  remote : Probe
  /-- What is written until the serializer is held. -/
  others : SessionRepo κ → SessionRepo κ
  revListAgain : Probe
  remoteAgain : Probe
  guard : GuardCall
  removeGuard : GuardCall
  remove : RemoveEnd
  deleteGuard : GuardCall
  /-- `git branch -D` succeeds; it is not checked. -/
  deletes : Bool
  /-- The metadata file is unlinked. -/
  unlinks : Bool

/-- What the collector takes away. -/
inductive Removed where
  | worktree
  | branch
  deriving DecidableEq

/-- A removal, with the repository at the time and when the serializer was acquired. -/
structure Removal (κ : Type u) where
  name : Text
  removed : Removed
  locked : SessionRepo κ
  state : SessionRepo κ

/-- `kb-session/<name>` -/
def sessionBranch (name : Text) : Text :=
  "kb-session/".toList ++ name

/-- The claim wrote on the branch, or cannot be read. -/
def Sidecar.atRisk (sessionRef : Text) (sidecar : Sidecar) : Bool :=
  match sidecar.entry with
  | none => true
  | some entry => decide (entry.writeContext.map WriteContext.sessionRef = some sessionRef)

/-- `claims_at_risk(session_ref)`. -/
def claimsAtRisk (sidecars : List Sidecar) (sessionRef : Text) : List PendingId :=
  if sessionRef.isEmpty then []
  else (sidecars.filter (Sidecar.atRisk sessionRef)).map Sidecar.pendingId

namespace SessionRepo

variable {κ : Type u} [DecidableEq κ]

/-- `git rev-list HEAD --not <upstream>` in a worktree. -/
def revList (ancestors : κ → List κ) (repo : SessionRepo κ) (name : Text) :
    Probe → GitAnswer (List κ)
  | .raises => .raised
  | .fails => .failed
  | .answers =>
      match (repo.worktrees name).bind CheckedOut.head, repo.upstream with
      | some head, some upstream =>
          .printed ((ancestors head).filter fun commit => commit ∉ ancestors upstream)
      | _, _ => .failed

/-- `git remote` in a worktree. -/
def remote (repo : SessionRepo κ) (name : Text) : Probe → GitAnswer (List Text)
  | .raises => .raised
  | .fails => .failed
  | .answers => if (repo.worktrees name).isSome then .printed repo.remotes else .failed

/-- `_has_unpushed_commits(wt_path)`.  The exit code of `git remote` is not looked at, and
one that fails prints nothing. -/
def hasUnpushedCommits (ancestors : κ → List κ) (repo : SessionRepo κ) (name : Text)
    (revListProbe remoteProbe : Probe) : Bool :=
  match repo.revList ancestors name revListProbe with
  | .raised => true
  | .failed =>
      match repo.remote name remoteProbe with
      | .raised => true
      | .failed => false
      | .printed remotes => decide ("origin".toList ∈ remotes)
  | .printed commits => !commits.isEmpty

/-- `_defer_if_claims_at_risk(ref)`: the repository after it, and whether it raises. -/
def deferIfClaimsAtRisk (guarded : Bool) (repo : SessionRepo κ) (ref : Text)
    (guard : GuardCall) : SessionRepo κ × Bool :=
  if !guarded then (repo, false)
  else if ref.isEmpty then (repo, true)
  else
    let after := { repo with sidecars := guard.reconcile repo.sidecars }
    (after, guard.raises || !(claimsAtRisk after.sidecars ref).isEmpty)

/-- The worktree is no longer there. -/
def withoutWorktree (repo : SessionRepo κ) (name : Text) : SessionRepo κ :=
  { repo with
    worktrees := fun other => if other = name then none else repo.worktrees other }

/-- The branch is no longer there. -/
def withoutBranch (repo : SessionRepo κ) (branch : Text) : SessionRepo κ :=
  { repo with
    branches := fun other => if other = branch then none else repo.branches other }

end SessionRepo

/-- What a pass, or the part of it for one worktree, has done. -/
structure GcRun (κ : Type u) where
  repo : SessionRepo κ
  removals : List (Removal κ)
  /-- The worktrees that are reported as removed. -/
  removed : List Text
  raised : Bool

section

variable {κ : Type u} [DecidableEq κ]

/-- `delete_branch(…)` and the unlinking of the metadata. -/
def deleteSessionBranch (guarded : Bool) (name : Text) (calls : GcCalls κ)
    (locked repo : SessionRepo κ) (removals : List (Removal κ)) : GcRun κ :=
  let branch := sessionBranch name
  match repo.deferIfClaimsAtRisk guarded branch calls.deleteGuard with
  | (after, true) => ⟨after, removals, [], false⟩
  | (after, false) =>
      let reported := if calls.unlinks then [name] else []
      if calls.deletes then
        ⟨after.withoutBranch branch, removals ++ [⟨name, .branch, locked, after⟩], reported, false⟩
      else ⟨after, removals, reported, false⟩

/-- What is done while the serializer is held. -/
def teardown (ancestors : κ → List κ) (guarded : Bool) (name : Text) (calls : GcCalls κ)
    (locked : SessionRepo κ) : GcRun κ :=
  let branch := sessionBranch name
  if locked.hasUnpushedCommits ancestors name calls.revListAgain calls.remoteAgain then
    ⟨locked, [], [], false⟩
  else
    match locked.deferIfClaimsAtRisk guarded branch calls.guard with
    | (checked, true) => ⟨checked, [], [], false⟩
    | (checked, false) =>
        match checked.deferIfClaimsAtRisk guarded branch calls.removeGuard with
        | (after, true) => ⟨after, [], [], false⟩
        | (after, false) =>
            if (after.worktrees name).isNone then
              deleteSessionBranch guarded name calls locked after []
            else
              let without := after.withoutWorktree name
              let removals := [⟨name, .worktree, locked, after⟩]
              match calls.remove with
              | .refused => ⟨after, [], [], false⟩
              | .removedAndFailed => ⟨without, removals, [], false⟩
              | .removed => deleteSessionBranch guarded name calls locked without removals

/-- One round of the loop of `gc`. -/
def collect (ancestors : κ → List κ) (guarded : Bool) (now idleSec : Time) (name : Text)
    (calls : GcCalls κ) (repo : SessionRepo κ) : GcRun κ :=
  if ".meta.json".toList.isSuffixOf name then ⟨repo, [], [], false⟩
  else
    match (repo.worktrees name).map CheckedOut.metadata with
    | none | some .missing => ⟨repo, [], [], false⟩
    | some .damaged => ⟨repo, [], [], true⟩
    | some (.lastActivity last) =>
        if now - last.getD 0 < idleSec then ⟨repo, [], [], false⟩
        else if repo.hasUnpushedCommits ancestors name calls.revList calls.remote then
          ⟨repo, [], [], false⟩
        else teardown ancestors guarded name calls (calls.others repo)

/-- `gc(idle_sec=…)` over the entries of the worktree root. -/
def gc (ancestors : κ → List κ) (guarded : Bool) (now idleSec : Time)
    (calls : Text → GcCalls κ) : List Text → SessionRepo κ → GcRun κ
  | [], repo => ⟨repo, [], [], false⟩
  | name :: rest, repo =>
      let round := collect ancestors guarded now idleSec name (calls name) repo
      if round.raised then round
      else
        let further := gc ancestors guarded now idleSec calls rest round.repo
        ⟨further.repo, round.removals ++ further.removals, round.removed ++ further.removed,
          further.raised⟩

/-- The commit whose last name is taken away. -/
def Removal.tip (removal : Removal κ) : Option κ :=
  match removal.removed with
  | .worktree => (removal.state.worktrees removal.name).bind CheckedOut.head
  | .branch => removal.state.branches (sessionBranch removal.name)

/-- Upstream has every commit that the removed worktree or branch has. -/
def Removal.Published (ancestors : κ → List κ) (removal : Removal κ) : Prop :=
  ∀ tip, removal.tip = some tip → ∀ commit ∈ ancestors tip,
    ∃ upstream, removal.state.upstream = some upstream ∧ commit ∈ ancestors upstream

/-- No claim wrote on the branch. -/
def Removal.Unclaimed (removal : Removal κ) : Prop :=
  ∀ sidecar ∈ removal.state.sidecars, sidecar.atRisk (sessionBranch removal.name) = false

/-- No tracked file of the removed worktree differs from HEAD. -/
def Removal.Unmodified (removal : Removal κ) : Prop :=
  removal.removed = .worktree →
    ((removal.state.worktrees removal.name).map CheckedOut.modified) ≠ some true

/-- HEAD of the worktree is at the branch of the session. -/
def SessionRepo.Attached (repo : SessionRepo κ) (name : Text) : Prop :=
  ∃ worktree, repo.worktrees name = some worktree ∧
    worktree.head = repo.branches (sessionBranch name)

end

/-! ## What a removal was checked against -/

section

variable {κ : Type u} [DecidableEq κ] {ancestors : κ → List κ} {name : Text}

namespace SessionRepo

variable {repo after : SessionRepo κ}

/-- Where git answers and there is an `origin`, a worktree without unpushed commits has no
commit that upstream lacks. -/
theorem published_of_hasUnpushedCommits {revListProbe remoteProbe : Probe}
    (none : repo.hasUnpushedCommits ancestors name revListProbe remoteProbe = false)
    (answers : remoteProbe ≠ .fails) (origin : "origin".toList ∈ repo.remotes)
    (present : (repo.worktrees name).isSome = true) :
    ∃ head upstream, (repo.worktrees name).bind CheckedOut.head = some head ∧
      repo.upstream = some upstream ∧ ∀ commit ∈ ancestors head, commit ∈ ancestors upstream := by
  unfold hasUnpushedCommits at none
  cases listed : repo.revList ancestors name revListProbe with
  | raised => simp [listed] at none
  | failed =>
      cases remoteProbe with
      | raises => simp [listed, remote] at none
      | fails => exact absurd rfl answers
      | answers =>
          simp only [listed, remote, present, if_true, decide_eq_false_iff_not] at none
          exact absurd origin none
  | printed commits =>
      simp only [listed, Bool.not_eq_false', List.isEmpty_iff] at none
      subst none
      cases revListProbe with
      | raises => cases listed
      | fails => cases listed
      | answers =>
          simp only [revList] at listed
          split at listed
          · rename_i head upstream atHead trunk
            refine ⟨head, upstream, atHead, trunk, ?_⟩
            simpa using GitAnswer.printed.inj listed
          · cases listed

/-- The repository but for its claims. -/
structure SameCommits (repo after : SessionRepo κ) : Prop where
  worktrees : after.worktrees = repo.worktrees
  branches : after.branches = repo.branches
  upstream : after.upstream = repo.upstream

omit [DecidableEq κ] in
theorem SameCommits.trans {middle : SessionRepo κ} (first : repo.SameCommits middle)
    (second : middle.SameCommits after) : repo.SameCommits after where
  worktrees := second.worktrees.trans first.worktrees
  branches := second.branches.trans first.branches
  upstream := second.upstream.trans first.upstream

omit [DecidableEq κ] in
/-- A guard touches nothing but the claims. -/
theorem sameCommits_of_deferIfClaimsAtRisk {guarded raises : Bool} {ref : Text}
    {guard : GuardCall} (call : repo.deferIfClaimsAtRisk guarded ref guard = (after, raises)) :
    repo.SameCommits after := by
  unfold deferIfClaimsAtRisk at call
  split at call
  · cases call
    exact ⟨rfl, rfl, rfl⟩
  split at call
  · cases call
    exact ⟨rfl, rfl, rfl⟩
  · cases call
    exact ⟨rfl, rfl, rfl⟩

omit [DecidableEq κ] in
/-- A guard that does not raise has seen no claim on the branch. -/
theorem unclaimed_of_deferIfClaimsAtRisk {ref : Text} {guard : GuardCall}
    (call : repo.deferIfClaimsAtRisk true ref guard = (after, false)) :
    ∀ sidecar ∈ after.sidecars, sidecar.atRisk ref = false := by
  unfold deferIfClaimsAtRisk at call
  by_cases unknown : ref.isEmpty = true
  · simp [unknown] at call
  · simp only [Bool.not_true, Bool.false_eq_true, if_false, unknown, Prod.mk.injEq,
      Bool.or_eq_false_iff, Bool.not_eq_false', List.isEmpty_iff] at call
    obtain ⟨rfl, -, none⟩ := call
    rw [claimsAtRisk, if_neg unknown, List.map_eq_nil_iff, List.filter_eq_nil_iff] at none
    intro sidecar member
    exact Bool.eq_false_iff.mpr (none sidecar member)

end SessionRepo

/-- What a removal was checked against: the probes when the serializer was acquired, and a
guard right before it. -/
structure Removal.Checked (ancestors : κ → List κ) (calls : Text → GcCalls κ)
    (removal : Removal κ) : Prop where
  probed : removal.locked.hasUnpushedCommits ancestors removal.name
    (calls removal.name).revListAgain (calls removal.name).remoteAgain = false
  upstream : removal.state.upstream = removal.locked.upstream
  branches : removal.state.branches = removal.locked.branches
  worktree : removal.removed = .worktree →
    removal.state.worktrees = removal.locked.worktrees ∧
      (removal.locked.worktrees removal.name).isSome = true
  unclaimed : removal.Unclaimed

variable {calls : Text → GcCalls κ} {locked repo : SessionRepo κ} {removals : List (Removal κ)}

/-- The deletion of the branch is checked. -/
theorem checked_deleteSessionBranch
    (probed : locked.hasUnpushedCommits ancestors name (calls name).revListAgain
      (calls name).remoteAgain = false)
    (upstream : repo.upstream = locked.upstream) (branches : repo.branches = locked.branches)
    (earlier : ∀ removal ∈ removals, removal.Checked ancestors calls) :
    ∀ removal ∈ (deleteSessionBranch true name (calls name) locked repo removals).removals,
      removal.Checked ancestors calls := by
  intro removal member
  rcases call : repo.deferIfClaimsAtRisk true (sessionBranch name) (calls name).deleteGuard with
    ⟨after, _ | _⟩
  · have same := SessionRepo.sameCommits_of_deferIfClaimsAtRisk call
    simp only [deleteSessionBranch, call] at member
    cases deletes : (calls name).deletes with
    | false =>
        rw [deletes, if_neg Bool.false_ne_true] at member
        exact earlier removal member
    | true =>
        rw [deletes, if_pos rfl] at member
        rcases List.mem_append.mp member with before | here
        · exact earlier removal before
        · cases List.mem_singleton.mp here
          constructor
          · exact probed
          · exact same.upstream.trans upstream
          · exact same.branches.trans branches
          · intro isWorktree
            cases isWorktree
          · exact SessionRepo.unclaimed_of_deferIfClaimsAtRisk call
  · simp only [deleteSessionBranch, call] at member
    exact earlier removal member

/-- Every removal of a teardown is checked. -/
theorem checked_teardown :
    ∀ removal ∈ (teardown ancestors true name (calls name) locked).removals,
      removal.Checked ancestors calls := by
  intro removal member
  unfold teardown at member
  dsimp only at member
  split at member
  · cases member
  rename_i unpushed
  have probed := Bool.eq_false_iff.mpr unpushed
  split at member
  · cases member
  rename_i checked firstCall
  split at member
  · cases member
  rename_i after secondCall
  have same := (SessionRepo.sameCommits_of_deferIfClaimsAtRisk firstCall).trans
    (SessionRepo.sameCommits_of_deferIfClaimsAtRisk secondCall)
  split at member
  · exact checked_deleteSessionBranch probed same.upstream same.branches
      (List.forall_mem_nil _) removal member
  rename_i present
  have here : Removal.Checked ancestors calls ⟨name, .worktree, locked, after⟩ := by
    constructor
    · exact probed
    · exact same.upstream
    · exact same.branches
    · intro _
      refine ⟨same.worktrees, ?_⟩
      rw [← same.worktrees]
      simpa [Option.isSome_iff_ne_none] using present
    · exact SessionRepo.unclaimed_of_deferIfClaimsAtRisk secondCall
  split at member
  · cases member
  · cases List.mem_singleton.mp member
    exact here
  · have upstream : (after.withoutWorktree name).upstream = locked.upstream := same.upstream
    have branches : (after.withoutWorktree name).branches = locked.branches := same.branches
    exact checked_deleteSessionBranch probed upstream branches
      (List.forall_mem_singleton.mpr here) removal member

/-- Every removal of a pass is checked. -/
theorem checked_gc {now idleSec : Time} {names : List Text} :
    ∀ removal ∈ (gc ancestors true now idleSec calls names repo).removals,
      removal.Checked ancestors calls := by
  induction names generalizing repo with
  | nil =>
      intro removal member
      cases member
  | cons name rest ih =>
      have round : ∀ removal ∈ (collect ancestors true now idleSec name (calls name) repo).removals,
          removal.Checked ancestors calls := by
        intro removal member
        unfold collect at member
        split at member
        · cases member
        split at member
        · cases member
        · cases member
        · cases member
        split at member
        · cases member
        split at member
        · cases member
        · exact checked_teardown removal member
      intro removal member
      simp only [gc] at member
      split at member
      · exact round removal member
      · rcases List.mem_append.mp member with first | later
        · exact round removal first
        · exact ih removal later

/-- What the collector removes was published, and no claim was on its branch: for every
repository with an `origin` in which `git remote` does not fail, and for the branch of a
worktree whose HEAD is at it. -/
theorem removals_are_published {now idleSec : Time} {names : List Text} {removal : Removal κ}
    (removes : removal ∈ (gc ancestors true now idleSec calls names repo).removals) :
    removal.Unclaimed ∧
      ("origin".toList ∈ removal.locked.remotes → (calls removal.name).remoteAgain ≠ .fails →
        (removal.removed = .branch → removal.locked.Attached removal.name) →
        removal.Published ancestors) := by
  have checked := checked_gc removal removes
  refine ⟨checked.unclaimed, ?_⟩
  intro origin answers attached tip atTip commit reaches
  have present : (removal.locked.worktrees removal.name).isSome = true := by
    cases kind : removal.removed with
    | worktree => exact (checked.worktree kind).2
    | branch =>
        obtain ⟨worktree, here, -⟩ := attached kind
        simp [here]
  obtain ⟨head, upstream, atHead, trunk, published⟩ :=
    SessionRepo.published_of_hasUnpushedCommits checked.probed answers origin present
  have same : tip = head := by
    unfold Removal.tip at atTip
    cases kind : removal.removed with
    | worktree =>
        simp only [kind, (checked.worktree kind).1, atHead, Option.some.injEq] at atTip
        exact atTip.symm
    | branch =>
        obtain ⟨worktree, here, atBranch⟩ := attached kind
        simp only [kind, checked.branches, ← atBranch] at atTip
        simp only [here, Option.bind_some, atTip, Option.some.injEq] at atHead
        exact atHead
  subst same
  exact ⟨upstream, checked.upstream.trans trunk, published commit reaches⟩

end

/-! ## A worktree that was idle for an hour -/

/-- Every call answers, and nothing is written meanwhile. -/
def quietCalls (_ : Text) : GcCalls Nat where
  revList := .answers
  remote := .answers
  others := id
  revListAgain := .answers
  remoteAgain := .answers
  guard := ⟨id, false⟩
  removeGuard := ⟨id, false⟩
  remove := .removed
  deleteGuard := ⟨id, false⟩
  deletes := true
  unlinks := true

/-- One session whose HEAD is upstream. -/
def pushedSession (modified : Bool) : SessionRepo Nat where
  worktrees name :=
    if name = "s1".toList then some ⟨.lastActivity (some 0), some 1, modified⟩ else none
  branches branch := if branch = sessionBranch "s1".toList then some 1 else none
  upstream := some 1
  remotes := ["origin".toList]
  sidecars := []

/-- The commits of a history in a line. -/
def lineage (commit : Nat) : List Nat :=
  List.range (commit + 1)

/-- The branch of a session that was pushed is deleted. -/
theorem pushed_branch_is_deleted :
    (⟨"s1".toList, .branch, pushedSession false,
      (pushedSession false).withoutWorktree "s1".toList⟩ : Removal Nat).Published lineage := by
  have removes : ⟨"s1".toList, .branch, pushedSession false,
      (pushedSession false).withoutWorktree "s1".toList⟩ ∈
        (gc lineage true 7200 3600 quietCalls ["s1".toList] (pushedSession false)).removals := by
    exact List.mem_cons_of_mem _ List.mem_cons_self
  apply (removals_are_published removes).2
  · decide
  · decide
  · intro _
    exact ⟨_, rfl, rfl⟩

/-- A worktree with a modified file is removed. -/
theorem modified_worktree_is_removed :
    ¬ ∀ (ancestors : Nat → List Nat) (now idleSec : Time) (calls : Text → GcCalls Nat)
      (names : List Text) (repo : SessionRepo Nat),
      ∀ removal ∈ (gc ancestors true now idleSec calls names repo).removals,
        removal.Published ancestors ∧ removal.Unmodified ∧ removal.Unclaimed := by
  intro always
  have removed := always lineage 7200 3600 quietCalls ["s1".toList] (pushedSession true)
    ⟨"s1".toList, .worktree, pushedSession true, pushedSession true⟩ List.mem_cons_self
  exact removed.2.1 rfl rfl

end DataOlympus
