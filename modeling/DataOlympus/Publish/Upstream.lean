import DataOlympus.Publish.Session
import DataOlympus.Transition.Run

/-!
# The published branch

Any number of session branches start at trees of the trunk, commit what the gate
accepts, refresh onto the trunk and push fast-forward.  A push that is recovered by a
rebase is a refresh and then a push, between which others may push.  A rebase conflict
parks the commit and moves no branch, so it is no step.
-/

namespace DataOlympus

open Lines Transition

/-- The trunk, the live index and the session worktrees. -/
structure PublishState where
  trunk : History
  live : Option LiveIndex
  sessions : Text → Option Session

/-- The first tree, with no session and no index yet. -/
def PublishState.start (tree : Tree) : PublishState :=
  ⟨⟨tree, []⟩, none, fun _ => none⟩

/-- The state with one session replaced. -/
def PublishState.assign (state : PublishState) (name : Text) (entry : Option Session) :
    PublishState :=
  { state with sessions := Function.update state.sessions name entry }

/-- The state after a session has published its branch. -/
def PublishState.publish (state : PublishState) (name : Text) (session : Session) :
    PublishState :=
  let trunk : History := ⟨session.head, state.trunk.trees⟩
  { state.assign name (some (session.pushed trunk)) with trunk := trunk }

inductive PublishLabel where
  /-- A worktree is created from a tree the trunk has had. -/
  | create (name : Text) (base : History)
  /-- A worktree is collected. -/
  | collect (name : Text)
  /-- A proposal, or a bundle, is accepted and committed. -/
  | commit (name : Text) (batch : Batch) (snapshot : Option Snapshot)
  | refresh (name : Text) (merge : RelPath → Option Text)
  | push (name : Text)
  /-- The live index is rebuilt from a published tree; some of its reads may raise. -/
  | rebuild (tree : Tree) (live : LiveIndex)
  /-- No index is wired. -/
  | lose

section Publish

variable (runtime : Runtime) (config : GateConfig)

inductive PublishStep : PublishState → PublishLabel → PublishState → Prop
  | create (state : PublishState) (name : Text) (base : History)
      (published : base.trees <:+ state.trunk.trees) :
      PublishStep state (.create name base)
        (state.assign name (some (.start base)))
  | collect (state : PublishState) (name : Text) :
      PublishStep state (.collect name) (state.assign name none)
  | commit (state : PublishState) (name : Text) (session : Session) (batch : Batch)
      (snapshot : Option Snapshot) (here : state.sessions name = some session)
      (read : snapshot = none ∨ snapshot = runtime.snapshotOf session.head)
      (gated : runtime.BatchAccepted config (LiveIndex.readableMap state.live)
        ⟨session.head.isFile, snapshot⟩ batch) :
      PublishStep state (.commit name batch snapshot)
        (state.assign name
          (some (session.commit batch snapshot (LiveIndex.readableMap state.live))))
  | refresh (state : PublishState) (name : Text) (session rebased : Session)
      (merge : RelPath → Option Text) (here : state.sessions name = some session)
      (done : session.rebase state.trunk merge = some rebased) :
      PublishStep state (.refresh name merge) (state.assign name (some rebased))
  | push (state : PublishState) (name : Text) (session : Session)
      (here : state.sessions name = some session)
      (fastForward : session.base = state.trunk) :
      PublishStep state (.push name) (state.publish name session)
  | rebuild (state : PublishState) (tree : Tree) (live : LiveIndex)
      (published : tree ∈ state.trunk.trees)
      (built : runtime.build config.toIndexConfig tree = .ok live.index) :
      PublishStep state (.rebuild tree live) { state with live := some live }
  | lose (state : PublishState) : PublishStep state .lose { state with live := none }

/-- Every session branch holds what the gate accepted. -/
def PublishState.Sound (state : PublishState) : Prop :=
  ∀ name session, state.sessions name = some session → session.Sound runtime config

/-- No published tree holds an id twice. -/
def PublishState.UniqueIds (state : PublishState) : Prop :=
  ∀ tree ∈ state.trunk.trees, runtime.UniqueIds tree

/-- A branch that is pushed is clear. -/
def PushesClear (state : PublishState) (label : PublishLabel) : Prop :=
  ∀ name session, label = .push name → state.sessions name = some session →
    session.Clear runtime

variable {runtime config}

theorem pushesClear_of_ne {state : PublishState} {label : PublishLabel}
    (noPush : ∀ name, label ≠ .push name) : PushesClear runtime state label := by
  intro name session same
  exact absurd same (noPush name)

theorem PublishState.Sound.assign {state : PublishState}
    (sound : state.Sound runtime config) {name : Text} {entry : Option Session}
    (entrySound : ∀ session, entry = some session → session.Sound runtime config) :
    (state.assign name entry).Sound runtime config := by
  intro other session found
  by_cases same : other = name
  · subst other
    simp only [PublishState.assign, Function.update_self] at found
    exact entrySound session found
  · simp only [PublishState.assign, Function.update_of_ne same] at found
    exact sound other session found

theorem PublishStep.sound :
    System.Preserves (PublishStep runtime config) (PublishState.Sound runtime config) := by
  intro source label target step sound
  cases step with
  | create name base published =>
      apply sound.assign
      intro session created
      cases created
      exact Session.sound_start base
  | collect name =>
      apply sound.assign
      intro session created
      cases created
  | commit name session batch snapshot here read gated =>
      apply sound.assign
      intro after committed
      cases committed
      exact (sound name session here).commit read gated
  | refresh name session rebased merge here done =>
      apply sound.assign
      intro after refreshed
      cases refreshed
      exact (sound name session here).rebase done
  | push name session here fastForward =>
      intro other after found
      apply sound.assign _ other after found
      intro after pushed
      cases pushed
      exact Session.Sound.pushed _ rfl
  | rebuild tree live published built => exact sound
  | lose => exact sound

/-- Published trees stay published. -/
theorem PublishStep.trees_subset {source target : PublishState} {label : PublishLabel}
    (step : PublishStep runtime config source label target) :
    source.trunk.trees ⊆ target.trunk.trees := by
  cases step with
  | push name session here fastForward => exact List.subset_cons_self _ _
  | _ => exact List.Subset.refl _

/-- A step publishes a tree with a repeated id exactly when it pushes a branch that is
not clear. -/
theorem PublishStep.uniqueIds_iff {source target : PublishState} {label : PublishLabel}
    (step : PublishStep runtime config source label target)
    (sound : source.Sound runtime config) (unique : source.UniqueIds runtime) :
    target.UniqueIds runtime ↔ PushesClear runtime source label := by
  cases step with
  | push name session here fastForward =>
      have baseUnique : runtime.UniqueIds session.base.tip := by
        rw [fastForward]
        exact unique _ List.mem_cons_self
      have headUnique := Session.uniqueIds_head_iff (sound name session here) baseUnique
      constructor
      · intro uniqueAfter name' session' label_eq there
        cases label_eq
        rw [here, Option.some.injEq] at there
        subst session'
        exact headUnique.mp (uniqueAfter _ List.mem_cons_self)
      · intro clear tree member
        rcases List.mem_cons.mp member with rfl | before
        · exact headUnique.mpr (clear name session rfl here)
        · exact unique tree before
  | _ =>
      constructor
      · intro _
        exact pushesClear_of_ne nofun
      · intro _
        exact unique

/-- In every run that starts at a tree without repeated ids, the published trees hold no
id twice, and no build of them raises a duplicate-id error, exactly when every pushed
branch is clear. -/
theorem published_ids_unique_iff {tree : Tree} {labels : List PublishLabel}
    {state : PublishState} (once : runtime.UniqueIds tree)
    (run : Run (PublishStep runtime config) (.start tree) labels state) :
    (∀ published ∈ state.trunk.trees, runtime.UniqueIds published ∧
      ∀ repeated, runtime.build config.toIndexConfig published ≠
        .error (.duplicateId repeated)) ↔
      Run (System.restrict (PublishStep runtime config) (PushesClear runtime))
        (.start tree) labels state := by
  have sound : (PublishState.start tree).Sound runtime config := by
    intro name session impossible
    cases impossible
  have unique : (PublishState.start tree).UniqueIds runtime := by
    intro published member
    cases List.mem_singleton.mp member
    exact once
  have exactly : state.UniqueIds runtime ↔ Run (System.restrict (PublishStep runtime config)
      (PushesClear runtime)) (.start tree) labels state := by
    apply Run.iff_restrict PublishStep.sound _ _ run sound unique
    · intro source label target step soundSource uniqueSource
      exact step.uniqueIds_iff soundSource uniqueSource
    · intro source label target step uniqueTarget published member
      exact uniqueTarget published (step.trees_subset member)
  rw [← exactly]
  constructor
  · intro published tree' member
    exact (published tree' member).1
  · intro uniqueState published member
    have here := uniqueState published member
    exact ⟨here, runtime.build_ne_duplicateId _ here.distinctIds⟩

end Publish

/-! ## Two sessions -/

/-- A draft that claims the id `x`. -/
def claimant : Text :=
  "---\nid: x\nstatus: draft\n---\n".toList

/-- The loader on its block. -/
def claimantRuntime : Runtime :=
  Runtime.ofBlocks [("id: x\nstatus: draft".toList,
    .dict [(.str (PyStr.lit "id"), .str (PyStr.lit "x")),
      (.str (PyStr.lit "status"), .str (PyStr.lit "draft"))])]

theorem claimant_uniqueIds_empty : claimantRuntime.UniqueIds ∅ := by
  rintro path other id ⟨-, committed, -, impossible, -⟩
  simp at impossible

/-- The gate accepts the draft on an empty branch, as a rule and as a memory. -/
theorem claimant_accepted :
    let worktree : Worktree := ⟨Tree.isFile ∅, claimantRuntime.snapshotOf ∅⟩
    claimantRuntime.Accepts GateConfig.default rulePath claimant none (some worktree) [] ∧
      claimantRuntime.Accepts GateConfig.default inboxPath claimant none (some worktree) [] :=
  ⟨rfl, rfl⟩

/-- A session starts at the empty tree and commits the draft. -/
theorem run_claimant {state : PublishState} (published : [∅] <:+ state.trunk.trees)
    (unindexed : state.live = none) (name : Text) {path : RelPath}
    (accepted : claimantRuntime.Accepts GateConfig.default path claimant none
      (some ⟨Tree.isFile ∅, claimantRuntime.snapshotOf ∅⟩) []) :
    Run (System.restrict (PublishStep claimantRuntime GateConfig.default)
        (PushesClear claimantRuntime)) state
      [.create name ⟨∅, []⟩,
        .commit name (.document path claimant) (claimantRuntime.snapshotOf ∅)]
      (state.assign name (some ((Session.start ⟨∅, []⟩).commit (.document path claimant)
        (claimantRuntime.snapshotOf ∅) none))) := by
  have created : PublishStep claimantRuntime GateConfig.default state
      (.create name ⟨∅, []⟩) (state.assign name (some (.start ⟨∅, []⟩))) :=
    PublishStep.create state name ⟨∅, []⟩ published
  have gated : claimantRuntime.BatchAccepted GateConfig.default
      (LiveIndex.readableMap state.live) ⟨Tree.isFile ∅, claimantRuntime.snapshotOf ∅⟩
      (.document path claimant) := by
    rw [unindexed]
    constructor
    · exact List.nodup_singleton path
    · intro files impossible
      cases impossible
    · intro file member
      cases List.mem_singleton.mp member
      exact accepted
  have committed := PublishStep.commit (state.assign name (some (.start ⟨∅, []⟩))) name
    (.start ⟨∅, []⟩) (.document path claimant) (claimantRuntime.snapshotOf ∅)
    (Function.update_self _ _ _) (.inr rfl) gated
  have same : (state.assign name (some (.start ⟨∅, []⟩))).assign name
      (some ((Session.start ⟨∅, []⟩).commit (.document path claimant)
        (claimantRuntime.snapshotOf ∅) (LiveIndex.readableMap state.live))) =
      state.assign name (some ((Session.start ⟨∅, []⟩).commit (.document path claimant)
        (claimantRuntime.snapshotOf ∅) none)) := by
    simp [PublishState.assign, unindexed, LiveIndex.readableMap]
  rw [← same]
  exact Run.tail (Run.single ⟨pushesClear_of_ne nofun, created⟩)
    ⟨pushesClear_of_ne nofun, committed⟩

/-- A session that publishes the only document keeps the ids unique. -/
theorem lone_session_keeps_ids_unique :
    claimantRuntime.UniqueIds (Tree.write ∅ rulePath claimant) ∧
      ∀ repeated, claimantRuntime.build GateConfig.default.toIndexConfig
        (Tree.write ∅ rulePath claimant) ≠ .error (.duplicateId repeated) := by
  have claimed := run_claimant (List.suffix_refl _ : _ <:+ (PublishState.start ∅).trunk.trees) rfl ['a']
    claimant_accepted.1
  have pushed := Run.tail claimed.of_restrict (PublishStep.push _ ['a'] _ rfl rfl)
  apply (published_ids_unique_iff claimant_uniqueIds_empty pushed).mpr _ _ List.mem_cons_self
  apply Run.tail claimed
  constructor
  · rintro name session label_eq here
    cases label_eq
    cases here
    rintro path member other different _ _ id _ ⟨-, committed, -, found, -⟩
    have written : path = rulePath := List.mem_singleton.mp member
    subst path
    have onlyRule := Tree.lookup_write_of_ne ∅ claimant different
    rw [AList.lookup_empty] at onlyRule
    cases found.symm.trans onlyRule
  · exact PublishStep.push _ ['a'] _ rfl rfl

/-- A push that is recovered by a rebase publishes the id of another session's document
a second time, and the index can no longer be built. -/
theorem recovered_push_repeats_id :
    claimantRuntime.UniqueIds ∅ ∧
      ∃ labels state, Run (PublishStep claimantRuntime GateConfig.default) (.start ∅) labels
        state ∧
        claimantRuntime.build GateConfig.default.toIndexConfig state.trunk.tip =
          .error (.duplicateId [(PyStr.lit "x", [inboxPath, rulePath])]) := by
  have first : Run _ (PublishState.start ∅) _ _ :=
    run_claimant (List.suffix_refl _) rfl ['a'] claimant_accepted.1
  have second := first.trans
    (run_claimant (List.suffix_refl _) rfl ['b'] claimant_accepted.2)
  have published := Run.tail second.of_restrict (PublishStep.push _ ['a'] _ rfl rfl)
  have rebased := Run.tail published (PublishStep.refresh _ ['b'] _ _ (fun _ => none) rfl rfl)
  have recovered := Run.tail rebased (PublishStep.push _ ['b'] _ rfl rfl)
  exact ⟨claimant_uniqueIds_empty, _, _, recovered, rfl⟩

end DataOlympus
