import DataOlympus.Gate.Propose
import DataOlympus.Index.InForce
import DataOlympus.Transition.Run
import Mathlib.Tactic.NormNum

/-!
# Only a human promotes

The state of the write path between operator decisions: the tree the next commit
sits on, a live index that was built from some earlier tree, and the proposals that
have passed the tool layer and wait for their commit.  Every direct commit is
recorded with the tree it was made onto, so that a run can be judged commit by
commit, the way the index built from the trees would judge it.
-/

namespace DataOlympus

open Lines Transition

/-- A proposal that passed the tool layer, with the index and the day it was checked
against. -/
structure InFlight where
  proposal : Proposal
  checkedAgainst : Option LiveIndex
  checkedOn : Date

/-- A direct commit, with what its gates saw. -/
structure DirectCommit where
  entry : InFlight
  live : Option LiveIndex
  snapshot : Option Snapshot
  before : Tree
  today : Date

/-- The tree the commit made. -/
def DirectCommit.after (commit : DirectCommit) : Tree :=
  commit.before.write commit.entry.proposal.targetPath commit.entry.proposal.postimage

/-- The write path between operator decisions. -/
structure LaneState where
  /-- The tree the next commit sits on. -/
  tree : Tree
  /-- Every tree an index rebuild may still start from. -/
  seen : List Tree
  live : Option LiveIndex
  inFlight : List InFlight
  log : List DirectCommit

/-- The path before any proposal. -/
def LaneState.start (tree : Tree) : LaneState :=
  ⟨tree, [tree], none, [], []⟩

inductive LaneLabel where
  /-- The base moves to another committed tree. -/
  | refresh (tree : Tree)
  /-- The live index is rebuilt from an earlier tree; some of its reads may raise. -/
  | rebuild (tree : Tree) (live : LiveIndex)
  /-- No index is wired. -/
  | lose
  /-- The tool layer parks a proposal or rejects it. -/
  | park (proposal : Proposal) (today : Date)
  /-- The tool layer lets a proposal proceed to its commit. -/
  | proceed (proposal : Proposal) (today : Date)
  /-- A gate of the commit rejects or parks a proposal. -/
  | withdraw (entry : InFlight)
  /-- A proposal commits directly. -/
  | commit (entry : InFlight) (snapshot : Option Snapshot) (today : Date)

section Lane

variable (runtime : Runtime) (config : LaneConfig)

/-- One step of the write path.  A memory proposal always targets the inbox. -/
inductive LaneStep : LaneState → LaneLabel → LaneState → Prop
  | refresh (state : LaneState) (tree : Tree) :
      LaneStep state (.refresh tree) { state with tree := tree, seen := tree :: state.seen }
  | rebuild (state : LaneState) (tree : Tree) (live : LiveIndex)
      (seen : tree ∈ state.seen)
      (built : runtime.build config.toIndexConfig tree = .ok live.index) :
      LaneStep state (.rebuild tree live) { state with live := some live }
  | lose (state : LaneState) : LaneStep state .lose { state with live := none }
  | park (state : LaneState) (proposal : Proposal) (today : Date)
      (parked : ∀ demotion,
        runtime.governedLaneCheck config proposal state.live today = .ok demotion →
          config.parks proposal demotion = true) :
      LaneStep state (.park proposal today) state
  | proceed (state : LaneState) (proposal : Proposal) (today : Date)
      (demotion : Option DemotionReason)
      (memory : proposal.kind = .memory →
        proposal.targetPath.isInbox config.inboxPrefix = true)
      (checked : runtime.governedLaneCheck config proposal state.live today = .ok demotion)
      (notParked : config.parks proposal demotion = false) :
      LaneStep state (.proceed proposal today)
        { state with inFlight := ⟨proposal, state.live, today⟩ :: state.inFlight }
  | withdraw (state : LaneState) (earlier later : List InFlight) (entry : InFlight)
      (waiting : state.inFlight = earlier ++ entry :: later) :
      LaneStep state (.withdraw entry) { state with inFlight := earlier ++ later }
  | commit (state : LaneState) (earlier later : List InFlight) (entry : InFlight)
      (snapshot : Option Snapshot) (today : Date)
      (waiting : state.inFlight = earlier ++ entry :: later)
      (commits : runtime.Commits config entry.proposal state.live state.tree snapshot today) :
      LaneStep state (.commit entry snapshot today)
        { state with
          tree := state.tree.write entry.proposal.targetPath entry.proposal.postimage
          seen := state.tree.write entry.proposal.targetPath entry.proposal.postimage ::
            state.seen
          inFlight := earlier ++ later
          log := ⟨entry, state.live, snapshot, state.tree, today⟩ :: state.log }

/-! ## What every run keeps -/

/-- The proposal passed the tool layer when it was admitted. -/
structure InFlight.Admitted (entry : InFlight) : Prop where
  memory : entry.proposal.kind = .memory →
    entry.proposal.targetPath.isInbox config.inboxPrefix = true
  checked : ∃ demotion, runtime.governedLaneCheck config entry.proposal entry.checkedAgainst
    entry.checkedOn = .ok demotion ∧ config.parks entry.proposal demotion = false

/-- The commit passed the tool layer and then the gates of the commit. -/
structure DirectCommit.Gated (commit : DirectCommit) : Prop where
  admitted : commit.entry.Admitted runtime config
  commits : runtime.Commits config commit.entry.proposal commit.live commit.before
    commit.snapshot commit.today

/-- Every waiting proposal was admitted and every commit was gated. -/
structure LaneState.Consistent (state : LaneState) : Prop where
  inFlight : ∀ entry ∈ state.inFlight, entry.Admitted runtime config
  log : ∀ commit ∈ state.log, commit.Gated runtime config

theorem LaneStep.consistent :
    System.Preserves (LaneStep runtime config) (LaneState.Consistent runtime config) := by
  intro source label target step consistent
  cases step with
  | refresh tree => exact ⟨consistent.inFlight, consistent.log⟩
  | rebuild tree live seen built => exact ⟨consistent.inFlight, consistent.log⟩
  | lose => exact ⟨consistent.inFlight, consistent.log⟩
  | park proposal today parked => exact consistent
  | proceed proposal today demotion memory checked notParked =>
      constructor
      · intro entry member
        rcases List.mem_cons.mp member with rfl | old
        · exact ⟨memory, demotion, checked, notParked⟩
        · exact consistent.inFlight entry old
      · exact consistent.log
  | withdraw earlier later entry waiting =>
      constructor
      · intro other member
        apply consistent.inFlight
        rw [waiting]
        exact List.mem_append.mpr ((List.mem_append.mp member).imp_right
          (List.mem_cons_of_mem entry))
      · exact consistent.log
  | commit earlier later entry snapshot today waiting commits =>
      constructor
      · intro other member
        apply consistent.inFlight
        rw [waiting]
        exact List.mem_append.mpr ((List.mem_append.mp member).imp_right
          (List.mem_cons_of_mem entry))
      · intro commit member
        rcases List.mem_cons.mp member with rfl | old
        · exact ⟨consistent.inFlight entry (by simp [waiting]), commits⟩
        · exact consistent.log commit old

/-! ## What the lane leaves to chance -/

/-- A proposal that passes the tool layer claims no in-force status, or its demotion
was cancelled because the commit was predicted to reject it. -/
theorem InFlight.Admitted.clamp_or_cancelled {entry : InFlight}
    (admitted : entry.Admitted runtime config) (protection : config.protection = true) :
    runtime.checkStatusClamp entry.proposal.postimage = .ok none ∨
      config.secretFlagged entry.proposal = true ∨
      runtime.predictsRejection config entry.proposal entry.checkedAgainst = .ok true := by
  rcases admitted.checked with ⟨demotion, checked, notParked⟩
  unfold Runtime.governedLaneCheck at checked
  rw [if_pos protection] at checked
  rcases Except.bind_eq_ok_iff.mp checked with ⟨verdict, evaluated, decided⟩
  unfold Runtime.evaluateGovernedLane at evaluated
  rcases Except.bind_eq_ok_iff.mp evaluated with ⟨clamp, clamped, verdictOk⟩
  cases clamp with
  | none => exact .inl clamped
  | some status =>
      cases verdictOk
      simp only at decided
      split_ifs at decided with confident
      · rcases Except.bind_eq_ok_iff.mp decided with ⟨rejected, predicted, cancelled⟩
        split_ifs at cancelled with cancel
        · rcases (Bool.or_eq_true _ _).mp cancel with secret | rejects
          · exact .inr (.inl secret)
          · exact .inr (.inr (rejects ▸ predicted))
        · cases cancelled
          simp [LaneConfig.parks] at notParked
      · cases decided
        simp [LaneConfig.parks] at notParked

/-- A rejection that was predicted without the committed tree, of a postimage whose
front matter and vocabulary are fine, is a duplicate id in the live index. -/
theorem duplicate_of_predictsRejection {proposal : Proposal} {idx : Option LiveIndex}
    (predicted : runtime.predictsRejection config proposal idx = .ok true)
    {entries : Mapping} {body : Text}
    (parsed : runtime.parseFrontmatter proposal.postimage = .ok (entries, body))
    (vocabulary : runtime.vocabularyErrors entries proposal.targetPath = .ok []) :
    duplicateIdErrors entries proposal.targetPath (LiveIndex.readableMap idx) none ≠ [] := by
  rcases Except.bind_eq_ok_iff.mp predicted with ⟨errors, validated, counted⟩
  exact runtime.duplicateIdErrors_ne_nil config.toGateConfig validated (Except.ok.inj counted)
    parsed vocabulary

/-- The conditions under which the lane sees a write the way the index will. -/
structure DirectCommit.Judged (commit : DirectCommit) : Prop where
  /-- An in-force status that the index reads in the file written from the postimage
  is one the clamp sees in the postimage. -/
  statusSeen : ∀ entries,
    runtime.lenientFrontmatter (readBack commit.entry.proposal.postimage) = .ok entries →
      entries.claimedStatus ∈ inForceStatuses →
      runtime.checkStatusClamp commit.entry.proposal.postimage ≠ .ok none
  /-- The postimage is not in force by autofill alone. -/
  notAutofilled : ∀ entries,
    runtime.lenientFrontmatter (readBack commit.entry.proposal.postimage) = .ok entries →
      ¬(config.statusAutofill = true ∧
        commit.entry.proposal.targetPath.isInbox config.inboxPrefix = false ∧
        commit.entry.proposal.targetPath.isReserved = false ∧
        entries.statusMissing = true ∧
        Runtime.windowOpen (runtime.blockWindow (entries.get "validity")) commit.today = true)
  /-- The backstop covers the content about to be replaced. -/
  baseCovered : ∀ committed entries,
    commit.before.lookup commit.entry.proposal.targetPath = some committed →
      runtime.lenientFrontmatter (readBack committed) = .ok entries →
      runtime.BackstopCovers config.toIndexConfig entries commit.entry.proposal.targetPath
        commit.today
  /-- A duplicate id on which the demotion of an in-force claim was cancelled is still
  there at the commit. -/
  duplicateStands : ∀ entries body,
    runtime.parseFrontmatter commit.entry.proposal.postimage = .ok (entries, body) →
      runtime.checkStatusClamp commit.entry.proposal.postimage ≠ .ok none →
      duplicateIdErrors entries commit.entry.proposal.targetPath
        (LiveIndex.readableMap commit.entry.checkedAgainst) none ≠ [] →
      duplicateIdErrors entries commit.entry.proposal.targetPath
        (LiveIndex.readableMap commit.live)
        (some ⟨commit.before.isFile, commit.snapshot⟩) ≠ []

/-- The commit makes no document in force. -/
def DirectCommit.PromotesNothing (commit : DirectCommit) : Prop :=
  ∀ path, runtime.TreeInForce config.toIndexConfig commit.after path commit.today →
    runtime.TreeInForce config.toIndexConfig commit.before path commit.today

/-- The commit changes no document that was in force. -/
def DirectCommit.LeavesInForce (commit : DirectCommit) : Prop :=
  ∀ path, runtime.TreeInForce config.toIndexConfig commit.before path commit.today →
    commit.after.lookup path = commit.before.lookup path

namespace DirectCommit

variable {runtime config} {commit : DirectCommit}

/-- The clamp is silent on a gated postimage: a demotion could only be cancelled on a
rejection that the commit would have repeated. -/
theorem Gated.clamp_silent (gated : commit.Gated runtime config)
    (protection : config.protection = true) (judged : commit.Judged runtime config) :
    runtime.checkStatusClamp commit.entry.proposal.postimage = .ok none := by
  rcases (runtime.accepts_iff config.toGateConfig).mp gated.commits.valid with
    ⟨entries, body, parsed, vocabulary, -, noDuplicate, -⟩
  by_contra clamped
  rcases gated.admitted.clamp_or_cancelled runtime config protection with
    unclamped | secret | predicted
  · exact clamped unclamped
  · exact Bool.false_ne_true (gated.commits.notSecret.symm.trans secret)
  · exact judged.duplicateStands entries body parsed clamped
      (duplicate_of_predictsRejection runtime config predicted parsed vocabulary) noDuplicate

/-- The document a gated commit writes is not in force by its own row. -/
theorem Gated.written_not_inForce (gated : commit.Gated runtime config)
    (protection : config.protection = true) (judged : commit.Judged runtime config)
    {file : ParsedFile}
    (document : runtime.DocumentAt commit.after commit.entry.proposal.targetPath file) :
    (file.row config.toIndexConfig).inForce commit.today = false := by
  rcases document with ⟨-, committed, here, built⟩
  rw [DirectCommit.after, Tree.lookup_write, Option.some.injEq] at here
  subst committed
  rcases runtime.exists_frontmatter built with ⟨entries, found⟩
  rw [← Bool.not_eq_true, runtime.parsedFile_inForce_iff _ built found]
  rintro ⟨outside, claims | ⟨autofill, notReserved, missing⟩, isOpen⟩
  · exact judged.statusSeen entries found claims (gated.clamp_silent protection judged)
  · exact judged.notAutofilled entries found
      ⟨autofill, outside, notReserved, missing, isOpen⟩

/-- The document a gated commit replaces is not in force by its own row. -/
theorem Gated.replaced_not_inForce (gated : commit.Gated runtime config)
    (protection : config.protection = true) (judged : commit.Judged runtime config)
    {file : ParsedFile}
    (document : runtime.DocumentAt commit.before commit.entry.proposal.targetPath file) :
    (file.row config.toIndexConfig).inForce commit.today = false := by
  rcases document with ⟨-, committed, here, built⟩
  rcases runtime.exists_frontmatter built with ⟨entries, found⟩
  rw [← Bool.not_eq_true, runtime.parsedFile_inForce_iff _ built found]
  intro inForce
  cases kind : commit.entry.proposal.kind with
  | memory =>
      have inbox := gated.admitted.memory kind
      exact Bool.false_ne_true (inForce.1.symm.trans inbox)
  | edit =>
      have protects := (runtime.covers_iff config.toIndexConfig).mpr
        (judged.baseCovered committed entries here found) inForce
      have backstop := gated.commits.notProtected
      simp only [Runtime.backstopDemotes, protection, kind, here, decide_true, Bool.and_self,
        if_true] at backstop
      have demotes := (runtime.isBaseContentInForce_eq_true_iff found).mpr protects
      cases backstop.symm.trans demotes

theorem documentAt_after_of_ne {path : RelPath} {file : ParsedFile}
    (different : path ≠ commit.entry.proposal.targetPath) :
    runtime.DocumentAt commit.after path file ↔ runtime.DocumentAt commit.before path file := by
  simp only [Runtime.DocumentAt, DirectCommit.after,
    Tree.lookup_write_of_ne commit.before _ different]

theorem Gated.promotesNothing (gated : commit.Gated runtime config)
    (protection : config.protection = true) (judged : commit.Judged runtime config) :
    commit.PromotesNothing runtime config := by
  rintro path ⟨file, document, inForce, current⟩
  by_cases written : path = commit.entry.proposal.targetPath
  · subst path
    have notInForce := gated.written_not_inForce protection judged document
    exact absurd (notInForce.symm.trans inForce) Bool.false_ne_true
  · refine ⟨file, (documentAt_after_of_ne written).mp document, inForce, ?_⟩
    rintro ⟨source, sourceFile, sourceDocument, sourceInForce, member⟩
    by_cases replaced : source = commit.entry.proposal.targetPath
    · subst source
      have notInForce := gated.replaced_not_inForce protection judged sourceDocument
      exact absurd (notInForce.symm.trans sourceInForce) Bool.false_ne_true
    · exact current ⟨source, sourceFile, (documentAt_after_of_ne replaced).mpr sourceDocument,
        sourceInForce, member⟩

theorem Gated.leavesInForce (gated : commit.Gated runtime config)
    (protection : config.protection = true) (judged : commit.Judged runtime config) :
    commit.LeavesInForce runtime config := by
  rintro path ⟨file, document, inForce, -⟩
  by_cases written : path = commit.entry.proposal.targetPath
  · subst path
    have notInForce := gated.replaced_not_inForce protection judged document
    exact absurd (notInForce.symm.trans inForce) Bool.false_ne_true
  · exact Tree.lookup_write_of_ne commit.before _ written

end DirectCommit

/-- In every run of the write path with protection on, whose direct commits are all
judged by the lane the way the index will judge them, no direct commit promotes a
document and none changes a document in force. -/
theorem direct_commits_promote_nothing (protection : config.protection = true)
    {tree : Tree} {labels : List LaneLabel} {state : LaneState}
    (run : Run (LaneStep runtime config) (LaneState.start tree) labels state)
    (judged : ∀ commit ∈ state.log, commit.Judged runtime config) :
    ∀ commit ∈ state.log, commit.PromotesNothing runtime config ∧
      commit.LeavesInForce runtime config := by
  have initially : (LaneState.start tree).Consistent runtime config := by
    constructor
    · intro entry impossible
      cases impossible
    · intro commit impossible
      cases impossible
  have consistent := run.invariant (LaneStep.consistent runtime config) initially
  intro commit member
  have gated := consistent.log commit member
  exact ⟨gated.promotesNothing protection (judged commit member),
    gated.leavesInForce protection (judged commit member)⟩

/-- A proposal that passes the tool layer right after a rebuild, and then the gates of
the commit, is committed. -/
theorem run_rebuild_commit {tree : Tree} {live : LiveIndex} {proposal : Proposal}
    {demotion : Option DemotionReason} {today : Date}
    (built : runtime.build config.toIndexConfig tree = .ok live.index)
    (memory : proposal.kind = .memory →
      proposal.targetPath.isInbox config.inboxPrefix = true)
    (checked : runtime.governedLaneCheck config proposal (some live) today = .ok demotion)
    (notParked : config.parks proposal demotion = false)
    (commits : runtime.Commits config proposal (some live) tree (runtime.snapshotOf tree)
      today) :
    ∃ labels state, Run (LaneStep runtime config) (LaneState.start tree) labels state ∧
      state.log =
        [⟨⟨proposal, some live, today⟩, some live, runtime.snapshotOf tree, tree, today⟩] := by
  have rebuilt : Run (LaneStep runtime config) (LaneState.start tree) [.rebuild tree live]
      { LaneState.start tree with live := some live } :=
    Run.single (LaneStep.rebuild _ tree live List.mem_cons_self built)
  have proceeded := Run.tail rebuilt
    (LaneStep.proceed _ proposal today demotion memory checked notParked)
  exact ⟨_, _, Run.tail proceeded (LaneStep.commit _ [] [] _ _ today rfl commits), rfl⟩

end Lane

/-! ## Two runs on one draft -/

/-- The loader on the block of a draft. -/
def draftRuntime : Runtime :=
  Runtime.ofBlocks [("status: draft".toList,
    .dict [(.str (PyStr.lit "status"), .str (PyStr.lit "draft"))])]

/-- A default deployment with protection on. -/
def LaneConfig.default : LaneConfig where
  toGateConfig := GateConfig.default
  confidenceThreshold := 17 / 20
  protection := true

/-- A tree with one draft. -/
def draftTree : Tree :=
  Tree.write ∅ rulePath "---\nstatus: draft\n---\nAsk first.".toList

/-- The index built from that tree. -/
def draftIndex : Index :=
  (draftRuntime.build IndexConfig.default draftTree).toOption.getD ⟨[], [], 0, 0⟩

/-- An edit of the draft with full confidence. -/
def draftEdit (postimage : Text) : Proposal where
  kind := .edit
  targetPath := rulePath
  postimage := postimage
  confidence := some 1
  canAutoCommit := true
  contest := false

theorem parks_draftEdit (postimage : Text) :
    LaneConfig.default.parks (draftEdit postimage) none = false := by
  norm_num [LaneConfig.parks, LaneConfig.default, draftEdit]

/-- An edit that keeps the draft a draft commits and promotes nothing. -/
theorem kept_draft_promotes_nothing :
    ∃ labels state commit,
      Run (LaneStep draftRuntime LaneConfig.default) (LaneState.start draftTree) labels state ∧
        commit ∈ state.log ∧
        commit.PromotesNothing draftRuntime LaneConfig.default ∧
        commit.LeavesInForce draftRuntime LaneConfig.default := by
  have built : draftRuntime.build IndexConfig.default draftTree =
      .ok (LiveIndex.healthy draftIndex).index := rfl
  have commits : draftRuntime.Commits LaneConfig.default
      (draftEdit "---\nstatus: draft\n---\nAsk twice.".toList)
      (some (LiveIndex.healthy draftIndex)) draftTree (draftRuntime.snapshotOf draftTree)
      ⟨2026, 8, 1⟩ := ⟨rfl, .inr rfl, rfl, rfl⟩
  rcases run_rebuild_commit draftRuntime LaneConfig.default built (fun edit => absurd edit (by decide)) rfl (parks_draftEdit _)
    commits with
    ⟨labels, state, run, log⟩
  refine ⟨labels, state, _, run, log ▸ List.mem_cons_self, ?_⟩
  refine direct_commits_promote_nothing draftRuntime LaneConfig.default rfl run ?_ _
    (log ▸ List.mem_cons_self)
  intro commit member
  rw [log, List.mem_singleton] at member
  subst commit
  have read : ∀ {text : Text} {entries : Mapping},
      Block.yamlText text = some "status: draft".toList →
      draftRuntime.lenientFrontmatter text = .ok entries →
      entries = [(.str (PyStr.lit "status"), .str (PyStr.lit "draft"))] := by
    intro text entries block found
    have loaded : draftRuntime.lenientFrontmatter text =
        .ok [(.str (PyStr.lit "status"), .str (PyStr.lit "draft"))] :=
      draftRuntime.lenientFrontmatter_of_yamlText_some block rfl
    exact (Except.ok.inj (loaded.symm.trans found)).symm
  constructor
  · intro entries found claims
    rw [read rfl found] at claims
    exact absurd claims (by decide)
  · intro entries found missing
    rw [read rfl found] at missing
    exact absurd missing.2.2.2.1 (by decide)
  · intro committed entries here found
    cases (show some "---\nstatus: draft\n---\nAsk first.".toList = some committed from here)
    rw [read rfl found]
    refine .inr ⟨fun missing => absurd missing.2.2.1 (by decide), ?_⟩
    intro block value
    simp [Mapping.get, Value.isStr, PyStr.lit, PyStr.ofText] at value
  · intro entries body parsed clamped
    exact absurd rfl clamped

/-- An edit that leaves out the front matter of a draft commits directly, and the
index then serves the document as in force. -/
theorem dropped_status_promotes :
    ∃ labels state commit,
      Run (LaneStep draftRuntime LaneConfig.default) (LaneState.start draftTree) labels state ∧
        commit ∈ state.log ∧
        commit.after.lookup rulePath = some "Never ask.".toList ∧
        ¬commit.PromotesNothing draftRuntime LaneConfig.default := by
  have built : draftRuntime.build IndexConfig.default draftTree =
      .ok (LiveIndex.healthy draftIndex).index := rfl
  have commits : draftRuntime.Commits LaneConfig.default (draftEdit "Never ask.".toList)
      (some (LiveIndex.healthy draftIndex)) draftTree (draftRuntime.snapshotOf draftTree)
      ⟨2026, 8, 1⟩ := ⟨rfl, .inr rfl, rfl, rfl⟩
  rcases run_rebuild_commit draftRuntime LaneConfig.default built (fun edit => absurd edit (by decide)) rfl (parks_draftEdit _)
    commits with
    ⟨labels, state, run, log⟩
  refine ⟨labels, state, _, run, log ▸ List.mem_cons_self, rfl, ?_⟩
  intro promotesNothing
  have after : ∃ index, draftRuntime.build IndexConfig.default
      (draftTree.write rulePath "Never ask.".toList) = .ok index ∧
        ∃ row ∈ index.rows, row.path = rulePath ∧ index.inForce ⟨2026, 8, 1⟩ row = true :=
    ⟨_, rfl, by decide⟩
  rcases after with ⟨index, builtAfter, inForce⟩
  have before := promotesNothing rulePath
    ((draftRuntime.built_inForce_iff IndexConfig.default builtAfter).mp inForce)
  have wasInForce := (draftRuntime.built_inForce_iff IndexConfig.default built).mpr before
  exact absurd wasInForce (by decide)

end DataOlympus
