import DataOlympus.Gate.Promotion
import DataOlympus.Merge.Combine
import DataOlympus.Publish.Session

/-!
# Where published content comes from

A session branch is a list of commits, each of one file that the gates let through.  A
refresh replays them on the trunk, file by file and without the gates, and a push publishes
each of them.  This module says what published files are made of, and who changes a
document that is in force.
-/

namespace DataOlympus

open Lines ThreeWay Transition

/-- Who lets a write through. -/
inductive Authority where
  /-- It commits directly. -/
  | agent
  /-- An operator resolves a pending entry, with or without `override_secret_scan`. -/
  | operator (overrideSecretScan : Bool)

/-- A committed write, with what its gates saw. -/
structure CommittedWrite where
  proposal : Proposal
  authority : Authority
  idx : Option LiveIndex
  /-- The committed tree of the worktree. -/
  against : Tree
  /-- What the gates could read of it. -/
  snapshot : Option Snapshot
  today : Date

/-- A commit of a session branch. -/
structure BranchCommit where
  write : CommittedWrite
  /-- A rebase has put it on another version of its file. -/
  merged : Bool
  tree : Tree

/-- The file that the commit changes. -/
def BranchCommit.path (commit : BranchCommit) : RelPath :=
  commit.write.proposal.targetPath

/-- A session branch, its first commit first. -/
structure SessionBranch where
  base : History
  commits : List BranchCommit

/-- A commit on the trunk, on top of the tree before it. -/
structure Publication where
  before : Tree
  commit : BranchCommit
  today : Date

/-- The trunk after more commits. -/
def History.extend : History → List Tree → History
  | trunk, [] => trunk
  | trunk, tree :: rest => History.extend ⟨tree, trunk.trees⟩ rest

/-- The tree with a file replaced or removed. -/
def Tree.put (tree : Tree) (path : RelPath) : Option Text → Tree
  | some content => tree.write path content
  | none => tree.erase path

theorem History.mem_extend {trunk : History} {trees : List Tree} {version : Tree} :
    version ∈ (trunk.extend trees).trees ↔ version ∈ trees ∨ version ∈ trunk.trees := by
  induction trees generalizing trunk with
  | nil => simp [extend]
  | cons tree rest ih =>
      rw [extend, ih, List.mem_cons]
      simp only [trees, List.mem_cons]
      tauto

theorem Tree.lookup_put (tree : Tree) (path : RelPath) (content : Option Text) :
    (tree.put path content).lookup path = content := by
  cases content with
  | some text => exact Tree.lookup_write tree path text
  | none => exact AList.lookup_erase path tree

theorem Tree.lookup_put_of_ne (tree : Tree) {path other : RelPath} (content : Option Text)
    (different : other ≠ path) : (tree.put path content).lookup other = tree.lookup other := by
  cases content with
  | some text => exact Tree.lookup_write_of_ne tree text different
  | none => exact AList.lookup_erase_ne different

namespace SessionBranch

/-- The tree at the end of a branch that starts at `tree`. -/
def tipAfter : Tree → List BranchCommit → Tree
  | tree, [] => tree
  | _, commit :: rest => tipAfter commit.tree rest

def head (branch : SessionBranch) : Tree :=
  tipAfter branch.base.tip branch.commits

/-- A write is committed. -/
def commit (branch : SessionBranch) (write : CommittedWrite) : SessionBranch :=
  let made : BranchCommit := {
    write
    merged := false
    tree := branch.head.write write.proposal.targetPath write.proposal.postimage }
  { branch with commits := branch.commits ++ [made] }

/-- The commits behind `before` one after another on top of `onto`, unless one of them
conflicts.  Git leaves out those that the trunk has already. -/
def rebaseOnto (merge : Merge (Option Text)) (leftOut : BranchCommit → Bool) :
    (before onto : Tree) → List BranchCommit → Option (List BranchCommit)
  | _, _, [] => some []
  | before, onto, commit :: rest =>
      if leftOut commit then rebaseOnto merge leftOut commit.tree onto rest
      else
        let path := commit.path
        (merge.merge (before.lookup path) (onto.lookup path) (commit.tree.lookup path)).bind
          fun content =>
            let picked : BranchCommit := { commit with
              merged := commit.merged || onto.lookup path ≠ before.lookup path
              tree := onto.put path content }
            (rebaseOnto merge leftOut commit.tree picked.tree rest).map fun copies =>
              picked :: copies

/-- `git rebase` onto the trunk; a conflict aborts it. -/
def rebase (merge : Merge (Option Text)) (leftOut : BranchCommit → Bool)
    (branch : SessionBranch) (trunk : History) : Option SessionBranch :=
  (rebaseOnto merge leftOut branch.base.tip trunk.tip branch.commits).map fun commits =>
    ⟨trunk, commits⟩

/-- What a push publishes. -/
def publications (today : Date) : Tree → List BranchCommit → List Publication
  | _, [] => []
  | before, commit :: rest => ⟨before, commit, today⟩ :: publications today commit.tree rest

end SessionBranch

/-- The trunk and the session branches; the writes that were committed, the trees that
others put on the trunk, and what the sessions published. -/
structure UpstreamState where
  trunk : History
  sessions : Text → Option SessionBranch
  writes : List CommittedWrite
  foreign : List Tree
  log : List Publication

namespace UpstreamState

/-- The first tree, with no session yet. -/
def start (tree : Tree) : UpstreamState :=
  ⟨⟨tree, []⟩, fun _ => none, [], [tree], []⟩

/-- The state with one session replaced. -/
def assign (state : UpstreamState) (name : Text) (branch : Option SessionBranch) :
    UpstreamState :=
  { state with sessions := Function.update state.sessions name branch }

/-- The state after a session has pushed its branch. -/
def publish (state : UpstreamState) (name : Text) (branch : SessionBranch) (today : Date) :
    UpstreamState :=
  let trunk := state.trunk.extend (branch.commits.map BranchCommit.tree)
  { state.assign name (some ⟨trunk, []⟩) with
    trunk
    log := state.log ++ SessionBranch.publications today branch.base.tip branch.commits }

end UpstreamState

inductive UpstreamLabel where
  /-- A worktree is created from a tree the trunk has had. -/
  | create (name : Text) (base : History)
  /-- A worktree is collected. -/
  | collect (name : Text)
  | commit (name : Text) (write : CommittedWrite)
  | refresh (name : Text) (leftOut : BranchCommit → Bool)
  | push (name : Text) (today : Date)
  /-- Others push. -/
  | others (trees : List Tree)

section Upstream

variable (runtime : Runtime) (config : LaneConfig) (merge : Merge (Option Text))

/-- The gates of `_commit_in_worktree` let the write through.  A memory goes to the inbox,
and git declines a commit without a change. -/
structure CommittedWrite.Gated (write : CommittedWrite) : Prop where
  scanned : write.authority = .operator true ∨ config.secretFlagged write.proposal = false
  snapshotRead : write.snapshot = none ∨ write.snapshot = runtime.snapshotOf write.against
  valid : runtime.Accepts config.toGateConfig write.proposal.targetPath
    write.proposal.postimage (LiveIndex.readableMap write.idx)
    (some ⟨write.against.isFile, write.snapshot⟩) []
  notProtected : write.authority = .agent →
    runtime.backstopDemotes config write.proposal write.against write.today = .ok false
  memory : write.authority = .agent → write.proposal.kind = .memory →
    write.proposal.targetPath.isInbox config.inboxPrefix = true
  changes : write.against.lookup write.proposal.targetPath ≠ some write.proposal.postimage

inductive UpstreamStep : UpstreamState → UpstreamLabel → UpstreamState → Prop
  | create (state : UpstreamState) (name : Text) (base : History)
      (published : base.trees <:+ state.trunk.trees) :
      UpstreamStep state (.create name base) (state.assign name (some ⟨base, []⟩))
  | collect (state : UpstreamState) (name : Text) :
      UpstreamStep state (.collect name) (state.assign name none)
  | commit (state : UpstreamState) (name : Text) (branch : SessionBranch)
      (write : CommittedWrite) (here : state.sessions name = some branch)
      (onto : write.against = branch.head) (gated : write.Gated runtime config) :
      UpstreamStep state (.commit name write)
        { state.assign name (some (branch.commit write)) with
          writes := write :: state.writes }
  | refresh (state : UpstreamState) (name : Text) (branch rebased : SessionBranch)
      (leftOut : BranchCommit → Bool) (here : state.sessions name = some branch)
      (done : branch.rebase merge leftOut state.trunk = some rebased) :
      UpstreamStep state (.refresh name leftOut) (state.assign name (some rebased))
  | push (state : UpstreamState) (name : Text) (branch : SessionBranch) (today : Date)
      (here : state.sessions name = some branch) (fastForward : branch.base = state.trunk) :
      UpstreamStep state (.push name today) (state.publish name branch today)
  | others (state : UpstreamState) (trees : List Tree) :
      UpstreamStep state (.others trees)
        { state with
          trunk := state.trunk.extend trees
          foreign := trees ++ state.foreign }

/-- Others put the content at `path`, or it is the postimage of a write to `path` that the
gates let through. -/
def UpstreamState.Brought (state : UpstreamState) (path : RelPath) (content : Option Text) :
    Prop :=
  (∃ tree ∈ state.foreign, tree.lookup path = content) ∨
    ∃ write ∈ state.writes, write.Gated runtime config ∧
      write.proposal.targetPath = path ∧ content = some write.proposal.postimage

/-- The content was brought in, or merges made it of such content of the same path. -/
def UpstreamState.Sourced (state : UpstreamState) (path : RelPath) (content : Option Text) :
    Prop :=
  merge.Generated (state.Brought runtime config path) content

/-! ## The commits of a branch -/

section Branch

variable (brought : RelPath → Option Text → Prop)

/-- The commit changes one file of the tree before it, which was gated if no rebase put it
on another version. -/
structure BranchCommit.Grounded (before : Tree) (commit : BranchCommit) : Prop where
  gated : commit.write.Gated runtime config
  elsewhere : ∀ path, path ≠ commit.path → commit.tree.lookup path = before.lookup path
  sourced : merge.Generated (brought commit.path) (commit.tree.lookup commit.path)
  unmerged : commit.merged = false →
    commit.tree.lookup commit.path = some commit.write.proposal.postimage ∧
      before.lookup commit.path = commit.write.against.lookup commit.path

/-- Every commit is grounded on the tree before it. -/
def SessionBranch.Grounded : Tree → List BranchCommit → Prop
  | _, [] => True
  | before, commit :: rest =>
      commit.Grounded runtime config merge brought before ∧
        SessionBranch.Grounded commit.tree rest

variable {runtime config merge brought}

theorem BranchCommit.Grounded.mono {further : RelPath → Option Text → Prop} {before : Tree}
    {commit : BranchCommit} (grounded : commit.Grounded runtime config merge brought before)
    (grows : ∀ path content, brought path content → further path content) :
    commit.Grounded runtime config merge further before :=
  { grounded with sourced := grounded.sourced.mono (grows commit.path) }

theorem SessionBranch.Grounded.mono {further : RelPath → Option Text → Prop} {before : Tree}
    {commits : List BranchCommit}
    (grounded : SessionBranch.Grounded runtime config merge brought before commits)
    (grows : ∀ path content, brought path content → further path content) :
    SessionBranch.Grounded runtime config merge further before commits := by
  induction commits generalizing before with
  | nil => trivial
  | cons commit rest ih => exact ⟨grounded.1.mono grows, ih grounded.2⟩

/-- A grounded commit on a tree of sourced files makes a tree of sourced files. -/
theorem BranchCommit.Grounded.sourced_tree {before : Tree} {commit : BranchCommit}
    (grounded : commit.Grounded runtime config merge brought before)
    (sourced : ∀ path, merge.Generated (brought path) (before.lookup path)) (path : RelPath) :
    merge.Generated (brought path) (commit.tree.lookup path) := by
  by_cases here : path = commit.path
  · subst path
    exact grounded.sourced
  · rw [grounded.elsewhere path here]
    exact sourced path

/-- A grounded branch goes on with a commit that is grounded on its end. -/
theorem SessionBranch.Grounded.concat {before : Tree} {commits : List BranchCommit}
    {last : BranchCommit}
    (grounded : SessionBranch.Grounded runtime config merge brought before commits)
    (lastGrounded : last.Grounded runtime config merge brought (tipAfter before commits)) :
    SessionBranch.Grounded runtime config merge brought before (commits ++ [last]) := by
  induction commits generalizing before with
  | nil => exact ⟨lastGrounded, trivial⟩
  | cons commit rest ih => exact ⟨grounded.1, ih grounded.2 lastGrounded⟩

/-- A commit that is replayed without a conflict is grounded on its new parent. -/
theorem BranchCommit.Grounded.replayed {before onto : Tree} {commit : BranchCommit}
    (grounded : commit.Grounded runtime config merge brought before)
    (sourced : ∀ path, merge.Generated (brought path) (before.lookup path))
    (ontoSourced : ∀ path, merge.Generated (brought path) (onto.lookup path))
    {content : Option Text}
    (done : merge.merge (before.lookup commit.path) (onto.lookup commit.path)
      (commit.tree.lookup commit.path) = some content) :
    BranchCommit.Grounded runtime config merge brought onto { commit with
      merged := commit.merged || onto.lookup commit.path ≠ before.lookup commit.path
      tree := onto.put commit.path content } := by
  constructor
  · exact grounded.gated
  · intro path different
    exact Tree.lookup_put_of_ne onto content different
  · change merge.Generated _ ((onto.put commit.path content).lookup commit.path)
    rw [Tree.lookup_put]
    exact (sourced commit.path).of_merge (ontoSourced commit.path) grounded.sourced done
  · intro unmerged
    obtain ⟨notBefore, same⟩ := Bool.or_eq_false_iff.mp unmerged
    have onSame : onto.lookup commit.path = before.lookup commit.path :=
      not_not.mp (of_decide_eq_false same)
    rw [onSame, merge.ours_unchanged] at done
    obtain ⟨postimage, judged⟩ := grounded.unmerged notBefore
    constructor
    · change (onto.put commit.path content).lookup commit.path = _
      rw [Tree.lookup_put, ← Option.some.inj done, postimage]
    · exact onSame.trans judged

/-- What a rebase makes of a grounded branch is grounded on the trunk. -/
theorem SessionBranch.Grounded.rebaseOnto {leftOut : BranchCommit → Bool} {before onto : Tree}
    {commits copies : List BranchCommit}
    (grounded : SessionBranch.Grounded runtime config merge brought before commits)
    (sourced : ∀ path, merge.Generated (brought path) (before.lookup path))
    (ontoSourced : ∀ path, merge.Generated (brought path) (onto.lookup path))
    (done : SessionBranch.rebaseOnto merge leftOut before onto commits = some copies) :
    SessionBranch.Grounded runtime config merge brought onto copies := by
  induction commits generalizing before onto copies with
  | nil =>
      cases done
      trivial
  | cons commit rest ih =>
      have nextSourced := grounded.1.sourced_tree sourced
      rw [SessionBranch.rebaseOnto] at done
      split at done
      · exact ih grounded.2 nextSourced ontoSourced done
      · obtain ⟨content, merged, later⟩ := Option.bind_eq_some_iff.mp done
        obtain ⟨others, replayed, rfl⟩ := Option.map_eq_some_iff.mp later
        have picked := grounded.1.replayed sourced ontoSourced merged
        exact ⟨picked, ih grounded.2 nextSourced (picked.sourced_tree ontoSourced) replayed⟩

/-- The publications of a grounded branch. -/
theorem SessionBranch.Grounded.publications {before : Tree} {commits : List BranchCommit}
    (grounded : SessionBranch.Grounded runtime config merge brought before commits)
    {today : Date} {publication : Publication}
    (member : publication ∈ SessionBranch.publications today before commits) :
    publication.commit ∈ commits ∧
      publication.commit.Grounded runtime config merge brought publication.before := by
  induction commits generalizing before with
  | nil => cases member
  | cons commit rest ih =>
      rcases List.mem_cons.mp member with rfl | later
      · exact ⟨List.mem_cons_self, grounded.1⟩
      · have found := ih grounded.2 later
        exact ⟨List.mem_cons_of_mem commit found.1, found.2⟩

/-- The trees of a grounded branch hold sourced files. -/
theorem SessionBranch.Grounded.sourced_trees {before : Tree} {commits : List BranchCommit}
    (grounded : SessionBranch.Grounded runtime config merge brought before commits)
    (sourced : ∀ path, merge.Generated (brought path) (before.lookup path))
    {commit : BranchCommit} (member : commit ∈ commits) (path : RelPath) :
    merge.Generated (brought path) (commit.tree.lookup path) := by
  induction commits generalizing before with
  | nil => cases member
  | cons first rest ih =>
      have nextSourced := grounded.1.sourced_tree sourced
      rcases List.mem_cons.mp member with rfl | later
      · exact nextSourced path
      · exact ih grounded.2 nextSourced later

end Branch

/-! ## What every run keeps -/

/-- The trunk holds sourced files only, every branch is grounded on a tree of the trunk, and
every publication was grounded on the tree before it. -/
structure UpstreamState.Sound (state : UpstreamState) : Prop where
  versions : ∀ version ∈ state.trunk.trees, ∀ path,
    state.Sourced runtime config merge path (version.lookup path)
  sessions : ∀ name branch, state.sessions name = some branch →
    branch.base.tip ∈ state.trunk.trees ∧ SessionBranch.Grounded runtime config merge
      (state.Brought runtime config) branch.base.tip branch.commits
  log : ∀ publication ∈ state.log, publication.commit.tree ∈ state.trunk.trees ∧
    publication.commit.Grounded runtime config merge (state.Brought runtime config)
      publication.before

variable {runtime config merge}

namespace UpstreamState

theorem sound_start (tree : Tree) : (start tree).Sound runtime config merge := by
  constructor
  · intro version member path
    cases List.mem_singleton.mp member
    exact .source (.inl ⟨tree, List.mem_singleton_self tree, rfl⟩)
  · intro name branch impossible
    cases impossible
  · intro publication impossible
    cases impossible

/-- One session gets another branch that is grounded on a tree of the trunk. -/
theorem Sound.assign {state : UpstreamState} (sound : state.Sound runtime config merge)
    {name : Text} {entry : Option SessionBranch}
    (entrySound : ∀ branch, entry = some branch → branch.base.tip ∈ state.trunk.trees ∧
      SessionBranch.Grounded runtime config merge (state.Brought runtime config)
        branch.base.tip branch.commits) :
    (state.assign name entry).Sound runtime config merge := by
  constructor
  · exact sound.versions
  · intro other branch found
    by_cases same : other = name
    · subst other
      simp only [UpstreamState.assign, Function.update_self] at found
      exact entrySound branch found
    · simp only [UpstreamState.assign, Function.update_of_ne same] at found
      exact sound.sessions other branch found
  · exact sound.log

/-- More is brought in, and the rest is as before. -/
theorem Sound.grow {state target : UpstreamState} (sound : state.Sound runtime config merge)
    (grows : ∀ path content, state.Brought runtime config path content →
      target.Brought runtime config path content)
    (trunk : target.trunk = state.trunk) (sessions : target.sessions = state.sessions)
    (log : target.log = state.log) : target.Sound runtime config merge := by
  constructor
  · intro version member path
    rw [trunk] at member
    exact (sound.versions version member path).mono (grows path)
  · intro name branch found
    rw [sessions] at found
    rw [trunk]
    obtain ⟨based, grounded⟩ := sound.sessions name branch found
    exact ⟨based, grounded.mono grows⟩
  · intro publication member
    rw [log] at member
    rw [trunk]
    obtain ⟨published, grounded⟩ := sound.log publication member
    exact ⟨published, grounded.mono grows⟩

/-- Commits of sourced files join the trunk. -/
theorem Sound.extend {state : UpstreamState} (sound : state.Sound runtime config merge)
    {trees : List Tree} (sourced : ∀ tree ∈ trees, ∀ path,
      state.Sourced runtime config merge path (tree.lookup path)) :
    { state with trunk := state.trunk.extend trees }.Sound runtime config merge := by
  constructor
  · intro version member
    rcases History.mem_extend.mp member with new | old
    · exact sourced version new
    · exact sound.versions version old
  · intro name branch found
    obtain ⟨based, grounded⟩ := sound.sessions name branch found
    exact ⟨History.mem_extend.mpr (.inr based), grounded⟩
  · intro publication member
    obtain ⟨published, grounded⟩ := sound.log publication member
    exact ⟨History.mem_extend.mpr (.inr published), grounded⟩

end UpstreamState

/-- A write that the gates let through is grounded on the end of its branch. -/
theorem CommittedWrite.Gated.grounded {state : UpstreamState} {write : CommittedWrite}
    (gated : write.Gated runtime config) (known : write ∈ state.writes) :
    BranchCommit.Grounded runtime config merge (state.Brought runtime config) write.against
      ⟨write, false, write.against.write write.proposal.targetPath write.proposal.postimage⟩ := by
  constructor
  · exact gated
  · intro path different
    exact Tree.lookup_write_of_ne write.against write.proposal.postimage different
  · apply Merge.Generated.source
    exact .inr ⟨write, known, gated, rfl, Tree.lookup_write write.against _ _⟩
  · intro _
    exact ⟨Tree.lookup_write write.against _ _, rfl⟩

theorem UpstreamStep.sound : System.Preserves (UpstreamStep runtime config merge)
    (UpstreamState.Sound runtime config merge) := by
  intro source label target step sound
  cases step with
  | create name base published =>
      apply sound.assign
      intro branch created
      cases created
      exact ⟨published.subset List.mem_cons_self, trivial⟩
  | collect name =>
      apply sound.assign
      intro branch impossible
      cases impossible
  | commit name branch write here onto gated =>
      have grows : ∀ path content, source.Brought runtime config path content →
          { source with writes := write :: source.writes }.Brought runtime config path
            content := by
        rintro path content (foreign | ⟨other, known, otherGated⟩)
        · exact .inl foreign
        · exact .inr ⟨other, List.mem_cons_of_mem write known, otherGated⟩
      have grown : { source with writes := write :: source.writes }.Sound runtime config
          merge := sound.grow grows rfl rfl rfl
      apply grown.assign
      intro after committed
      cases committed
      obtain ⟨based, grounded⟩ := grown.sessions name branch here
      refine ⟨based, grounded.concat ?_⟩
      have known : write ∈ { source with writes := write :: source.writes }.writes :=
        List.mem_cons_self
      have last := @CommittedWrite.Gated.grounded runtime config merge _ write gated known
      rw [onto] at last
      exact last
  | refresh name branch rebased leftOut here done =>
      apply sound.assign
      intro after refreshed
      cases refreshed
      obtain ⟨commits, replayed, rfl⟩ := Option.map_eq_some_iff.mp done
      obtain ⟨based, grounded⟩ := sound.sessions name branch here
      refine ⟨List.mem_cons_self, ?_⟩
      exact grounded.rebaseOnto (sound.versions _ based)
        (sound.versions _ List.mem_cons_self) replayed
  | push name branch today here fastForward =>
      obtain ⟨based, grounded⟩ := sound.sessions name branch here
      have sourced : ∀ tree ∈ branch.commits.map BranchCommit.tree, ∀ path,
          source.Sourced runtime config merge path (tree.lookup path) := by
        intro tree member
        obtain ⟨commit, among, rfl⟩ := List.mem_map.mp member
        exact grounded.sourced_trees (sound.versions _ based) among
      have extended := sound.extend sourced
      have restarted : ∀ after, some (⟨source.trunk.extend
          (branch.commits.map BranchCommit.tree), []⟩ : SessionBranch) = some after →
            after.base.tip ∈ (source.trunk.extend
              (branch.commits.map BranchCommit.tree)).trees ∧
            SessionBranch.Grounded runtime config merge (source.Brought runtime config)
              after.base.tip after.commits := by
        intro after pushed
        cases pushed
        exact ⟨List.mem_cons_self, trivial⟩
      have assigned := @UpstreamState.Sound.assign runtime config merge _ extended name _
        restarted
      constructor
      · exact assigned.versions
      · exact assigned.sessions
      · intro publication member
        rcases List.mem_append.mp member with old | new
        · exact assigned.log publication old
        · obtain ⟨among, onto⟩ := grounded.publications new
          refine ⟨History.mem_extend.mpr (.inl ?_), onto⟩
          exact List.mem_map.mpr ⟨_, among, rfl⟩
  | others trees =>
      have grows : ∀ path content, source.Brought runtime config path content →
          { source with foreign := trees ++ source.foreign }.Brought runtime config path
            content := by
        rintro path content (⟨tree, foreign, found⟩ | written)
        · exact .inl ⟨tree, List.mem_append_right trees foreign, found⟩
        · exact .inr written
      have grown : { source with foreign := trees ++ source.foreign }.Sound runtime config
          merge := sound.grow grows rfl rfl rfl
      apply grown.extend
      intro tree member path
      exact .source (.inl ⟨tree, List.mem_append_left source.foreign member, rfl⟩)

/-! ## Documents in force -/

/-- The backstop answers for the publication: the commit sits on the version of its file that
the gates saw, the backstop covered that version then, and its window has not opened since. -/
structure Publication.Backed (runtime : Runtime) (config : LaneConfig)
    (publication : Publication) : Prop where
  protection : config.protection = true
  unmerged : publication.commit.merged = false
  covered : ∀ committed entries,
    publication.commit.write.against.lookup publication.commit.path = some committed →
      runtime.lenientFrontmatter (readBack committed) = .ok entries →
      runtime.BackstopCovers config.toIndexConfig entries publication.commit.path
        publication.commit.write.today
  unopened : ∀ committed entries,
    publication.commit.write.against.lookup publication.commit.path = some committed →
      runtime.lenientFrontmatter (readBack committed) = .ok entries →
      Runtime.windowOpen (runtime.blockWindow (entries.get "validity")) publication.today =
        true →
      Runtime.windowOpen (runtime.blockWindow (entries.get "validity"))
        publication.commit.write.today = true

/-- The postimage of a pending entry that an operator resolved is now at `path`. -/
def Publication.ByOperator (publication : Publication) (path : RelPath) : Prop :=
  (∃ override, publication.commit.write.authority = .operator override) ∧
    publication.commit.path = path ∧
    publication.commit.tree.lookup path =
      some publication.commit.write.proposal.postimage

/-- The document that a direct commit replaces was not in force when the backstop saw it. -/
theorem CommittedWrite.Gated.not_indexInForce {write : CommittedWrite}
    (gated : write.Gated runtime config) (direct : write.authority = .agent)
    (protection : config.protection = true) {committed : Text} {entries : Mapping}
    (here : write.against.lookup write.proposal.targetPath = some committed)
    (found : runtime.lenientFrontmatter (readBack committed) = .ok entries)
    (covered : runtime.BackstopCovers config.toIndexConfig entries write.proposal.targetPath
      write.today) :
    ¬runtime.indexInForce config.toIndexConfig entries write.proposal.targetPath
      write.today := by
  intro inForce
  cases kind : write.proposal.kind with
  | memory =>
      have inbox := gated.memory direct kind
      exact Bool.false_ne_true (inForce.1.symm.trans inbox)
  | edit =>
      have protects := (runtime.covers_iff config.toIndexConfig).mpr covered inForce
      have demotes := (runtime.isBaseContentInForce_eq_true_iff found).mpr protects
      have backstop := gated.notProtected direct
      simp only [Runtime.backstopDemotes, protection, kind, here, decide_true, Bool.and_self,
        if_true] at backstop
      cases backstop.symm.trans demotes

/-- A publication for which the backstop answers changes a document in force only to what an
operator resolved. -/
theorem BranchCommit.Grounded.byOperator {brought : RelPath → Option Text → Prop}
    {publication : Publication}
    (grounded : publication.commit.Grounded runtime config merge brought publication.before)
    (backed : publication.Backed runtime config) {path : RelPath}
    (inForce : runtime.TreeInForce config.toIndexConfig publication.before path
      publication.today)
    (changed : publication.commit.tree.lookup path ≠ publication.before.lookup path) :
    publication.ByOperator path := by
  have here : path = publication.commit.path := by
    by_contra different
    exact changed (grounded.elsewhere path different)
  subst path
  obtain ⟨postimage, judged⟩ := grounded.unmerged backed.unmerged
  cases authority : publication.commit.write.authority with
  | operator override => exact ⟨⟨override, authority⟩, rfl, postimage⟩
  | agent =>
      exfalso
      obtain ⟨file, ⟨-, committed, committedHere, parsed⟩, rowInForce, -⟩ := inForce
      obtain ⟨entries, found⟩ := runtime.exists_frontmatter parsed
      have indexed := (runtime.parsedFile_inForce_iff _ parsed found).mp rowInForce
      rw [judged] at committedHere
      have opened := backed.unopened committed entries committedHere found indexed.2.2
      apply grounded.gated.not_indexInForce authority backed.protection committedHere found
        (backed.covered committed entries committedHere found)
      exact ⟨indexed.1, indexed.2.1, opened⟩

/-- In every run, what the trunk holds at a path was there from others, is a postimage that
the gates let through for that path, or was merged from such content by rebases.  A commit
that no rebase put on another version of its file is published with the bytes of its
postimage.  Where the backstop answers for it, it changes a document in force only to what
an operator resolved. -/
theorem published_content_is_sourced {tree : Tree} {labels : List UpstreamLabel}
    {state : UpstreamState}
    (run : Run (UpstreamStep runtime config merge) (.start tree) labels state) :
    (∀ version ∈ state.trunk.trees, ∀ path,
      state.Sourced runtime config merge path (version.lookup path)) ∧
    ∀ publication ∈ state.log, publication.commit.tree ∈ state.trunk.trees ∧
      (∀ path, path ≠ publication.commit.path →
        publication.commit.tree.lookup path = publication.before.lookup path) ∧
      (publication.commit.merged = false →
        publication.commit.tree.lookup publication.commit.path =
          some publication.commit.write.proposal.postimage) ∧
      (publication.Backed runtime config → ∀ path,
        runtime.TreeInForce config.toIndexConfig publication.before path publication.today →
        publication.commit.tree.lookup path ≠ publication.before.lookup path →
          publication.ByOperator path) := by
  have sound := run.invariant UpstreamStep.sound (UpstreamState.sound_start tree)
  refine ⟨sound.versions, ?_⟩
  intro publication member
  obtain ⟨published, grounded⟩ := sound.log publication member
  refine ⟨published, grounded.elsewhere, ?_, ?_⟩
  · intro unmerged
    exact (grounded.unmerged unmerged).1
  · intro backed path inForce changed
    exact grounded.byOperator backed inForce changed

/-- A write that the gates let through on a tree of the trunk is published with the next
push. -/
theorem run_publish {write : CommittedWrite} (gated : write.Gated runtime config)
    (name : Text) (today : Date) :
    ∃ labels state, Run (UpstreamStep runtime config merge) (.start write.against) labels state ∧
      state.log = [⟨write.against, ⟨write, false, write.against.write
        write.proposal.targetPath write.proposal.postimage⟩, today⟩] := by
  have created : Run (UpstreamStep runtime config merge) (.start write.against) _ _ :=
    Run.single (UpstreamStep.create _ name ⟨write.against, []⟩ (List.suffix_refl _))
  have committed := Run.tail created
    (UpstreamStep.commit _ name _ write (Function.update_self _ _ _) rfl gated)
  have pushed := Run.tail committed
    (UpstreamStep.push _ name _ today (Function.update_self _ _ _) rfl)
  exact ⟨_, _, pushed, rfl⟩

end Upstream

/-! ## What the gates do not see -/

/-- The merge of texts with equally many lines, line by line. -/
def mergeByLines : Merge (Option Text) :=
  Merge.settle fun base ours theirs => do
    let base ← base
    let ours ← ours
    let theirs ← theirs
    let lines ← Merge.zip Merge.strict (splitLines base) (splitLines ours) (splitLines theirs)
    return some (joinLines lines)

/-- The loader on the front matter of the notes below. -/
def notesRuntime : Runtime :=
  Runtime.ofBlocks [
    ("status: draft".toList, .dict [(.str (PyStr.lit "status"), .str (PyStr.lit "draft"))]),
    ("status: active".toList, .dict [(.str (PyStr.lit "status"), .str (PyStr.lit "active"))]),
    ("status: active\nvalidity: \x7bvalid_from: 2026-08-02\x7d".toList,
      .dict [(.str (PyStr.lit "status"), .str (PyStr.lit "active")),
        (.str (PyStr.lit "validity"),
          .dict [(.str (PyStr.lit "valid_from"), .date ⟨2026, 8, 2⟩)])])]

/-- Notes that end in a request. -/
def notes (status request : String) : Text :=
  ("---\nstatus: " ++ status ++ "\n---\nAsk first.\n\n" ++ request).toList

/-- Notes that come into force on the second of August. -/
def upcoming (request : String) : Text :=
  ("---\nstatus: active\nvalidity: \x7bvalid_from: 2026-08-02\x7d\n---\n" ++ request).toList

/-- A write of the notes on a tree that holds nothing else. -/
def notesWrite (authority : Authority) (before after : Text) : CommittedWrite where
  proposal := {
    kind := .edit
    targetPath := rulePath
    postimage := after
    confidence := some 1
    canAutoCommit := true
    contest := false }
  authority := authority
  idx := none
  against := Tree.write ∅ rulePath before
  snapshot := none
  today := ⟨2026, 8, 1⟩

/-- An agent's write changes a document in force. -/
def Publication.AgentChangesInForce (runtime : Runtime) (config : LaneConfig)
    (publication : Publication) : Prop :=
  publication.commit.write.authority = .agent ∧
    runtime.TreeInForce config.toIndexConfig publication.before publication.commit.path
      publication.today ∧
    publication.commit.tree.lookup publication.commit.path ≠
      publication.before.lookup publication.commit.path

theorem gated_notesWrite {config : LaneConfig} {authority : Authority} {before after : Text}
    (scanned : authority = .operator true ∨
      config.secretFlagged (notesWrite authority before after).proposal = false)
    (valid : notesRuntime.Accepts config.toGateConfig rulePath after none
      (some ⟨Tree.isFile (Tree.write ∅ rulePath before), none⟩) [])
    (notProtected : authority = .agent → notesRuntime.backstopDemotes config
      (notesWrite authority before after).proposal (Tree.write ∅ rulePath before) ⟨2026, 8, 1⟩ =
        .ok false)
    (changes : before ≠ after) :
    (notesWrite authority before after).Gated notesRuntime config := by
  constructor
  · exact scanned
  · exact .inl rfl
  · exact valid
  · exact notProtected
  · intro _ impossible
    cases impossible
  · intro same
    rw [notesWrite, Tree.lookup_write, Option.some.injEq] at same
    exact changes same

/-- Notes that the index of a tree keeps in force. -/
theorem treeInForce_notes {tree : Tree} {index : Index} {today : Date}
    (built : notesRuntime.build LaneConfig.default.toIndexConfig tree = .ok index)
    (inForce : ∃ row ∈ index.rows, row.path = rulePath ∧ index.inForce today row = true) :
    notesRuntime.TreeInForce LaneConfig.default.toIndexConfig tree rulePath today :=
  (notesRuntime.built_inForce_iff LaneConfig.default.toIndexConfig built).mp inForce

theorem active_inForce : notesRuntime.TreeInForce LaneConfig.default.toIndexConfig
    (Tree.write ∅ rulePath (notes "active" "Be brief.")) rulePath ⟨2026, 8, 1⟩ :=
  treeInForce_notes rfl (by decide)

/-- An agent's write of a document that is in force on the day of the push. -/
theorem exists_agent_change {config : LaneConfig} {before after : Text} (today : Date)
    (gated : (notesWrite .agent before after).Gated notesRuntime config)
    (inForce : notesRuntime.TreeInForce config.toIndexConfig (Tree.write ∅ rulePath before)
      rulePath today) :
    ∃ labels state publication, Run (UpstreamStep notesRuntime config mergeByLines)
        (.start (Tree.write ∅ rulePath before)) labels state ∧
      publication ∈ state.log ∧ publication.AgentChangesInForce notesRuntime config := by
  obtain ⟨labels, state, run, log⟩ := run_publish gated ['a'] today
  refine ⟨labels, state, _, run, log ▸ List.mem_cons_self, rfl, inForce, ?_⟩
  intro same
  exact gated.changes (same.symm.trans (Tree.lookup_write _ _ _))

/-- An operator's edit of notes in force is published as resolved. -/
theorem resolved_edit_is_sourced :
    ∃ labels state publication, Run (UpstreamStep notesRuntime LaneConfig.default mergeByLines)
        (.start (Tree.write ∅ rulePath (notes "active" "Be brief."))) labels state ∧
      publication ∈ state.log ∧ publication.ByOperator rulePath := by
  have gated : (notesWrite (.operator false) (notes "active" "Be brief.")
      (notes "active" "Be terse.")).Gated notesRuntime LaneConfig.default :=
    gated_notesWrite (.inr rfl) rfl nofun (by decide)
  obtain ⟨labels, state, run, log⟩ := run_publish gated ['a'] ⟨2026, 8, 1⟩
  refine ⟨labels, state, _, run, log ▸ List.mem_cons_self, ?_⟩
  obtain ⟨-, -, -, byOperator⟩ :=
    (published_content_is_sourced run).2 _ (log ▸ List.mem_cons_self)
  apply byOperator
  · have active : notesRuntime.lenientFrontmatter (readBack (notes "active" "Be brief.")) =
        .ok [(.str (PyStr.lit "status"), .str (PyStr.lit "active"))] := rfl
    constructor
    · rfl
    · rfl
    · intro committed entries here found
      cases (show some (notes "active" "Be brief.") = some committed from here)
      cases active.symm.trans found
      refine .inr ⟨fun missing => absurd missing.2.2.1 (by decide), ?_⟩
      intro block value
      simp [Mapping.get, Value.isStr, PyStr.lit, PyStr.ofText] at value
    · intro committed entries here found opened
      exact opened
  · exact active_inForce
  · decide

theorem terse_gated : (notesWrite .agent (notes "draft" "Be brief.")
    (notes "draft" "Be terse.")).Gated notesRuntime LaneConfig.default :=
  gated_notesWrite (.inr rfl) rfl (fun _ => rfl) (by decide)

theorem active_gated : (notesWrite (.operator false) (notes "draft" "Be brief.")
    (notes "active" "Be brief.")).Gated notesRuntime LaneConfig.default :=
  gated_notesWrite (.inr rfl) rfl nofun (by decide)

/-- Two clean edits of one draft: an operator activates it while an agent changes its last
line. -/
theorem exists_merged_publication : ∃ labels state publication,
    Run (UpstreamStep notesRuntime LaneConfig.default mergeByLines)
      (.start (Tree.write ∅ rulePath (notes "draft" "Be brief."))) labels state ∧
    publication ∈ state.log ∧
    publication.commit.tree.lookup rulePath = some (notes "active" "Be terse.") ∧
    ¬state.Brought notesRuntime LaneConfig.default rulePath
      (some (notes "active" "Be terse.")) ∧
    publication.AgentChangesInForce notesRuntime LaneConfig.default := by
  let agent := notesWrite .agent (notes "draft" "Be brief.") (notes "draft" "Be terse.")
  let operator := notesWrite (.operator false) (notes "draft" "Be brief.")
    (notes "active" "Be brief.")
  have first : Run (UpstreamStep notesRuntime LaneConfig.default mergeByLines)
      (.start agent.against) _ _ :=
    Run.single (UpstreamStep.create _ ['a'] ⟨agent.against, []⟩ (List.suffix_refl _))
  have second := Run.tail first
    (UpstreamStep.create _ ['b'] ⟨agent.against, []⟩ (List.suffix_refl _))
  have edited := Run.tail second
    (UpstreamStep.commit _ ['a'] ⟨⟨agent.against, []⟩, []⟩ agent rfl rfl terse_gated)
  have activated := Run.tail edited
    (UpstreamStep.commit _ ['b'] ⟨⟨agent.against, []⟩, []⟩ operator rfl rfl active_gated)
  have published := Run.tail activated
    (UpstreamStep.push _ ['b'] _ ⟨2026, 8, 1⟩ rfl rfl)
  have refreshed := Run.tail published
    (UpstreamStep.refresh _ ['a'] _ _ (fun _ => false) rfl rfl)
  have pushed := Run.tail refreshed
    (UpstreamStep.push _ ['a'] _ ⟨2026, 8, 1⟩ rfl rfl)
  refine ⟨_, _, _, pushed, List.mem_append_right _ List.mem_cons_self, rfl, ?_, rfl, ?_, ?_⟩
  · rintro (⟨tree, foreign, found⟩ | ⟨write, known, -, -, postimage⟩)
    · cases List.mem_singleton.mp foreign
      exact absurd found (by decide)
    · rcases List.mem_cons.mp known with rfl | earlier
      · exact absurd postimage (by decide)
      · cases List.mem_singleton.mp earlier
        exact absurd postimage (by decide)
  · exact active_inForce
  · decide

/-- A default deployment whose scanner flags one text. -/
def LaneConfig.flagging (text : Text) : LaneConfig :=
  { LaneConfig.default with
    scanSecrets := fun scanned =>
      if scanned = PyStr.ofText text then some ⟨['k', 'e', 'y'], 1⟩ else none }

/-- Content that no gate saw is published when a rebase merges two clean edits of one draft,
and an agent thereby changes a document in force.  An operator publishes content that the
scan flags.  An agent changes a document in force that is so by autofill alone, one whose
window opens between the commit and the push, and any where the protection is off. -/
theorem ungated_content_is_published :
    (∃ labels state publication,
      Run (UpstreamStep notesRuntime LaneConfig.default mergeByLines)
        (.start (Tree.write ∅ rulePath (notes "draft" "Be brief."))) labels state ∧
      publication ∈ state.log ∧
      publication.commit.tree.lookup rulePath = some (notes "active" "Be terse.") ∧
      ¬state.Brought notesRuntime LaneConfig.default rulePath
        (some (notes "active" "Be terse.")) ∧
      publication.AgentChangesInForce notesRuntime LaneConfig.default) ∧
    (∃ config labels state publication,
      Run (UpstreamStep notesRuntime config mergeByLines)
        (.start (Tree.write ∅ rulePath (notes "draft" "Be brief."))) labels state ∧
      publication ∈ state.log ∧
      publication.commit.tree.lookup rulePath =
        some publication.commit.write.proposal.postimage ∧
      config.secretFlagged publication.commit.write.proposal = true) ∧
    (∃ labels state publication,
      Run (UpstreamStep notesRuntime LaneConfig.default mergeByLines)
        (.start (Tree.write ∅ rulePath "Always ask.".toList)) labels state ∧
      publication ∈ state.log ∧
      publication.AgentChangesInForce notesRuntime LaneConfig.default) ∧
    (∃ labels state publication,
      Run (UpstreamStep notesRuntime LaneConfig.default mergeByLines)
        (.start (Tree.write ∅ rulePath (upcoming "Be brief."))) labels state ∧
      publication ∈ state.log ∧
      publication.AgentChangesInForce notesRuntime LaneConfig.default) ∧
    ∃ config labels state publication, config.protection = false ∧
      Run (UpstreamStep notesRuntime config mergeByLines)
        (.start (Tree.write ∅ rulePath (notes "active" "Be brief."))) labels state ∧
      publication ∈ state.log ∧ publication.AgentChangesInForce notesRuntime config := by
  refine ⟨exists_merged_publication, ?_, ?_, ?_, ?_⟩
  · have gated : (notesWrite (.operator true) (notes "draft" "Be brief.")
        (notes "draft" "Be terse.")).Gated notesRuntime
          (LaneConfig.flagging (notes "draft" "Be terse.")) :=
      gated_notesWrite (.inl rfl) rfl nofun (by decide)
    obtain ⟨labels, state, run, log⟩ := run_publish gated ['a'] ⟨2026, 8, 1⟩
    exact ⟨_, labels, state, _, run, log ▸ List.mem_cons_self, rfl, by decide⟩
  · have gated : (notesWrite .agent "Always ask.".toList "Never ask.".toList).Gated
        notesRuntime LaneConfig.default :=
      gated_notesWrite (.inr rfl) rfl (fun _ => rfl) (by decide)
    exact exists_agent_change ⟨2026, 8, 1⟩ gated (treeInForce_notes rfl (by decide))
  · have gated : (notesWrite .agent (upcoming "Be brief.") (upcoming "Be terse.")).Gated
        notesRuntime LaneConfig.default :=
      gated_notesWrite (.inr rfl) rfl (fun _ => rfl) (by decide)
    exact exists_agent_change ⟨2026, 8, 2⟩ gated (treeInForce_notes rfl (by decide))
  · have gated : (notesWrite .agent (notes "active" "Be brief.")
        (notes "active" "Be terse.")).Gated notesRuntime
          { LaneConfig.default with protection := false } :=
      gated_notesWrite (.inr rfl) rfl (fun _ => rfl) (by decide)
    obtain ⟨labels, state, publication, run, member, changes⟩ :=
      exists_agent_change ⟨2026, 8, 1⟩ gated active_inForce
    exact ⟨_, labels, state, publication, rfl, run, member, changes⟩

end DataOlympus
