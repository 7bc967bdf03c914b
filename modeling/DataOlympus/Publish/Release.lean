import DataOlympus.Publish.Demotion
import DataOlympus.Transition.Run
import DataOlympus.Transition.Trace

/-!
# The release of demoted commits

Session commits wait in the push queue, and a push publishes the whole branch of the
worktree that its entry names.  A demotion turns a commit into pending entries and leaves
the branch as it is.  No demoted commit is published before an operator approved the entries
made from it, as long as nothing waits in the queue for a branch that holds it.
-/

namespace DataOlympus

open Lines Transition

/-- The commits of the repository.  A rebase copies a commit under another sha. -/
structure CommitStore where
  commitOf : Sha → SessionCommit
  named : ∀ sha, (commitOf sha).sha = sha
  /-- The commit that was first made, itself unless it is a copy. -/
  origin : Sha → Sha

/-- What happens to a commit. -/
inductive ReleaseEvent where
  /-- Its queue entry is removed for a pending entry of the path. -/
  | demoted (sha : Sha) (path : Text)
  | approved (proposal : QueuedProposal)
  | published (sha : Sha)

/-- The trunk and the branches of the worktrees, each with its first commit first, the push
queue, the pending entries, and the trace. -/
structure ReleaseState where
  trunk : List Sha
  branches : Text → Option (List Sha)
  queue : PushState
  pending : PendingFiles
  trace : List ReleaseEvent

inductive ReleaseLabel where
  /-- A worktree is created. -/
  | create (worktree : Text) (base : List Sha)
  /-- A worktree is collected. -/
  | collect (worktree : Text)
  /-- A session commits; the process may stop before the commit is enqueued. -/
  | commit (worktree : Text) (sha : Sha) (queued : Option (Mapping × Time))
  /-- The branch is rebased: its own commits are copied, or dropped. -/
  | refresh (worktree : Text) (copies : List Sha)
  /-- Others push. -/
  | others (commits : List Sha)
  /-- A drain pushes the branch of an entry. -/
  | push (name : Sha) (drain : Drain)
  /-- A drain leaves the trunk alone at an entry. -/
  | retry (name : Sha) (drain : Drain) (draws : Nat → PendingId × Time)
  /-- The service starts again; each worktree is compared with a fetched trunk. -/
  | restart (worktrees : List Text) (fetched : List Sha) (now : Time)
  /-- A proposal is queued for approval. -/
  | propose (id : PendingId) (proposal : QueuedProposal)
  | approve (id : PendingId) (proposal : QueuedProposal)
  | reject (id : PendingId) (proposal : QueuedProposal)

namespace SessionCommit

/-- The paths of which a demotion makes entries. -/
def demotedPaths (commit : SessionCommit) : List Text :=
  commit.filesChangedInCommit.filter fun path => (commit.fileAtCommit path).isSome

/-- Whether a demotion returns. -/
def demotes (commit : SessionCommit) (draws : Nat → PendingId × Time) (files : PendingFiles)
    (entry : PushEntry) : Bool :=
  match (commit.demoteConflictToPending entry draws files).1 with
  | .ok _ => true
  | .error _ => false

end SessionCommit

/-- The callback was called. -/
def PushEvent.isDemotion : PushEvent → Bool
  | .demotion _ _ => true
  | _ => false

/-- The queue without an entry, and without its lock. -/
def PendingFiles.resolve (files : PendingFiles) (id : PendingId) (path : Text) : PendingFiles :=
  { files with
    entries := files.entries.filter fun entry => entry.1 ≠ id
    locks := Function.update files.locks path none }

namespace ReleaseState

/-- A service that was never used. -/
def start (trunk : List Sha) (cap : Nat) : ReleaseState :=
  ⟨trunk, fun _ => none, .empty, ⟨[], fun _ => none, cap⟩, []⟩

/-- The state with the branch of one worktree replaced. -/
def assign (state : ReleaseState) (worktree : Text) (branch : Option (List Sha)) :
    ReleaseState :=
  { state with branches := Function.update state.branches worktree branch }

/-- The state after commits joined the trunk. -/
def extend (state : ReleaseState) (commits : List Sha) : ReleaseState :=
  { state with
    trunk := state.trunk ++ commits
    trace := state.trace ++ commits.map .published }

/-- The commits of a branch that a trunk does not have. -/
def unpushed (trunk branch : List Sha) : List Sha :=
  branch.filter fun sha => sha ∉ trunk

/-- What `init_recovery` goes over. -/
def orphans (state : ReleaseState) (worktrees : List Text) (fetched : List Sha) :
    List (Sha × Text) :=
  worktrees.flatMap fun worktree =>
    ((state.branches worktree).elim [] (unpushed fetched)).map fun sha => (sha, worktree)

end ReleaseState

section Release

variable (store : CommitStore)

/-- The demotions of a drain at an entry that it does not push. -/
def CommitStore.demotions (drain : Drain) (entry : PushEntry) : List ReleaseEvent :=
  if (drain.drainEntry entry).1.isNone then
    (store.commitOf entry.sha).demotedPaths.map (.demoted entry.sha)
  else []

/-- A commit was demoted, and not for every entry that was made from it has an entry of the
same path been approved. -/
def Withheld (trace : List ReleaseEvent) (sha : Sha) : Prop :=
  ∃ demoted path, .demoted demoted path ∈ trace ∧ store.origin demoted = store.origin sha ∧
    ∀ proposal, .approved proposal ∈ trace → proposal.targetPath = path → ∀ approved,
      proposal.metadata.get "demoted_from_sha" = some (.str (PyStr.ofText approved)) →
        store.origin approved ≠ store.origin sha

/-- A commit is published that is withheld. -/
def Slips (trace : List ReleaseEvent) : ReleaseEvent → Prop
  | .published sha => Withheld store trace sha
  | _ => False

/-- A commit that nobody knows is no copy of one that is known. -/
structure Fresh (state : ReleaseState) (sha : Sha) : Prop where
  first : store.origin sha = sha
  trunk : ∀ known ∈ state.trunk, store.origin known ≠ sha
  branches : ∀ worktree branch, state.branches worktree = some branch →
    ∀ known ∈ branch, store.origin known ≠ sha
  trace : ∀ known path, .demoted known path ∈ state.trace → store.origin known ≠ sha

inductive ReleaseStep : ReleaseState → ReleaseLabel → ReleaseState → Prop
  | create (state : ReleaseState) (worktree : Text) (base : List Sha)
      (published : base <+: state.trunk) :
      ReleaseStep state (.create worktree base) (state.assign worktree (some base))
  | collect (state : ReleaseState) (worktree : Text) :
      ReleaseStep state (.collect worktree) (state.assign worktree none)
  | commit (state : ReleaseState) (worktree : Text) (branch : List Sha) (sha : Sha)
      (queued : Option (Mapping × Time)) (here : state.branches worktree = some branch)
      (fresh : Fresh store state sha) :
      ReleaseStep state (.commit worktree sha queued)
        { state.assign worktree (some (branch ++ [sha])) with
          queue := queued.elim state.queue fun details =>
            state.queue.enqueue sha worktree details.1 details.2 }
  | refresh (state : ReleaseState) (worktree : Text) (branch copies : List Sha)
      (here : state.branches worktree = some branch)
      (copied : (copies.map store.origin).Sublist
        ((ReleaseState.unpushed state.trunk branch).map store.origin)) :
      ReleaseStep state (.refresh worktree copies)
        (state.assign worktree (some (state.trunk ++ copies)))
  | others (state : ReleaseState) (commits : List Sha)
      (fresh : ∀ sha ∈ commits, Fresh store state sha) :
      ReleaseStep state (.others commits) (state.extend commits)
  | push (state : ReleaseState) (name : Sha) (drain : Drain) (entry : PushEntry)
      (own : List Sha) (here : state.queue.files.lookup name = some entry)
      (thawed : entry.frozen = false) (pushed : drain.push entry = .pushed)
      (fastForward : state.branches entry.worktreePath = some (state.trunk ++ own))
      (new : ∀ sha ∈ own, sha ∉ state.trunk) :
      ReleaseStep state (.push name drain)
        { state.extend own with queue := state.queue.drainName drain name }
  | retry (state : ReleaseState) (name : Sha) (drain : Drain)
      (draws : Nat → PendingId × Time) (entry : PushEntry)
      (here : state.queue.files.lookup name = some entry)
      (unpublished : entry.frozen = true ∨ drain.push entry ≠ .pushed)
      (wired : ∀ callback, drain.onRebaseConflict = some callback →
        callback = (store.commitOf entry.sha).demotes draws state.pending) :
      ReleaseStep state (.retry name drain draws)
        { state with
          queue := state.queue.drainName drain name
          pending :=
            if (drain.drainEntry entry).2.any PushEvent.isDemotion then
              ((store.commitOf entry.sha).demoteConflictToPending entry draws state.pending).2
            else state.pending
          trace := state.trace ++ store.demotions drain entry }
  | restart (state : ReleaseState) (worktrees : List Text) (fetched : List Sha) (now : Time)
      (past : fetched <+: state.trunk) :
      ReleaseStep state (.restart worktrees fetched now)
        { state with
          queue := state.queue.initRecovery (state.orphans worktrees fetched) now }
  | propose (state : ReleaseState) (id : PendingId) (proposal : QueuedProposal)
      (pending : PendingFiles) (enqueued : state.pending.enqueue id proposal = .ok pending) :
      ReleaseStep state (.propose id proposal) { state with pending := pending }
  | approve (state : ReleaseState) (id : PendingId) (proposal : QueuedProposal)
      (here : (id, proposal) ∈ state.pending.entries) :
      ReleaseStep state (.approve id proposal)
        { state with
          pending := state.pending.resolve id proposal.targetPath
          trace := state.trace ++ [.approved proposal] }
  | reject (state : ReleaseState) (id : PendingId) (proposal : QueuedProposal)
      (here : (id, proposal) ∈ state.pending.entries) :
      ReleaseStep state (.reject id proposal)
        { state with pending := state.pending.resolve id proposal.targetPath }

/-- The branch of a worktree has, beyond the trunk, a commit that is withheld. -/
def ReleaseState.Carries (state : ReleaseState) (trace : List ReleaseEvent)
    (worktree : Text) : Prop :=
  ∃ branch, state.branches worktree = some branch ∧
    ∃ sha ∈ ReleaseState.unpushed state.trunk branch, Withheld store trace sha

/-- Nothing is enqueued for a branch that holds a withheld commit, neither with a commit nor by
the recovery, and no commit is demoted while something else that can be pushed waits for a
branch that holds it. -/
def KeepsApart (state : ReleaseState) : ReleaseLabel → Prop
  | .commit worktree _ (some _) => ¬state.Carries store state.trace worktree
  | .restart worktrees fetched now => ∀ name entry,
      (state.queue.initRecovery (state.orphans worktrees fetched) now).files.lookup name =
        some entry → state.queue.files.lookup name = none →
          ¬state.Carries store state.trace entry.worktreePath
  | .retry name drain _ => ∀ entry, state.queue.files.lookup name = some entry →
      (drain.drainEntry entry).1 = none → ∀ other waiting, other ≠ name →
        state.queue.files.lookup other = some waiting → waiting.frozen = false →
          ¬state.Carries store (state.trace ++ store.demotions drain entry)
            waiting.worktreePath
  | _ => True

/-- Nothing that can be pushed waits for a branch that holds a withheld commit. -/
def ReleaseState.Guarded (state : ReleaseState) : Prop :=
  ∀ name entry, state.queue.files.lookup name = some entry → entry.frozen = false →
    ¬state.Carries store state.trace entry.worktreePath

variable {store}

/-- Publishing more commits withholds and releases none. -/
theorem withheld_append_published {trace : List ReleaseEvent} {commits : List Sha} {sha : Sha} :
    Withheld store (trace ++ commits.map .published) sha ↔ Withheld store trace sha := by
  have demoted_iff : ∀ demoted path, ReleaseEvent.demoted demoted path ∈
      trace ++ commits.map .published ↔ .demoted demoted path ∈ trace := by
    intro demoted path
    simp
  have approved_iff : ∀ proposal, ReleaseEvent.approved proposal ∈
      trace ++ commits.map .published ↔ .approved proposal ∈ trace := by
    intro proposal
    simp
  simp only [Withheld, demoted_iff, approved_iff]

/-- Commits join the trunk without a slip exactly if none of them is withheld. -/
theorem avoids_extend {state : ReleaseState} {commits : List Sha} :
    Avoids (Slips store) (state.extend commits).trace ↔
      Avoids (Slips store) state.trace ∧ ∀ sha ∈ commits, ¬Withheld store state.trace sha := by
  have stable : ∀ earlier event, earlier <+: commits.map ReleaseEvent.published →
      event ∈ commits.map ReleaseEvent.published →
        (Slips store (state.trace ++ earlier) event ↔ Slips store state.trace event) := by
    intro earlier event before member
    obtain ⟨sha, -, rfl⟩ := List.mem_map.mp member
    have first : earlier = (commits.take earlier.length).map .published := by
      rw [List.map_take]
      exact List.prefix_iff_eq_take.mp before
    rw [first]
    exact withheld_append_published
  rw [ReleaseState.extend, avoids_append stable, List.forall_mem_map]
  exact Iff.rfl

/-- Events other than publications slip nowhere. -/
theorem avoids_append_of_unpublished {trace events : List ReleaseEvent}
    (unpublished : ∀ event ∈ events, ∀ sha, event ≠ .published sha) :
    Avoids (Slips store) (trace ++ events) ↔ Avoids (Slips store) trace := by
  have quiet : ∀ event ∈ events, ∀ before, ¬Slips store before event := by
    intro event member before
    cases event with
    | published sha => exact absurd rfl (unpublished _ member sha)
    | _ => exact id
  have stable : ∀ earlier event, earlier <+: events → event ∈ events →
      (Slips store (trace ++ earlier) event ↔ Slips store trace event) := by
    intro earlier event _ member
    exact iff_of_false (quiet event member _) (quiet event member _)
  rw [avoids_append stable]
  exact and_iff_left fun event member => quiet event member trace

theorem Fresh.not_withheld {state : ReleaseState} {sha : Sha} (fresh : Fresh store state sha) :
    ¬Withheld store state.trace sha := by
  rintro ⟨demoted, path, member, same, -⟩
  rw [fresh.first] at same
  exact fresh.trace demoted path member same

/-- Copies of one commit are withheld alike. -/
theorem Withheld.of_origin_eq {trace : List ReleaseEvent} {sha copy : Sha}
    (withheld : Withheld store trace sha) (same : store.origin copy = store.origin sha) :
    Withheld store trace copy := by
  unfold Withheld
  rw [same]
  exact withheld

/-- An approval withholds nothing. -/
theorem Withheld.of_approved {trace : List ReleaseEvent} {proposal : QueuedProposal} {sha : Sha}
    (withheld : Withheld store (trace ++ [.approved proposal]) sha) :
    Withheld store trace sha := by
  obtain ⟨demoted, path, member, same, unapproved⟩ := withheld
  refine ⟨demoted, path, by simpa using member, same, ?_⟩
  intro other approved
  exact unapproved other (List.mem_append_left _ approved)

/-! ## What a step leaves in the queue and on the branches -/

/-- A drain leaves an entry to its worktree, and thaws none. -/
theorem Drain.kept_of_drainEntry {drain : Drain} {entry after : PushEntry}
    (kept : (drain.drainEntry entry).1 = some after) :
    after.worktreePath = entry.worktreePath ∧ (after.frozen = false → entry.frozen = false) := by
  have retried : ∀ {counted : PushEntry} {error now limit reset outcome},
      counted.worktreePath = entry.worktreePath →
      (drain.demoteOr counted
        (.retried (counted.recordRetry error now limit reset) outcome)).1 = some after →
      after.worktreePath = entry.worktreePath := by
    intro counted error now limit reset outcome same handled
    unfold demoteOr at handled
    dsimp only at handled
    split at handled
    · cases handled
    · cases handled
      exact same
  unfold drainEntry at kept
  cases frozen : entry.frozen with
  | true =>
      rw [frozen] at kept
      cases kept
      exact ⟨rfl, fun thawed => frozen.symm.trans thawed⟩
  | false =>
      refine ⟨?_, fun _ => rfl⟩
      rw [frozen] at kept
      simp only [Bool.false_eq_true, if_false] at kept
      cases pushed : drain.push entry with
      | pushed =>
          rw [pushed] at kept
          cases kept
      | rebaseConflict detail =>
          rw [pushed] at kept
          exact retried rfl kept
      | nonFastForward detail =>
          rw [pushed, settle, contend] at kept
          split at kept
          · exact @retried entry.counted _ _ _ _ _ rfl kept
          · cases kept
            rfl
      | evidenceAtRisk =>
          rw [pushed] at kept
          cases kept
          rfl
      | failed error =>
          rw [pushed] at kept
          cases kept
          rfl

/-- What waits behind a drain at one name waited before it. -/
theorem PushState.exists_waiting_of_drainName {queue : PushState} {drain : Drain}
    {name other : Sha} {after : PushEntry}
    (here : (queue.drainName drain name).files.lookup other = some after) :
    ∃ entry, queue.files.lookup other = some entry ∧
      after.worktreePath = entry.worktreePath ∧ (after.frozen = false → entry.frozen = false) ∧
        (other = name → (drain.drainEntry entry).1 = some after) := by
  by_cases same : other = name
  · subst same
    unfold drainName at here
    cases found : queue.files.lookup other with
    | none =>
        simp only [found] at here
        cases here
    | some entry =>
        simp only [found] at here
        cases handled : (drain.drainEntry entry).1 with
        | none =>
            rw [handled, replace, AList.lookup_erase] at here
            cases here
        | some kept =>
            rw [handled, replace, AList.lookup_insert] at here
            cases here
            obtain ⟨place, thawed⟩ := Drain.kept_of_drainEntry handled
            exact ⟨entry, rfl, place, thawed, fun _ => handled⟩
  · rw [lookup_drainName_of_ne _ _ same] at here
    exact ⟨after, here, rfl, id, fun impossible => absurd impossible same⟩

/-- A found commit is queued unless an entry is there, and is not frozen. -/
theorem PushState.lookup_recover (queue : PushState) (now : Time) (found : Sha × Text)
    (name : Sha) :
    (∀ entry, queue.files.lookup name = some entry →
      (queue.recover now found).files.lookup name = some entry) ∧
    (queue.files.lookup name = none → ∀ entry,
      (queue.recover now found).files.lookup name = some entry → entry.frozen = false) := by
  have untouched : queue.files.lookup name = none → ∀ entry,
      queue.files.lookup name = some entry → entry.frozen = false := by
    intro none entry here
    cases none.symm.trans here
  unfold recover
  split
  · exact ⟨fun _ => id, untouched⟩
  · rename_i unknown
    by_cases same : name = found.1
    · subst same
      refine ⟨?_, ?_⟩
      · intro entry here
        rw [here] at unknown
        exact absurd rfl unknown
      · intro _ entry here
        simp only [write, PushEntry.queued, AList.lookup_insert] at here
        cases here
        rfl
    · simp only [write, PushEntry.queued, AList.lookup_insert_ne same]
      exact ⟨fun _ => id, untouched⟩

/-- The recovery keeps the entries that are there, and adds none that is frozen. -/
theorem PushState.lookup_initRecovery {queue : PushState} {unpushed : List (Sha × Text)}
    {now : Time} {name : Sha} :
    (∀ entry, queue.files.lookup name = some entry →
      (queue.initRecovery unpushed now).files.lookup name = some entry) ∧
    (queue.files.lookup name = none → ∀ entry,
      (queue.initRecovery unpushed now).files.lookup name = some entry →
        entry.frozen = false) := by
  unfold initRecovery
  induction unpushed generalizing queue with
  | nil =>
      refine ⟨fun _ => id, ?_⟩
      intro none entry here
      cases none.symm.trans here
  | cons found rest ih =>
      rw [execute_cons]
      obtain ⟨kept, added⟩ := queue.lookup_recover now found name
      refine ⟨fun entry here => ih.1 entry (kept entry here), ?_⟩
      intro none entry here
      cases recovered : (queue.recover now found).files.lookup name with
      | none => exact ih.2 recovered entry here
      | some first =>
          cases here.symm.trans (ih.1 first recovered)
          exact added none entry recovered

section Carried

variable {state : ReleaseState}

/-- A worktree that is created carries nothing. -/
theorem carries_of_create {worktree : Text} {base : List Sha} (published : base <+: state.trunk)
    {other : Text} (carries : (state.assign worktree (some base)).Carries store state.trace other) :
    state.Carries store state.trace other := by
  obtain ⟨after, found, sha, beyond, withheld⟩ := carries
  by_cases same : other = worktree
  · subst same
    simp only [ReleaseState.assign, Function.update_self, Option.some.injEq] at found
    subst found
    obtain ⟨member, unknown⟩ := List.mem_filter.mp beyond
    exact absurd (published.subset member) (of_decide_eq_true unknown)
  · simp only [ReleaseState.assign, Function.update_of_ne same] at found
    exact ⟨after, found, sha, beyond, withheld⟩

/-- A worktree that is collected carries nothing. -/
theorem carries_of_collect {worktree other : Text}
    (carries : (state.assign worktree none).Carries store state.trace other) :
    state.Carries store state.trace other := by
  obtain ⟨after, found, beyond⟩ := carries
  by_cases same : other = worktree
  · subst same
    simp only [ReleaseState.assign, Function.update_self] at found
    cases found
  · simp only [ReleaseState.assign, Function.update_of_ne same] at found
    exact ⟨after, found, beyond⟩

/-- With a commit nothing is carried that was not before. -/
theorem carries_of_commit {worktree : Text} {branch : List Sha} {sha : Sha} {queue : PushState}
    (here : state.branches worktree = some branch) (fresh : Fresh store state sha) {other : Text}
    (carries : ({ state.assign worktree (some (branch ++ [sha])) with
      queue := queue } : ReleaseState).Carries store state.trace other) :
    state.Carries store state.trace other := by
  obtain ⟨after, found, old, beyond, withheld⟩ := carries
  by_cases same : other = worktree
  · subst same
    simp only [ReleaseState.assign, Function.update_self, Option.some.injEq] at found
    subst found
    obtain ⟨member, unknown⟩ := List.mem_filter.mp beyond
    obtain earlier | last := List.mem_append.mp member
    · exact ⟨branch, here, old, List.mem_filter.mpr ⟨earlier, unknown⟩, withheld⟩
    · cases List.mem_singleton.mp last
      exact absurd withheld fresh.not_withheld
  · simp only [ReleaseState.assign, Function.update_of_ne same] at found
    exact ⟨after, found, old, beyond, withheld⟩

/-- A branch that is copied onto the trunk carries nothing new. -/
theorem carries_of_refresh {worktree : Text} {branch copies : List Sha}
    (here : state.branches worktree = some branch)
    (copied : (copies.map store.origin).Sublist
      ((ReleaseState.unpushed state.trunk branch).map store.origin))
    {trace : List ReleaseEvent} {other : Text}
    (carries : (state.assign worktree (some (state.trunk ++ copies))).Carries store trace other) :
    state.Carries store trace other := by
  obtain ⟨after, found, sha, beyond, withheld⟩ := carries
  by_cases same : other = worktree
  · subst same
    simp only [ReleaseState.assign, Function.update_self, Option.some.injEq] at found
    subst found
    obtain ⟨member, unknown⟩ := List.mem_filter.mp beyond
    have isCopy := (List.mem_append.mp member).resolve_left (of_decide_eq_true unknown)
    obtain ⟨old, oldIn, origin⟩ :=
      List.mem_map.mp (copied.subset (List.mem_map_of_mem isCopy))
    exact ⟨branch, here, old, oldIn, withheld.of_origin_eq origin⟩
  · simp only [ReleaseState.assign, Function.update_of_ne same] at found
    exact ⟨after, found, sha, beyond, withheld⟩

/-- What joins the trunk is not carried any more. -/
theorem carries_of_extend {commits : List Sha} {worktree : Text}
    (carries : (state.extend commits).Carries store (state.extend commits).trace worktree) :
    state.Carries store state.trace worktree := by
  obtain ⟨branch, found, sha, beyond, withheld⟩ := carries
  obtain ⟨member, unknown⟩ := List.mem_filter.mp beyond
  have outside : sha ∉ state.trunk :=
    fun inside => of_decide_eq_true unknown (List.mem_append_left _ inside)
  exact ⟨branch, found, sha, List.mem_filter.mpr ⟨member, decide_eq_true outside⟩,
    withheld_append_published.mp withheld⟩

end Carried

/-! ## Runs -/

namespace ReleaseState.Guarded

variable {state : ReleaseState}

/-- Fewer entries wait, for branches that carry no more. -/
theorem mono {after : ReleaseState} (guarded : state.Guarded store)
    (waits : ∀ name entry, after.queue.files.lookup name = some entry → entry.frozen = false →
      ∃ before, state.queue.files.lookup name = some before ∧ before.frozen = false ∧
        entry.worktreePath = before.worktreePath)
    (carries : ∀ worktree, after.Carries store after.trace worktree →
      state.Carries store state.trace worktree) : after.Guarded store := by
  intro name entry here thawed carried
  obtain ⟨before, found, beforeThawed, place⟩ := waits name entry here thawed
  rw [place] at carried
  exact guarded name before found beforeThawed (carries _ carried)

theorem start (trunk : List Sha) (cap : Nat) :
    (ReleaseState.start trunk cap).Guarded store := by
  intro name entry here
  cases here

end ReleaseState.Guarded

/-- A step that meets the condition leaves nothing waiting for a branch with a withheld
commit. -/
theorem ReleaseStep.guarded {source target : ReleaseState} {label : ReleaseLabel}
    (step : ReleaseStep store source label target) (guarded : source.Guarded store)
    (apart : KeepsApart store source label) : target.Guarded store := by
  have stay : ∀ name entry, source.queue.files.lookup name = some entry → entry.frozen = false →
      ∃ before, source.queue.files.lookup name = some before ∧ before.frozen = false ∧
        entry.worktreePath = before.worktreePath :=
    fun name entry here thawed => ⟨entry, here, thawed, rfl⟩
  have drained : ∀ {drain : Drain} {drainedName : Sha} (name : Sha) (entry : PushEntry),
      (source.queue.drainName drain drainedName).files.lookup name = some entry →
        entry.frozen = false → ∃ before, source.queue.files.lookup name = some before ∧
          before.frozen = false ∧ entry.worktreePath = before.worktreePath := by
    intro drain drainedName name entry here thawed
    obtain ⟨before, found, place, beforeThawed, -⟩ :=
      PushState.exists_waiting_of_drainName here
    exact ⟨before, found, beforeThawed thawed, place⟩
  cases step with
  | create worktree base published => exact guarded.mono stay fun _ => carries_of_create published
  | collect worktree => exact guarded.mono stay fun _ => carries_of_collect
  | commit worktree branch sha queued here fresh =>
      cases queued with
      | none => exact guarded.mono stay fun _ => carries_of_commit here fresh
      | some details =>
          intro name entry found thawed carried
          have before := carries_of_commit here fresh carried
          by_cases same : name = sha
          · subst same
            rw [Option.elim_some, PushState.enqueue, PushState.write, PushEntry.queued,
              AList.lookup_insert] at found
            cases found
            exact apart before
          · rw [Option.elim_some, PushState.enqueue, PushState.write, PushEntry.queued,
              AList.lookup_insert_ne same] at found
            exact guarded name entry found thawed before
  | refresh worktree branch copies here copied =>
      exact guarded.mono stay fun _ => carries_of_refresh here copied
  | others commits fresh => exact guarded.mono stay fun _ => carries_of_extend
  | push name drain entry own here thawed pushed fastForward new =>
      refine guarded.mono drained fun worktree carried => ?_
      exact @carries_of_extend store source own worktree carried
  | retry name drain draws entry here unpublished wired =>
      cases removed : (drain.drainEntry entry).1 with
      | some kept =>
          have silent : store.demotions drain entry = [] := by
            rw [CommitStore.demotions, removed]
            rfl
          refine guarded.mono drained fun _ => ?_
          simp only [silent, List.append_nil]
          exact id
      | none =>
          intro other waiting found thawed
          obtain ⟨before, beforeFound, place, beforeThawed, kept⟩ :=
            PushState.exists_waiting_of_drainName found
          rw [place]
          refine apart entry here removed other before ?_ beforeFound (beforeThawed thawed)
          rintro rfl
          cases here.symm.trans beforeFound
          cases removed.symm.trans (kept rfl)
  | restart worktrees fetched now past =>
      intro name entry found thawed
      cases known : source.queue.files.lookup name with
      | none => exact apart name entry found known
      | some before =>
          cases found.symm.trans (PushState.lookup_initRecovery.1 before known)
          exact guarded name entry known thawed
  | approve id proposal here =>
      refine guarded.mono stay fun worktree carried => ?_
      obtain ⟨branch, found, sha, beyond, withheld⟩ := carried
      exact ⟨branch, found, sha, beyond, withheld.of_approved⟩
  | _ => exact guarded

/-- With nothing waiting for a branch that holds a withheld commit, a step lets none slip. -/
theorem ReleaseStep.avoids {source target : ReleaseState} {label : ReleaseLabel}
    (step : ReleaseStep store source label target) (guarded : source.Guarded store)
    (avoids : Avoids (Slips store) source.trace) : Avoids (Slips store) target.trace := by
  cases step with
  | others commits fresh =>
      exact avoids_extend.mpr ⟨avoids, fun sha member => (fresh sha member).not_withheld⟩
  | push name drain entry own here thawed pushed fastForward new =>
      refine avoids_extend.mpr ⟨avoids, fun sha member withheld => ?_⟩
      apply guarded name entry here thawed
      refine ⟨_, fastForward, sha, List.mem_filter.mpr ⟨?_, ?_⟩, withheld⟩
      · exact List.mem_append_right _ member
      · exact decide_eq_true (new sha member)
  | retry name drain draws entry here unpublished wired =>
      apply (avoids_append_of_unpublished _).mpr avoids
      intro event member sha
      rw [CommitStore.demotions] at member
      split at member
      · obtain ⟨path, -, rfl⟩ := List.mem_map.mp member
        exact nofun
      · cases member
  | approve id proposal here =>
      apply (avoids_append_of_unpublished _).mpr avoids
      intro event member sha
      cases List.mem_singleton.mp member
      exact nofun
  | _ => exact avoids

/-- After a step that does not meet the condition something waits for a branch that holds a
withheld commit. -/
theorem ReleaseStep.not_guarded {source target : ReleaseState} {label : ReleaseLabel}
    (step : ReleaseStep store source label target) (mixed : ¬KeepsApart store source label) :
    ¬target.Guarded store := by
  intro guarded
  apply mixed
  cases step with
  | commit worktree branch sha queued here fresh =>
      cases queued with
      | none => trivial
      | some details =>
          rintro ⟨found, branchOf, held, beyond, withheld⟩
          cases here.symm.trans branchOf
          refine guarded sha (.queued sha worktree details.1 details.2) ?_ rfl ?_
          · exact AList.lookup_insert _
          · obtain ⟨member, unknown⟩ := List.mem_filter.mp beyond
            refine ⟨branch ++ [sha], Function.update_self _ _ _, held, ?_, withheld⟩
            exact List.mem_filter.mpr ⟨List.mem_append_left _ member, unknown⟩
  | retry name drain draws entry here unpublished wired =>
      intro demoted found removed other waiting apart there thawed
      cases here.symm.trans found
      exact guarded other waiting ((PushState.lookup_drainName_of_ne _ _ apart).trans there) thawed
  | restart worktrees fetched now past =>
      intro name entry found unknown
      exact guarded name entry found (PushState.lookup_initRecovery.2 unknown entry found)
  | _ => trivial

/-- What waits for a branch that holds a withheld commit is published at its next push. -/
theorem ReleaseState.exists_slip {state : ReleaseState} (unguarded : ¬state.Guarded store) :
    ∃ worktree copies name drain last,
      Run (ReleaseStep store) state [.refresh worktree copies, .push name drain] last ∧
        ¬Avoids (Slips store) last.trace := by
  unfold Guarded at unguarded
  push Not at unguarded
  obtain ⟨name, entry, here, thawed, branch, found, sha, beyond, withheld⟩ := unguarded
  have refreshed : ReleaseStep store state
      (.refresh entry.worktreePath (unpushed state.trunk branch)) _ :=
    ReleaseStep.refresh _ _ branch _ found (List.Sublist.refl _)
  have pushed := @ReleaseStep.push store
    (state.assign entry.worktreePath (some (state.trunk ++ unpushed state.trunk branch))) name
    ⟨fun _ => .pushed, 1, none, 0⟩ entry (unpushed state.trunk branch) here thawed rfl
    (Function.update_self _ _ _) fun own member => of_decide_eq_true (List.mem_filter.mp member).2
  refine ⟨_, _, _, _, _, Run.tail (Run.single refreshed) pushed, ?_⟩
  intro avoids
  exact (avoids_extend.mp avoids).2 sha beyond withheld

/-! ## The entries of a demoted commit -/

section Entries

variable {commit : SessionCommit} {entry : PushEntry} {draws : Nat → PendingId × Time}
  {files : PendingFiles}

/-- A demotion that returns has made an entry of every file that git shows. -/
theorem SessionCommit.exists_entry_of_demoteFiles {names : List Text} {demoted count : Nat}
    (ended : (commit.demoteFiles entry draws names demoted files).1 = .ok count) {path : Text}
    (member : path ∈ names) (shown : (commit.fileAtCommit path).isSome = true) :
    ∃ id postimage now, (id, commit.proposal entry path postimage now) ∈
      (commit.demoteFiles entry draws names demoted files).2.entries := by
  induction names generalizing demoted files with
  | nil => cases member
  | cons first rest ih =>
      rw [demoteFiles] at ended ⊢
      rcases List.mem_cons.mp member with rfl | later
      · obtain ⟨postimage, found⟩ := Option.isSome_iff_exists.mp shown
        simp only [found] at ended ⊢
        split at ended
        · cases ended
        · rename_i enqueued put
          obtain ⟨-, -, rfl⟩ := PendingFiles.enqueue_eq_ok_iff.mp put
          obtain ⟨added, left, -, -⟩ := exists_added commit entry draws rest (demoted + 1)
            (files.put ((draws demoted).1, commit.proposal entry path postimage (draws demoted).2))
          refine ⟨(draws demoted).1, postimage, (draws demoted).2, ?_⟩
          rw [left, PendingFiles.entries_foldl_put]
          exact List.mem_append_right _ List.mem_cons_self
      · cases found : commit.fileAtCommit first with
        | none =>
            simp only [found] at ended ⊢
            exact ih ended later
        | some postimage =>
            simp only [found] at ended ⊢
            split at ended
            · cases ended
            · exact ih ended later

/-- The count of lost races is nothing to a demotion. -/
theorem SessionCommit.demotes_counted :
    commit.demotes draws files entry.counted = commit.demotes draws files entry := by
  have loop : ∀ names demoted files, commit.demoteFiles entry.counted draws names demoted files =
      commit.demoteFiles entry draws names demoted files := by
    intro names
    induction names with
    | nil =>
        intro demoted files
        rfl
    | cons path rest ih =>
        intro demoted files
        rw [demoteFiles, demoteFiles]
        simp only [ih]
        rfl
  rw [demotes, demotes, demoteConflictToPending, demoteConflictToPending, loop]

/-- A demotion that returns went over all names. -/
theorem SessionCommit.exists_count_of_demotes (returned : commit.demotes draws files entry = true) :
    ∃ count, (commit.demoteFiles entry draws commit.filesChangedInCommit 0 files).1 =
      .ok count := by
  rw [demotes, demoteConflictToPending] at returned
  cases ended : commit.demoteFiles entry draws commit.filesChangedInCommit 0 files with
  | mk outcome left =>
      cases outcome with
      | ok count => exact ⟨count, rfl⟩
      | error raised =>
          rw [ended] at returned
          cases returned

end Entries

/-- Where a drain falls back on a retry, an entry is gone only if the callback returned. -/
theorem Drain.exists_callback_of_demoteOr {drain : Drain} {entry retried : PushEntry}
    {outcome : PushOutcome}
    (removed : (drain.demoteOr entry (.retried retried outcome)).1 = none) :
    ∃ callback, drain.onRebaseConflict = some callback ∧ callback entry = true ∧
      (drain.demoteOr entry (.retried retried outcome)).2 = [.demotion entry true] := by
  unfold demoteOr demote at removed ⊢
  cases wired : drain.onRebaseConflict with
  | none =>
      rw [wired] at removed
      cases removed
  | some callback =>
      simp only [wired] at removed ⊢
      cases returned : callback entry with
      | true => exact ⟨callback, rfl, returned, rfl⟩
      | false =>
          rw [returned] at removed
          cases removed

/-- An entry that a drain removes without a push was demoted. -/
theorem Drain.exists_callback_of_removed {drain : Drain} {entry : PushEntry}
    (removed : (drain.drainEntry entry).1 = none)
    (unpublished : entry.frozen = true ∨ drain.push entry ≠ .pushed) :
    ∃ callback, drain.onRebaseConflict = some callback ∧
      (callback entry = true ∨ callback entry.counted = true) ∧
        (drain.drainEntry entry).2.any PushEvent.isDemotion = true := by
  unfold drainEntry at removed ⊢
  cases frozen : entry.frozen with
  | true =>
      rw [frozen] at removed
      cases removed
  | false =>
      rw [frozen] at removed unpublished
      simp only [Bool.false_eq_true, if_false, false_or] at removed unpublished ⊢
      cases pushed : drain.push entry with
      | pushed => exact absurd pushed unpublished
      | rebaseConflict detail =>
          rw [pushed] at removed
          obtain ⟨callback, wired, returned, called⟩ := exists_callback_of_demoteOr removed
          refine ⟨callback, wired, .inl returned, ?_⟩
          rw [settle, called]
          rfl
      | nonFastForward detail =>
          rw [pushed, settle, contend] at removed
          rw [settle, contend]
          split at removed
          · obtain ⟨callback, wired, returned, called⟩ := exists_callback_of_demoteOr removed
            rename_i late
            refine ⟨callback, wired, .inr returned, ?_⟩
            simp only [if_pos late, called]
            rfl
          · cases removed
      | evidenceAtRisk =>
          rw [pushed] at removed
          cases removed
      | failed error =>
          rw [pushed] at removed
          cases removed

/-- A drain that demotes a commit leaves a pending entry for each path of which the trace
says so. -/
theorem ReleaseStep.exists_entry_of_demoted {source target : ReleaseState} {name : Sha}
    {drain : Drain} {draws : Nat → PendingId × Time}
    (step : ReleaseStep store source (.retry name drain draws) target) {sha : Sha} {path : Text}
    (demoted : .demoted sha path ∈ target.trace) (new : .demoted sha path ∉ source.trace) :
    ∃ id proposal, (id, proposal) ∈ target.pending.entries ∧ proposal.targetPath = path ∧
      proposal.baseCommit = (store.commitOf sha).sha ++ ['^'] := by
  cases step with
  | retry name drain draws entry here unpublished wired =>
      have added := (List.mem_append.mp demoted).resolve_left new
      rw [CommitStore.demotions] at added
      split at added
      · rename_i removed
        obtain ⟨path, listed, same⟩ := List.mem_map.mp added
        cases same
        obtain ⟨callback, callbackEq, returned, called⟩ :=
          Drain.exists_callback_of_removed (Option.isNone_iff_eq_none.mp removed) unpublished
        rw [wired callback callbackEq, SessionCommit.demotes_counted, or_self] at returned
        obtain ⟨member, shown⟩ := List.mem_filter.mp listed
        obtain ⟨count, ended⟩ := SessionCommit.exists_count_of_demotes returned
        obtain ⟨id, postimage, now, there⟩ :=
          SessionCommit.exists_entry_of_demoteFiles ended member shown
        refine ⟨id, (store.commitOf entry.sha).proposal entry path postimage now, ?_, rfl, rfl⟩
        simp only [called, if_true, SessionCommit.demoteConflictToPending_snd]
        exact there
      · cases added

/-- Where nothing is enqueued for a branch that holds a withheld commit, and no commit is
demoted while something waits for a branch that holds it, no demoted commit is published before
the entries made from it are approved.  A first step of another kind lets the next push publish
one. -/
theorem demoted_commits_are_withheld (store : CommitStore) {trunk : List Sha} {cap : Nat}
    {labels : List ReleaseLabel} {state : ReleaseState}
    (run : Run (System.restrict (ReleaseStep store) (KeepsApart store)) (.start trunk cap)
      labels state) :
    Avoids (Slips store) state.trace ∧ ∀ label target, ReleaseStep store state label target →
      ¬KeepsApart store state label → ∃ worktree copies name drain last,
        Run (ReleaseStep store) target [.refresh worktree copies, .push name drain] last ∧
          ¬Avoids (Slips store) last.trace := by
  have preserved : System.Preserves (System.restrict (ReleaseStep store) (KeepsApart store))
      fun state => state.Guarded store ∧ Avoids (Slips store) state.trace := by
    rintro source label target ⟨apart, step⟩ ⟨guarded, avoids⟩
    exact ⟨step.guarded guarded apart, step.avoids guarded avoids⟩
  have kept := Run.invariant preserved run ⟨ReleaseState.Guarded.start trunk cap, avoids_nil⟩
  refine ⟨kept.2, ?_⟩
  intro label target step mixed
  exact ReleaseState.exists_slip (step.not_guarded mixed)

end Release

/-! ## A branch that keeps a demoted commit -/

section Kept

/-- Commits of one file.  The copy of a commit has the digit 2 added to its name. -/
def noteStore : CommitStore where
  commitOf sha := { commitOf [("a.md".toList, "A".toList)] (by decide) (by decide) with sha := sha }
  named _ := rfl
  origin sha := sha.filter fun c => c ≠ '2'

/-- A service with one worktree. -/
def oneWorktree (trunk own : List Sha) (queue : PushState) (pending : PendingFiles)
    (trace : List ReleaseEvent) : ReleaseState :=
  ⟨trunk, Function.update (fun _ => none) ['w'] (some own), queue, pending, trace⟩

/-- An empty pending queue. -/
def nonePending : PendingFiles :=
  ⟨[], fun _ => none, 0⟩

/-- A drain with this outcome. -/
def drainWith (outcome : PushOutcome) : Drain :=
  ⟨fun _ => outcome, 30,
    some ((noteStore.commitOf ['c']).demotes (fun n => (n, 0)) nonePending), 0⟩

variable {trunk own : List Sha} {queue : PushState} {pending : PendingFiles}
  {trace : List ReleaseEvent} {sha : Sha}

theorem branches_oneWorktree :
    (oneWorktree trunk own queue pending trace).branches ['w'] = some own := by
  simp only [oneWorktree, Function.update_self]

theorem fresh_oneWorktree (first : noteStore.origin sha = sha)
    (unknown : ∀ known ∈ trunk ++ own, noteStore.origin known ≠ sha)
    (undemoted : ∀ known path, .demoted known path ∈ trace → noteStore.origin known ≠ sha) :
    Fresh noteStore (oneWorktree trunk own queue pending trace) sha := by
  constructor
  · exact first
  · intro known member
    exact unknown known (List.mem_append_left _ member)
  · intro worktree branch here known member
    by_cases same : worktree = ['w']
    · subst same
      simp only [oneWorktree, Function.update_self] at here
      cases here
      exact unknown known (List.mem_append_right _ member)
    · simp only [oneWorktree, Function.update_of_ne same] at here
      cases here
  · exact undemoted

theorem ReleaseStep.commit_oneWorktree
    (fresh : Fresh noteStore (oneWorktree trunk own queue pending trace) sha) :
    ReleaseStep noteStore (oneWorktree trunk own queue pending trace)
      (.commit ['w'] sha (some ([], 0)))
      (oneWorktree trunk (own ++ [sha]) (queue.enqueue sha ['w'] [] 0) pending trace) := by
  have step := ReleaseStep.commit _ ['w'] own sha (some ([], 0)) branches_oneWorktree fresh
  simp only [ReleaseState.assign, oneWorktree, Function.update_idem] at step
  exact step

theorem ReleaseStep.refresh_oneWorktree {copies : List Sha}
    (copied : (copies.map noteStore.origin).Sublist
      ((ReleaseState.unpushed trunk own).map noteStore.origin)) :
    ReleaseStep noteStore (oneWorktree trunk own queue pending trace) (.refresh ['w'] copies)
      (oneWorktree trunk (trunk ++ copies) queue pending trace) := by
  have step := ReleaseStep.refresh (oneWorktree trunk own queue pending trace) ['w'] own copies
    branches_oneWorktree copied
  simp only [ReleaseState.assign, oneWorktree, Function.update_idem] at step
  exact step

/-- The queue with the first commit. -/
def firstQueued : PushState :=
  PushState.empty.enqueue ['c'] ['w'] [] 0

/-- What happened when a commit was demoted since others had pushed. -/
def demotedTrace : List ReleaseEvent :=
  [.published ['x'], .demoted ['c'] "a.md".toList]

/-- A commit is demoted after its rebase conflicted. -/
theorem run_demoted :
    Run (System.restrict (ReleaseStep noteStore) (KeepsApart noteStore)) (.start [] 0)
      [.create ['w'] [], .commit ['w'] ['c'] (some ([], 0)), .others [['x']],
        .retry ['c'] (drainWith (.rebaseConflict [])) fun n => (n, 0)]
      (oneWorktree [['x']] [['c']]
        (firstQueued.drainName (drainWith (.rebaseConflict [])) ['c'])
        ((noteStore.commitOf ['c']).demoteConflictToPending
          (.queued ['c'] ['w'] [] 0) (fun n => (n, 0)) nonePending).2
        demotedTrace) := by
  have created : ReleaseStep noteStore (.start [] 0) (.create ['w'] [])
      (oneWorktree [] [] .empty nonePending []) :=
    ReleaseStep.create _ ['w'] [] (List.prefix_refl _)
  have committed : ReleaseStep noteStore (oneWorktree [] [] .empty nonePending [])
      (.commit ['w'] ['c'] (some ([], 0))) (oneWorktree [] [['c']] firstQueued nonePending []) :=
    ReleaseStep.commit_oneWorktree (fresh_oneWorktree (by decide) (by decide) nofun)
  have moved : ReleaseStep noteStore (oneWorktree [] [['c']] firstQueued nonePending [])
      (.others [['x']])
      (oneWorktree [['x']] [['c']] firstQueued nonePending [.published ['x']]) := by
    apply ReleaseStep.others
    intro sha member
    cases List.mem_singleton.mp member
    exact fresh_oneWorktree (by decide) (by decide) nofun
  have demoted : ReleaseStep noteStore
      (oneWorktree [['x']] [['c']] firstQueued nonePending [.published ['x']])
      (.retry ['c'] (drainWith (.rebaseConflict [])) fun n => (n, 0)) _ :=
    ReleaseStep.retry _ ['c'] (drainWith (.rebaseConflict [])) (fun n => (n, 0))
      (.queued ['c'] ['w'] [] 0) rfl (.inr nofun) (by rintro callback ⟨⟩; rfl)
  have first : KeepsApart noteStore (oneWorktree [] [] .empty nonePending [])
      (.commit ['w'] ['c'] (some ([], 0))) := by
    rintro ⟨branch, found, sha, beyond, demoted, path, member, -⟩
    cases member
  have alone : KeepsApart noteStore
      (oneWorktree [['x']] [['c']] firstQueued nonePending [.published ['x']])
      (.retry ['c'] (drainWith (.rebaseConflict [])) fun n => (n, 0)) := by
    intro entry here removed other waiting apart there
    rw [oneWorktree, firstQueued, PushState.enqueue, PushState.write, PushEntry.queued,
      AList.lookup_insert_ne apart] at there
    cases there
  exact Run.tail (Run.tail (Run.tail (Run.single ⟨trivial, created⟩) ⟨first, committed⟩)
    ⟨trivial, moved⟩) ⟨alone, demoted⟩

/-- A commit that was demoted and not pushed since has not slipped. -/
theorem demoted_commit_is_withheld :
    Avoids (Slips noteStore) demotedTrace :=
  (demoted_commits_are_withheld noteStore run_demoted).1

/-- The demoted commit is published with the next one of the session, once upstream took back
what it conflicted with. -/
theorem run_published :
    Run (ReleaseStep noteStore) (oneWorktree [['x']] [['c']] queue pending demotedTrace)
      [.others [['y']], .commit ['w'] ['d'] (some ([], 0)),
        .refresh ['w'] [['c', '2'], ['d', '2']], .push ['d'] (drainWith .pushed)]
      { (oneWorktree [['x'], ['y']] [['x'], ['y'], ['c', '2'], ['d', '2']]
          (queue.enqueue ['d'] ['w'] [] 0) pending
          (demotedTrace ++ [.published ['y']])).extend [['c', '2'], ['d', '2']] with
        queue := (queue.enqueue ['d'] ['w'] [] 0).drainName (drainWith .pushed) ['d'] } := by
  have undemoted : ∀ sha, sha ≠ ['c'] → ∀ known path,
      .demoted known path ∈ demotedTrace ++ [.published ['y']] →
        noteStore.origin known ≠ sha := by
    intro sha other known path member
    simp only [demotedTrace, List.cons_append, List.nil_append, List.mem_cons, reduceCtorEq,
      ReleaseEvent.demoted.injEq, List.not_mem_nil, or_false, false_or] at member
    rw [member.1]
    exact other.symm
  have reverted : ReleaseStep noteStore
      (oneWorktree [['x']] [['c']] queue pending demotedTrace) (.others [['y']])
      (oneWorktree [['x'], ['y']] [['c']] queue pending
        (demotedTrace ++ [.published ['y']])) := by
    apply ReleaseStep.others
    intro sha member
    cases List.mem_singleton.mp member
    exact fresh_oneWorktree (by decide) (by decide) fun known path member =>
      undemoted _ (by decide) known path (List.mem_append_left _ member)
  have committed : ReleaseStep noteStore
      (oneWorktree [['x'], ['y']] [['c']] queue pending (demotedTrace ++ [.published ['y']]))
      (.commit ['w'] ['d'] (some ([], 0)))
      (oneWorktree [['x'], ['y']] [['c'], ['d']] (queue.enqueue ['d'] ['w'] [] 0) pending
        (demotedTrace ++ [.published ['y']])) :=
    ReleaseStep.commit_oneWorktree
      (fresh_oneWorktree (by decide) (by decide) (undemoted _ (by decide)))
  have rebased : ReleaseStep noteStore
      (oneWorktree [['x'], ['y']] [['c'], ['d']] (queue.enqueue ['d'] ['w'] [] 0) pending
        (demotedTrace ++ [.published ['y']]))
      (.refresh ['w'] [['c', '2'], ['d', '2']])
      (oneWorktree [['x'], ['y']] [['x'], ['y'], ['c', '2'], ['d', '2']]
        (queue.enqueue ['d'] ['w'] [] 0) pending (demotedTrace ++ [.published ['y']])) :=
    ReleaseStep.refresh_oneWorktree (by decide)
  have ahead : ∀ sha ∈ [['c', '2'], ['d', '2']], sha ∉ [['x'], ['y']] := by
    decide
  have pushed : ReleaseStep noteStore _ (.push ['d'] (drainWith .pushed)) _ := ReleaseStep.push
    (oneWorktree [['x'], ['y']] [['x'], ['y'], ['c', '2'], ['d', '2']]
      (queue.enqueue ['d'] ['w'] [] 0) pending (demotedTrace ++ [.published ['y']]))
    ['d'] (drainWith .pushed) (.queued ['d'] ['w'] [] 0) [['c', '2'], ['d', '2']]
    (AList.lookup_insert _) rfl rfl branches_oneWorktree ahead
  have rebasedRun := Run.tail (Run.tail (Run.single reverted) committed) rebased
  exact Run.tail rebasedRun pushed

/-- A commit that was demoted can be published without an approval. -/
theorem later_commit_releases_demoted :
    ∃ labels state, Run (ReleaseStep noteStore) (.start [] 0) labels state ∧
      ¬Avoids (Slips noteStore) state.trace := by
  refine ⟨_, _, run_demoted.of_restrict.trans run_published, ?_⟩
  intro avoids
  have kept := (avoids_extend.mp avoids).2 ['c', '2'] List.mem_cons_self
  apply kept
  have demoted : ReleaseEvent.demoted ['c'] "a.md".toList ∈ demotedTrace :=
    List.mem_cons_of_mem _ List.mem_cons_self
  refine ⟨['c'], "a.md".toList, List.mem_append_left _ demoted, rfl, ?_⟩
  intro proposal member
  simp [oneWorktree, demotedTrace] at member

end Kept

end DataOlympus
