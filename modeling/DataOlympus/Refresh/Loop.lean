import DataOlympus.Gate.Accepted
import DataOlympus.Transition.Run

/-!
# The refresh loop and the health report

Every tick of the loop fetches the trunk, moves `HEAD` forward and rebuilds the index if `HEAD`
moved.  A worker does this while reports are given, and what it did is recorded behind it; a
failed build leaves the served index in place.  A report reads what was recorded, and the meta
data of the index through a cache that concurrent readers fill.  What it says of the index is
true outside of the moments between the move of `HEAD` and the invalidation of the cache, or the
record of a failed build, as long as no command raises or fails behind the move and no reader is
overtaken by a build.
-/

namespace DataOlympus.Refresh

open Transition

/-! ## Synchronizing the trunk -/

/-- How the git commands of one tick end; `σ` are the commits. -/
inductive Sync (σ : Type) where
  | noOrigin
  /-- `git remote` fails where there is an `origin`. -/
  | unlisted
  | fetchFails (stderr : PyStr)
  /-- `git merge --ff-only` has a positive exit status; `head` is where it leaves `HEAD`. -/
  | mergeFails (stderr : PyStr) (head : σ) (remote : Option σ)
  | merges (head : σ) (remote : Option σ)
  /-- A command times out or fails outright; `head` is where it leaves `HEAD`. -/
  | raises (head : σ)

/-- Where the commands leave `HEAD`. -/
def Sync.leaves {σ : Type} (previous : σ) : Sync σ → σ
  | .mergeFails _ head _ => head
  | .merges head _ => head
  | .raises head => head
  | _ => previous

/-- The remote was reached, or there is none. -/
def Sync.succeeds {σ : Type} : Sync σ → Bool
  | .noOrigin => true
  | .merges _ _ => true
  | _ => false

/-- The status of a synchronization. -/
inductive SyncStatus where
  | changed
  | noChange
  | noRemote
  | fetchFailed
  | ffFailed
  deriving DecidableEq

/-- `FfMergeResult`. -/
structure FfMergeResult (σ : Type) where
  previousSha : σ
  currentSha : σ
  changed : Bool
  note : PyStr
  status : SyncStatus
  remoteSha : Option σ

/-- `ff_merge_upstream(…)`, unless it raises.  `_has_origin` does not look at the exit code. -/
def ffMergeUpstream {σ : Type} [DecidableEq σ] (previous : σ) : Sync σ → Option (FfMergeResult σ)
  | .noOrigin => some ⟨previous, previous, false, [], .noRemote, none⟩
  | .unlisted => some ⟨previous, previous, false, [], .noRemote, none⟩
  | .fetchFails stderr => some ⟨previous, previous, false,
      PyStr.lit "fetch_failed: " ++ stderr.strip.take 200, .fetchFailed, none⟩
  | .mergeFails stderr _ remote => some ⟨previous, previous, false,
      PyStr.lit "ff_merge_failed: " ++ stderr.strip.take 200, .ffFailed, remote⟩
  | .merges head remote =>
      let changed := head ≠ previous
      some ⟨previous, head, changed, [], if changed then .changed else .noChange, remote⟩
  | .raises _ => none

/-- The server has the state of the trunk. -/
def SyncStatus.succeeded : SyncStatus → Bool
  | fetchFailed => false
  | ffFailed => false
  | _ => true

/-! ## The state of the server -/

/-- An index file: the rows, and the commit and the time of its meta data. -/
structure Served (σ : Type) where
  index : Index
  sourceCommit : σ
  builtAt : Int

/-- How an index build ended last. -/
inductive BuildStatus where
  | ok
  | failed
  deriving DecidableEq

/-- How `refresh_once` ends. -/
inductive Outcome (σ : Type) where
  | noChange
  | rebuilt (idx : Served σ)
  | failed (error : PyStr) (conflicts : List (PyStr × List RelPath))

/-- Where a tick stands. -/
inductive Phase (σ : Type) where
  | waiting
  /-- `ff_merge_upstream` has returned. -/
  | synchronized (result : FfMergeResult σ)
  /-- The new index file is in place, and the cache still holds what was read before. -/
  | swapped (result : FfMergeResult σ) (idx : Served σ)
  /-- `refresh_once` has returned to the loop. -/
  | returned (result : FfMergeResult σ) (outcome : Outcome σ)

/-- A call of `Index.health` that found nothing in the cache, with the time at which it looked.
The file may be unreadable. -/
inductive HealthCall (σ : Type) where
  | idle
  | missed (time : Int)
  | loaded (time : Int) (read : Option (Served σ))

/-- What the loop and the reports read and write of `ServerState`, the index, and the `HEAD` of
the main clone. -/
structure ServerState (σ : Type) where
  head : σ
  phase : Phase σ
  /-- The index file. -/
  idx : Served σ
  /-- `_health_cache`. -/
  healthCache : Option (Int × Option (Served σ))
  calls : Nat → HealthCall σ
  lastGitPullAt : Option Int
  lastGitFetchStatus : SyncStatus
  lastGitFetchError : Option PyStr
  lastGitFetchAt : Option Int
  lastSuccessfulRefreshAt : Option Int
  remoteHeadSha : Option σ
  lastIndexBuildStatus : BuildStatus
  lastIndexError : Option PyStr
  lastIndexErrorAt : Option Int
  lastIndexConflicts : List (PyStr × List RelPath)

/-- What happens: the worker synchronizes, builds and invalidates the cache, the loop records
what it did, and calls of `Index.health` that miss the cache read the file and fill it. -/
inductive RefreshEvent (σ : Type) where
  | sync (sync : Sync σ)
  /-- `disturbance` is the text of an exception for a reason outside of the tree. -/
  | build (now : Int) (disturbance : Option PyStr)
  | invalidate
  | record (now errorAt : Int)
  | miss (call : Nat) (time : Int)
  | load (call : Nat) (readable : Bool)
  | store (call : Nat)

section Loop

variable {σ : Type} [DecidableEq σ] (runtime : Runtime) (config : IndexConfig)
  (describe : BuildError → PyStr) (trees : σ → Tree)

/-- `rebuild_index_safely(…)`; `trees` are the contents of the commits. -/
def rebuildIndexSafely (sourceCommit : σ) (now : Int) (disturbance : Option PyStr) : Outcome σ :=
  match disturbance with
  | some error => .failed error []
  | none =>
      match runtime.build config (trees sourceCommit) with
      | .ok index => .rebuilt ⟨index, sourceCommit, now⟩
      | .error (.duplicateId conflicts) =>
          .failed (describe (.duplicateId conflicts)) conflicts
      | .error error => .failed (describe error) []

/-- `refresh_once(…)` behind the synchronization. -/
def refreshOnce (result : FfMergeResult σ) (now : Int) (disturbance : Option PyStr) : Outcome σ :=
  if result.changed then
    rebuildIndexSafely runtime config describe trees result.currentSha now disturbance
  else .noChange

namespace ServerState

/-- What the loop records of the synchronization. -/
def recordSync (state : ServerState σ) (result : FfMergeResult σ) (now : Int) : ServerState σ :=
  let recorded := { state with
    lastGitFetchStatus := result.status
    lastGitFetchAt := some now
    remoteHeadSha := result.remoteSha }
  if result.status.succeeded then
    { recorded with
      lastGitFetchError := none
      lastGitPullAt := some now
      lastSuccessfulRefreshAt :=
        if result.status = .changed ∨ result.status = .noChange then some now
        else state.lastSuccessfulRefreshAt }
  else { recorded with lastGitFetchError := some result.note }

/-- What the loop records of the build. -/
def recordBuild (state : ServerState σ) (errorAt : Int) : Outcome σ → ServerState σ
  | .noChange => state
  | .rebuilt _ => { state with
      lastIndexBuildStatus := .ok
      lastIndexError := none
      lastIndexErrorAt := none
      lastIndexConflicts := [] }
  | .failed error conflicts => { state with
      lastIndexBuildStatus := .failed
      lastIndexError := some error
      lastIndexErrorAt := some errorAt
      lastIndexConflicts := conflicts }

/-- The state with one call of `Index.health` at another point. -/
def setCall (state : ServerState σ) (call : Nat) (stage : HealthCall σ) : ServerState σ :=
  { state with calls := Function.update state.calls call stage }

/-- One event of `git_pull_loop` and of the calls of `Index.health`, if it can happen now.  What
is raised is logged, and the loop waits for its next tick. -/
def next (state : ServerState σ) : RefreshEvent σ → Option (ServerState σ)
  | .sync sync =>
      match state.phase with
      | .waiting => some { state with
          head := sync.leaves state.head
          phase := (ffMergeUpstream state.head sync).elim .waiting .synchronized }
      | _ => none
  | .build now disturbance =>
      match state.phase with
      | .synchronized result =>
          match refreshOnce runtime config describe trees result now disturbance with
          | .rebuilt idx => some { state with idx := idx, phase := .swapped result idx }
          | outcome => some { state with phase := .returned result outcome }
      | _ => none
  | .invalidate =>
      match state.phase with
      | .swapped result idx => some { state with
          healthCache := none
          phase := .returned result (.rebuilt idx) }
      | _ => none
  | .record now errorAt =>
      match state.phase with
      | .returned result outcome => some
          { (state.recordSync result now).recordBuild errorAt outcome with phase := .waiting }
      | _ => none
  | .miss call time =>
      match state.calls call with
      | .idle => some (state.setCall call (.missed time))
      | _ => none
  | .load call readable =>
      match state.calls call with
      | .missed time => some
          (state.setCall call (.loaded time (if readable then some state.idx else none)))
      | _ => none
  | .store call =>
      match state.calls call with
      | .loaded time read => some
          { state.setCall call .idle with healthCache := some (time, read) }
      | _ => none

/-- The server under these events. -/
def step : System (ServerState σ) (RefreshEvent σ) := fun source event target =>
  source.next runtime config describe trees event = some target

/-- The server right after `build_app` built the index, if the build succeeds. -/
def launch (head : σ) (builtAt now : Int) : Except BuildError (ServerState σ) :=
  (runtime.build config (trees head)).map fun index => {
    head := head
    phase := .waiting
    idx := ⟨index, head, builtAt⟩
    healthCache := none
    calls := fun _ => .idle
    lastGitPullAt := some now
    lastGitFetchStatus := .noChange
    lastGitFetchError := none
    lastGitFetchAt := none
    lastSuccessfulRefreshAt := none
    remoteHeadSha := none
    lastIndexBuildStatus := .ok
    lastIndexError := none
    lastIndexErrorAt := none
    lastIndexConflicts := [] }

end ServerState

end Loop

/-! ## The health report -/

/-- What `snapshot` reports of the index and of the trunk; the commit of an index that cannot be
read is the empty string. -/
structure HealthState (σ : Type) where
  kbCommit : Option σ
  indexBuiltAt : Option Int
  totalRules : Nat
  lastGitPullAt : Option Int
  stalenessSeconds : Option Int
  degraded : Bool
  lastIndexBuildStatus : BuildStatus
  malformedFrontmatter : Nat
  malformedValidity : Nat

/-- When a report is given: the clock of the cache, whether the report has found nothing in it
before, the wall clock, and whether the index file can be read. -/
structure Moment where
  time : Int
  missed : Bool
  now : Int
  readable : Bool

/-- The settings of the report. -/
structure HealthConfig where
  healthTtlSec : Int
  stalenessDegradedSec : Int

namespace ServerState

variable {σ : Type} (state : ServerState σ) (health : HealthConfig) (moment : Moment)

/-- `Index.health()`: what is in the cache while that is fresh, else the file. -/
def indexHealth : Option (Served σ) :=
  match state.healthCache.filter fun cached =>
      !moment.missed && moment.time - cached.1 < health.healthTtlSec with
  | some cached => cached.2
  | none => if moment.readable then some state.idx else none

/-- `snapshot(…)`. -/
def snapshot : HealthState σ :=
  let read := state.indexHealth health moment
  let totalRules := read.elim 0 fun idx => idx.index.rows.length
  let staleness := state.lastGitPullAt.map fun pulled => moment.now - pulled
  { kbCommit := read.map Served.sourceCommit
    indexBuiltAt := read.map Served.builtAt
    totalRules := totalRules
    lastGitPullAt := state.lastGitPullAt
    stalenessSeconds := staleness
    degraded := state.lastGitPullAt.isNone ||
      staleness.any (health.stalenessDegradedSec < ·) || totalRules = 0 ||
      state.lastIndexBuildStatus ≠ .ok
    lastIndexBuildStatus := state.lastIndexBuildStatus
    malformedFrontmatter := read.elim 0 fun idx => idx.index.malformedFrontmatter
    malformedValidity := read.elim 0 fun idx => idx.index.malformedValidity }

/-- The answer of `/readyz`. -/
def ready : Bool :=
  (state.snapshot health moment).indexBuiltAt.isSome && state.lastIndexBuildStatus = .ok

end ServerState

/-! ## What the events leave -/

section Truth

variable {σ : Type} [DecidableEq σ] {runtime : Runtime} {config : IndexConfig}
  {describe : BuildError → PyStr} {trees : σ → Tree}

/-- The index was built whole from the commit that its meta data name. -/
def Whole (runtime : Runtime) (config : IndexConfig) (trees : σ → Tree) (idx : Served σ) : Prop :=
  runtime.build config (trees idx.sourceCommit) = .ok idx.index

omit [DecidableEq σ] in
/-- Nothing is built where nothing changed; what is built is whole, and of the commit. -/
theorem refreshOnce_cases (result : FfMergeResult σ) (now : Int) (disturbance : Option PyStr) :
    (result.changed = false ∧
      refreshOnce runtime config describe trees result now disturbance = .noChange) ∨
    (∃ idx, refreshOnce runtime config describe trees result now disturbance = .rebuilt idx ∧
      Whole runtime config trees idx ∧ idx.sourceCommit = result.currentSha) ∨
    ∃ error conflicts, refreshOnce runtime config describe trees result now disturbance =
      .failed error conflicts := by
  unfold refreshOnce
  split
  · unfold rebuildIndexSafely
    split
    · exact .inr (.inr ⟨_, _, rfl⟩)
    · split
      · rename_i index built
        exact .inr (.inl ⟨_, rfl, built, rfl⟩)
      · exact .inr (.inr ⟨_, _, rfl⟩)
      · exact .inr (.inr ⟨_, _, rfl⟩)
  · rename_i unchanged
    exact .inl ⟨Bool.not_eq_true _ ▸ unchanged, rfl⟩

/-- No command moves `HEAD` and then raises or fails. -/
def Sync.StopsInPlace {σ : Type} (previous : σ) : Sync σ → Prop
  | .mergeFails _ head _ => head = previous
  | .raises head => head = previous
  | _ => True

/-- What a synchronization returns: where `HEAD` is left, that it did not move if nothing changed,
and a success only of one that succeeds, unless `git remote` fails. -/
theorem ffMergeUpstream_spec {previous : σ} {sync : Sync σ} {result : FfMergeResult σ}
    (merged : ffMergeUpstream previous sync = some result)
    (inPlace : sync.StopsInPlace previous) :
    result.currentSha = sync.leaves previous ∧
      (result.changed = false → result.currentSha = previous) ∧
      (result.status.succeeded = true → sync.succeeds = true ∨ sync = .unlisted) := by
  cases sync with
  | noOrigin =>
      cases merged
      exact ⟨rfl, fun _ => rfl, fun _ => .inl rfl⟩
  | unlisted =>
      cases merged
      exact ⟨rfl, fun _ => rfl, fun _ => .inr rfl⟩
  | fetchFails stderr =>
      cases merged
      exact ⟨rfl, fun _ => rfl, fun succeeded => by cases succeeded⟩
  | mergeFails stderr head remote =>
      cases merged
      exact ⟨Eq.symm inPlace, fun _ => rfl, fun succeeded => by cases succeeded⟩
  | merges head remote =>
      cases merged
      exact ⟨rfl, fun same => by simpa using same, fun _ => .inl rfl⟩
  | raises head => cases merged

/-! ### One step -/

section Steps

variable {source target : ServerState σ}

/-- What an event does. -/
inductive Leaves (runtime : Runtime) (config : IndexConfig) (describe : BuildError → PyStr)
    (trees : σ → Tree) (source : ServerState σ) : RefreshEvent σ → ServerState σ → Prop
  | raised {sync : Sync σ} (waits : source.phase = .waiting)
      (none : ffMergeUpstream source.head sync = none) :
      Leaves runtime config describe trees source (.sync sync)
        { source with head := sync.leaves source.head, phase := .waiting }
  | synchronized {sync : Sync σ} {result : FfMergeResult σ} (waits : source.phase = .waiting)
      (merged : ffMergeUpstream source.head sync = some result) :
      Leaves runtime config describe trees source (.sync sync)
        { source with head := sync.leaves source.head, phase := .synchronized result }
  | swapped {result : FfMergeResult σ} {idx : Served σ} {now : Int} {disturbance : Option PyStr}
      (here : source.phase = .synchronized result) (whole : Whole runtime config trees idx)
      (commit : idx.sourceCommit = result.currentSha) :
      Leaves runtime config describe trees source (.build now disturbance)
        { source with idx := idx, phase := .swapped result idx }
  | unchanged {result : FfMergeResult σ} {now : Int} {disturbance : Option PyStr}
      (here : source.phase = .synchronized result) (same : result.changed = false) :
      Leaves runtime config describe trees source (.build now disturbance)
        { source with phase := .returned result .noChange }
  | failed {result : FfMergeResult σ} {now : Int} {disturbance : Option PyStr} {error : PyStr}
      {conflicts : List (PyStr × List RelPath)} (here : source.phase = .synchronized result) :
      Leaves runtime config describe trees source (.build now disturbance)
        { source with phase := .returned result (.failed error conflicts) }
  | invalidated {result : FfMergeResult σ} {idx : Served σ}
      (here : source.phase = .swapped result idx) :
      Leaves runtime config describe trees source .invalidate
        { source with healthCache := none, phase := .returned result (.rebuilt idx) }
  | recorded {result : FfMergeResult σ} {outcome : Outcome σ} {now errorAt : Int}
      (here : source.phase = .returned result outcome) :
      Leaves runtime config describe trees source (.record now errorAt)
        { (source.recordSync result now).recordBuild errorAt outcome with phase := .waiting }
  | missed {call : Nat} {time : Int} :
      Leaves runtime config describe trees source (.miss call time)
        (source.setCall call (.missed time))
  | loaded {call : Nat} {time : Int} {readable : Bool} :
      Leaves runtime config describe trees source (.load call readable)
        (source.setCall call (.loaded time (if readable then some source.idx else none)))
  | stored {call : Nat} {time : Int} {read : Option (Served σ)}
      (here : source.calls call = .loaded time read) :
      Leaves runtime config describe trees source (.store call)
        { source.setCall call .idle with healthCache := some (time, read) }

theorem leaves_of_step {event : RefreshEvent σ}
    (step : ServerState.step runtime config describe trees source event target) :
    Leaves runtime config describe trees source event target := by
  unfold ServerState.step ServerState.next at step
  cases event with
  | sync sync =>
      dsimp only at step
      split at step
      · rename_i waits
        cases merged : ffMergeUpstream source.head sync with
        | none =>
            rw [merged] at step
            cases step
            exact .raised waits merged
        | some result =>
            rw [merged] at step
            cases step
            exact .synchronized waits merged
      · cases step
  | build now disturbance =>
      dsimp only at step
      split at step
      · rename_i result here
        obtain ⟨same, ended⟩ | ⟨idx, ended, whole, commit⟩ | ⟨error, conflicts, ended⟩ :=
          @refreshOnce_cases _ runtime config describe trees result now disturbance
        · rw [ended] at step
          cases step
          exact .unchanged here same
        · rw [ended] at step
          cases step
          exact .swapped here whole commit
        · rw [ended] at step
          cases step
          exact .failed here
      · cases step
  | invalidate =>
      dsimp only at step
      split at step
      · rename_i here
        cases step
        exact .invalidated here
      · cases step
  | record now errorAt =>
      dsimp only at step
      split at step
      · rename_i here
        cases step
        exact .recorded here
      · cases step
  | miss call time =>
      dsimp only at step
      split at step
      · cases step
        exact .missed
      · cases step
  | load call readable =>
      dsimp only at step
      split at step
      · cases step
        exact .loaded
      · cases step
  | store call =>
      dsimp only at step
      split at step
      · rename_i here
        cases step
        exact .stored here
      · cases step

end Steps

/-! ### What every run keeps -/

/-- A property of what a call of `Index.health` has read. -/
def HealthCall.Reads (holds : Served σ → Prop) : HealthCall σ → Prop
  | loaded _ (some idx) => holds idx
  | _ => True

/-- A property of every index that the file, the cache or a call holds. -/
structure ServerState.Holds (holds : Served σ → Prop) (state : ServerState σ) : Prop where
  idx : holds state.idx
  cached : ∀ time idx, state.healthCache = some (time, some idx) → holds idx
  calls : ∀ call, (state.calls call).Reads holds

variable {start source target state : ServerState σ} {labels : List (RefreshEvent σ)}

omit [DecidableEq σ] in
theorem ServerState.Holds.setCall {holds : Served σ → Prop} (all : source.Holds holds) {call : Nat}
    {stage : HealthCall σ} (reads : stage.Reads holds) : (source.setCall call stage).Holds holds :=
  ⟨all.idx, all.cached, fun other => by
    by_cases same : other = call
    · subst same
      simpa [ServerState.setCall] using reads
    · simpa [ServerState.setCall, same] using all.calls other⟩

omit [DecidableEq σ] in
/-- The record of a tick changes neither the trunk nor an index. -/
theorem recorded_kept (source : ServerState σ) (result : FfMergeResult σ)
    (outcome : Outcome σ) (now errorAt : Int) :
    let target := (source.recordSync result now).recordBuild errorAt outcome
    target.head = source.head ∧ target.idx = source.idx ∧
      target.healthCache = source.healthCache ∧ target.calls = source.calls := by
  unfold ServerState.recordSync
  dsimp only
  split
  · cases outcome <;> exact ⟨rfl, rfl, rfl, rfl⟩
  · cases outcome <;> exact ⟨rfl, rfl, rfl, rfl⟩

omit [DecidableEq σ] in
/-- What the record says of the build, and of the last synchronization. -/
theorem recorded_of (source : ServerState σ) (result : FfMergeResult σ) (outcome : Outcome σ)
    (now errorAt : Int) :
    let target := (source.recordSync result now).recordBuild errorAt outcome
    (target.lastIndexBuildStatus = .ok → (outcome = .noChange ∧ source.lastIndexBuildStatus = .ok) ∨
      ∃ idx, outcome = .rebuilt idx) ∧
    (target.lastGitPullAt = source.lastGitPullAt ∨
      target.lastGitPullAt = some now ∧ result.status.succeeded = true) := by
  unfold ServerState.recordSync
  dsimp only
  split
  · rename_i succeeded
    cases outcome with
    | noChange => exact ⟨fun ok => .inl ⟨rfl, ok⟩, .inr ⟨rfl, succeeded⟩⟩
    | rebuilt idx => exact ⟨fun _ => .inr ⟨idx, rfl⟩, .inr ⟨rfl, succeeded⟩⟩
    | failed error conflicts => exact ⟨fun ok => (by cases ok), .inr ⟨rfl, succeeded⟩⟩
  · cases outcome with
    | noChange => exact ⟨fun ok => .inl ⟨rfl, ok⟩, .inl rfl⟩
    | rebuilt idx => exact ⟨fun _ => .inr ⟨idx, rfl⟩, .inl rfl⟩
    | failed error conflicts => exact ⟨fun ok => (by cases ok), .inl rfl⟩

theorem ServerState.Holds.step {event : RefreshEvent σ}
    (all : source.Holds (Whole runtime config trees))
    (leaves : Leaves runtime config describe trees source event target) :
    target.Holds (Whole runtime config trees) := by
  cases leaves with
  | raised => exact ⟨all.idx, all.cached, all.calls⟩
  | synchronized => exact ⟨all.idx, all.cached, all.calls⟩
  | swapped _ whole => exact ⟨whole, all.cached, all.calls⟩
  | unchanged => exact ⟨all.idx, all.cached, all.calls⟩
  | failed => exact ⟨all.idx, all.cached, all.calls⟩
  | invalidated => exact ⟨all.idx, fun _ _ empty => (by cases empty), all.calls⟩
  | @recorded result outcome now errorAt =>
      obtain ⟨-, idx, cache, calls⟩ := recorded_kept source result outcome now errorAt
      exact ⟨idx ▸ all.idx, fun time => cache ▸ all.cached time, fun call => calls ▸ all.calls call⟩
  | missed => exact all.setCall trivial
  | @loaded _ _ readable =>
      refine all.setCall ?_
      cases readable with
      | false => exact trivial
      | true => exact all.idx
  | @stored call time read here =>
      have kept : (source.setCall call .idle).Holds _ := all.setCall trivial
      refine ⟨kept.idx, ?_, kept.calls⟩
      rintro _ idx ⟨⟩
      have reads := all.calls call
      rwa [here] at reads

theorem holds_of_run {head : σ} {builtAt now : Int}
    (launched : ServerState.launch runtime config trees head builtAt now = .ok start)
    (run : Run (ServerState.step runtime config describe trees) start labels state) :
    state.Holds (Whole runtime config trees) := by
  induction run with
  | refl =>
      rcases Except.map_eq_ok_iff.mp launched with ⟨index, built, rfl⟩
      exact ⟨built, fun _ _ empty => (by cases empty), fun _ => trivial⟩
  | tail _ last ih => exact ih.step (leaves_of_step last)

omit [DecidableEq σ] in
/-- A report names the index file, or what is in the cache. -/
theorem indexHealth_spec {holds : Served σ → Prop} (served : holds state.idx)
    (cached : ∀ time idx, state.healthCache = some (time, some idx) → holds idx)
    {health : HealthConfig} {moment : Moment} {idx : Served σ}
    (read : state.indexHealth health moment = some idx) : holds idx := by
  unfold ServerState.indexHealth at read
  split at read
  · rename_i found fresh
    obtain ⟨filled, -⟩ := Option.filter_eq_some_iff.mp fresh
    exact cached found.1 idx (by rw [filled, ← read])
  · split at read
    · exact Option.some.inj read ▸ served
    · cases read

/-! ### What orderly runs keep -/

/-- No command raises or fails after it moved `HEAD`, `git remote` does not fail where there is an
`origin`, and no reader is overtaken by a build: what fills the cache is the index file still. -/
def Orderly (state : ServerState σ) : RefreshEvent σ → Prop
  | .sync sync => sync.StopsInPlace state.head ∧ sync ≠ .unlisted
  | .store call => (∃ result idx, state.phase = .swapped result idx) ∨
      (state.calls call).Reads (· = state.idx)
  | _ => True

/-- The tick is not between the move of `HEAD` and the invalidation of the cache, or the record of a
failed build. -/
def Phase.Settled : Phase σ → Prop
  | waiting => True
  | synchronized result => result.changed = false
  | swapped _ _ => False
  | returned _ (.failed _ _) => False
  | returned _ _ => True

/-- The last synchronization of a run. -/
def LastSync (labels : List (RefreshEvent σ)) (sync : Sync σ) : Prop :=
  ∃ before between, labels = before ++ .sync sync :: between ∧ ∀ other, .sync other ∉ between

/-- A synchronization that succeeded was recorded at the time. -/
def SynchronizedAt (labels : List (RefreshEvent σ)) (time : Int) : Prop :=
  ∃ before sync errorAt after, labels = before ++ .record time errorAt :: after ∧
    LastSync before sync ∧ sync.succeeds = true

omit [DecidableEq σ] in
theorem LastSync.append {sync : Sync σ} {event : RefreshEvent σ} (last : LastSync labels sync)
    (apart : ∀ other, event ≠ .sync other) : LastSync (labels ++ [event]) sync := by
  obtain ⟨before, between, rfl, others⟩ := last
  refine ⟨before, between ++ [event], by simp, fun other member => ?_⟩
  rcases List.mem_append.mp member with early | late
  · exact others other early
  · exact apart other (List.mem_singleton.mp late).symm

omit [DecidableEq σ] in
theorem SynchronizedAt.append {time : Int} {event : RefreshEvent σ}
    (synchronized : SynchronizedAt labels time) : SynchronizedAt (labels ++ [event]) time := by
  obtain ⟨before, sync, errorAt, after, rfl, last, succeeds⟩ := synchronized
  exact ⟨before, sync, errorAt, after ++ [event], by simp, last, succeeds⟩

/-- The served index is the one of `HEAD` as long as no build is reported as failed. -/
def Current (state : ServerState σ) : Prop :=
  state.lastIndexBuildStatus = .ok → state.idx.sourceCommit = state.head

/-- What each phase tells of the trunk and of the index. -/
def Phase.Tells (state : ServerState σ) : Phase σ → Prop
  | waiting => Current state
  | synchronized result =>
      result.currentSha = state.head ∧ (result.changed = false → Current state)
  | swapped _ _ => state.idx.sourceCommit = state.head
  | returned _ .noChange => Current state
  | returned _ (.rebuilt _) => state.idx.sourceCommit = state.head
  | returned _ (.failed _ _) => True

/-- The synchronization that a tick has not yet recorded. -/
def Phase.result : Phase σ → Option (FfMergeResult σ)
  | waiting => none
  | synchronized result => some result
  | swapped result _ => some result
  | returned result _ => some result

/-- A synchronization that counts as a success, and is not yet recorded, is one. -/
def Ran (labels : List (RefreshEvent σ)) (phase : Phase σ) : Prop :=
  ∀ result ∈ phase.result, result.status.succeeded = true →
    ∃ sync, LastSync labels sync ∧ sync.succeeds = true

omit [DecidableEq σ] in
theorem Ran.append {phase : Phase σ} {event : RefreshEvent σ} (ran : Ran labels phase)
    (apart : ∀ other, event ≠ .sync other) : Ran (labels ++ [event]) phase := by
  intro result held counts
  obtain ⟨sync, last, succeeds⟩ := ran result held counts
  exact ⟨sync, last.append apart, succeeds⟩

/-- What holds in every state of an orderly run. -/
structure Coherent (launchedAt : Int) (labels : List (RefreshEvent σ)) (state : ServerState σ) :
    Prop where
  tells : state.phase.Tells state
  /-- The cache holds the index file, unless it is about to be invalidated. -/
  cached : (∃ result idx, state.phase = .swapped result idx) ∨
    ∀ time idx, state.healthCache = some (time, some idx) → idx = state.idx
  ran : Ran labels state.phase
  /-- The synchronization that is reported took place, or the server had just started. -/
  pulled : ∀ time, state.lastGitPullAt = some time →
    time = launchedAt ∨ SynchronizedAt labels time

theorem leaves_of_raised {previous : σ} {sync : Sync σ}
    (raised : ffMergeUpstream previous sync = none) (inPlace : sync.StopsInPlace previous) :
    sync.leaves previous = previous := by
  cases sync with
  | noOrigin => cases raised
  | unlisted => cases raised
  | fetchFails stderr => cases raised
  | mergeFails stderr head remote => cases raised
  | merges head remote => cases raised
  | raises head => exact inPlace

omit [DecidableEq σ] in
theorem coherent_of_launch {head : σ} {builtAt launchedAt : Int}
    (launched : ServerState.launch runtime config trees head builtAt launchedAt = .ok start) :
    Coherent launchedAt [] start := by
  rcases Except.map_eq_ok_iff.mp launched with ⟨index, built, rfl⟩
  refine ⟨fun _ => rfl, .inr fun _ _ empty => (by cases empty), fun _ none => (by cases none), ?_⟩
  rintro time ⟨⟩
  exact .inl rfl

theorem Coherent.step {launchedAt : Int} {event : RefreshEvent σ}
    (coherent : Coherent launchedAt labels source) (orderly : Orderly source event)
    (leaves : Leaves runtime config describe trees source event target) :
    Coherent launchedAt (labels ++ [event]) target := by
  obtain ⟨tells, cached, ran, pulled⟩ := coherent
  have earlier : ∀ time, source.lastGitPullAt = some time →
      time = launchedAt ∨ SynchronizedAt (labels ++ [event]) time :=
    fun time reported => (pulled time reported).imp id SynchronizedAt.append
  have unswapped : (∀ result idx, source.phase ≠ .swapped result idx) →
      ∀ time idx, source.healthCache = some (time, some idx) → idx = source.idx := by
    intro apart
    rcases cached with ⟨result, idx, swapped⟩ | same
    · exact absurd swapped (apart result idx)
    · exact same
  cases leaves with
  | @raised sync waits none =>
      have still : sync.leaves source.head = source.head := leaves_of_raised none orderly.1
      rw [waits] at tells
      refine ⟨fun ok => (tells ok).trans still.symm, .inr (unswapped ?_), ?_, earlier⟩
      · simp [waits]
      · simp [Ran, Phase.result]
  | @synchronized sync result waits merged =>
      obtain ⟨moved, still, succeeded⟩ := ffMergeUpstream_spec merged orderly.1
      rw [waits] at tells
      refine ⟨⟨moved, fun same ok => ?_⟩, .inr (unswapped ?_), ?_, earlier⟩
      · exact (tells ok).trans ((still same).symm.trans moved)
      · simp [waits]
      · rintro _ ⟨⟩ counts
        rcases succeeded counts with succeeds | rfl
        · exact ⟨sync, ⟨labels, [], rfl, by simp⟩, succeeds⟩
        · exact absurd rfl orderly.2
  | @swapped result idx now disturbance here whole commit =>
      rw [here] at tells ran
      exact ⟨commit.trans tells.1, .inl ⟨result, idx, rfl⟩, ran.append (by simp), earlier⟩
  | @unchanged result now disturbance here same =>
      rw [here] at tells ran
      refine ⟨tells.2 same, .inr (unswapped ?_), ran.append (by simp), earlier⟩
      simp [here]
  | @failed result now disturbance error conflicts here =>
      rw [here] at tells ran
      refine ⟨trivial, .inr (unswapped ?_), ran.append (by simp), earlier⟩
      simp [here]
  | @invalidated result idx here =>
      rw [here] at tells ran
      exact ⟨tells, .inr fun _ _ empty => (by cases empty), ran.append (by simp), earlier⟩
  | @recorded result outcome now errorAt here =>
      obtain ⟨head, idx, cache, -⟩ := recorded_kept source result outcome now errorAt
      obtain ⟨status, reported⟩ := recorded_of source result outcome now errorAt
      rw [here] at tells ran
      refine ⟨fun ok => ?_, .inr fun time filled => ?_, ?_, fun time at' => ?_⟩
      · rcases status ok with ⟨rfl, before⟩ | ⟨built, rfl⟩
        · exact idx ▸ head ▸ tells before
        · exact idx ▸ head ▸ tells
      · rw [idx, cache]
        exact unswapped (by simp [here]) time filled
      · simp [Ran, Phase.result]
      · rcases reported with same | ⟨fresh, counts⟩
        · exact earlier time (same ▸ at')
        · obtain ⟨sync, last, succeeds⟩ := ran result rfl counts
          obtain rfl : now = time := Option.some.inj (fresh.symm.trans at')
          exact .inr ⟨labels, sync, errorAt, [], rfl, last, succeeds⟩
  | missed => exact ⟨tells, cached, ran.append (by simp), earlier⟩
  | loaded => exact ⟨tells, cached, ran.append (by simp), earlier⟩
  | @stored call time read here =>
      refine ⟨tells, orderly.imp id fun reads => ?_, ran.append (by simp), earlier⟩
      rintro _ idx ⟨⟩
      rwa [here] at reads

theorem coherent_of_run {head : σ} {builtAt launchedAt : Int}
    (launched : ServerState.launch runtime config trees head builtAt launchedAt = .ok start)
    (run : Run ((ServerState.step runtime config describe trees).restrict Orderly) start
      labels state) : Coherent launchedAt labels state := by
  induction run with
  | refl => exact coherent_of_launch launched
  | tail _ last ih => exact ih.step last.1 (leaves_of_step last.2)

omit [DecidableEq σ] in
/-- In a settled state the served index is the one of `HEAD`, unless a build is reported as failed,
and the cache holds nothing else. -/
theorem Coherent.of_settled {launchedAt : Int} (coherent : Coherent launchedAt labels state)
    (settled : state.phase.Settled) : Current state ∧
      ∀ time idx, state.healthCache = some (time, some idx) → idx = state.idx := by
  obtain ⟨tells, cached, -, -⟩ := coherent
  cases here : state.phase with
  | waiting =>
      rw [here] at tells
      exact ⟨tells, cached.resolve_left (by simp [here])⟩
  | synchronized result =>
      rw [here] at tells settled
      exact ⟨tells.2 settled, cached.resolve_left (by simp [here])⟩
  | swapped result idx =>
      rw [here] at settled
      exact settled.elim
  | returned result outcome =>
      rw [here] at tells settled
      refine ⟨?_, cached.resolve_left (by simp [here])⟩
      cases outcome with
      | noChange => exact tells
      | rebuilt idx => exact fun _ => tells
      | failed error conflicts => exact settled.elim

end Truth

/-- An empty trunk, to which one document is pushed. -/
def pushedTrees (pushed : Bool) : Tree :=
  if pushed then Tree.write ∅ rulePath (draft "Ask") else ∅

/-- A fetch fails, a report fills the cache, and the next tick brings the document. -/
def pushedEvents : List (RefreshEvent Bool) :=
  [.sync (.fetchFails []), .build 60 none, .record 60 60, .miss 0 118, .load 0 true, .store 0,
    .sync (.merges true (some true)), .build 120 none, .invalidate, .record 120 120]

end DataOlympus.Refresh
