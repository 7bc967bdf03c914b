import DataOlympus.Pending.Disk
import DataOlympus.Text.Order

/-!
# The push queue

Every commit that waits for its `git push` has a file `<sha>.json`.  A drain goes over
the files by name, calls the push for each, and removes the file, rewrites it or hands
its commit to the demotion callback.  The trace of these calls is kept beside the files.
-/

namespace DataOlympus

open Lines Transition

/-- `git rev-parse` of a commit. -/
abbrev Sha : Type := Text

/-- The JSON document of a queue file. -/
structure PushEntry where
  sha : Sha
  worktreePath : Text
  metadata : Mapping
  enqueuedAt : Time
  attempts : Nat
  lastError : Text
  lastErrorAt : Option Time
  nonFfAttempts : Nat
  frozen : Bool
  recovered : Bool

/-- How `push_fn` ends: it returns, or raises one of the errors that a drain tells
apart. -/
inductive PushOutcome where
  | pushed
  | rebaseConflict (detail : Text)
  | nonFastForward (detail : Text)
  | evidenceAtRisk
  | failed (error : Text)

/-- What the queue does that can be seen from outside. -/
inductive PushEvent where
  | enqueue (entry : PushEntry)
  /-- `push_fn` is called for the entry. -/
  | push (entry : PushEntry) (outcome : PushOutcome)
  /-- `on_rebase_conflict` is called for the entry. -/
  | demotion (entry : PushEntry) (succeeded : Bool)
  /-- The entry is frozen after this outcome. -/
  | freeze (entry : PushEntry) (outcome : PushOutcome)

/-- The arguments of one drain.  A callback that returns `false` has raised. -/
structure Drain where
  push : PushEntry → PushOutcome
  maxAttempts : Int
  onRebaseConflict : Option (PushEntry → Bool)
  now : Time

/-- `non_ff_demote_after`. -/
def nonFfDemoteAfter : Nat :=
  5

namespace PushEntry

/-- The document that `enqueue` writes. -/
def queued (sha : Sha) (worktreePath : Text) (metadata : Mapping) (now : Time) : PushEntry :=
  ⟨sha, worktreePath, metadata, now, 0, [], none, 0, false, false⟩

/-- The entry with one more lost race in a row. -/
def counted (entry : PushEntry) : PushEntry :=
  { entry with nonFfAttempts := entry.nonFfAttempts + 1 }

/-- `_record_retry(entry, …)`. -/
def recordRetry (entry : PushEntry) (error : Text) (now : Time) (maxAttempts : Option Int)
    (resetNonFf : Bool) : PushEntry :=
  { entry with
    attempts := entry.attempts + 1
    lastError := error
    lastErrorAt := some now
    nonFfAttempts := if resetNonFf then 0 else entry.nonFfAttempts
    frozen := entry.frozen ||
      maxAttempts.any fun limit => limit ≤ (entry.attempts + 1 : Int) }

@[simp]
theorem sha_recordRetry (entry : PushEntry) (error : Text) (now : Time)
    (maxAttempts : Option Int) (resetNonFf : Bool) :
    (entry.recordRetry error now maxAttempts resetNonFf).sha = entry.sha :=
  rfl

end PushEntry

/-- What becomes of a queue file, and the trace. -/
abbrev Handled : Type := Option PushEntry × List PushEvent

/-- The file is rewritten after a failed push. -/
def Handled.retried (retried : PushEntry) (outcome : PushOutcome) : Handled :=
  (some retried, if retried.frozen then [.freeze retried outcome] else [])

namespace Drain

/-- `_demote(entry, …)`: whether it returned `True`, and the trace. -/
def demote (drain : Drain) (entry : PushEntry) : Bool × List PushEvent :=
  match drain.onRebaseConflict with
  | none => (false, [])
  | some callback => (callback entry, [.demotion entry (callback entry)])

/-- The file after `_demote` was called, and after what follows where it failed. -/
def demoteOr (drain : Drain) (entry : PushEntry) (otherwise : Handled) : Handled :=
  let demoted := drain.demote entry
  if demoted.1 then (none, demoted.2) else (otherwise.1, demoted.2 ++ otherwise.2)

/-- The branch of a lost fast-forward race: a bounded streak of them, then a demotion. -/
def contend (drain : Drain) (entry : PushEntry) (detail : Text) : Handled :=
  let error := "non_fast_forward: ".toList ++ detail
  let retried : Handled := .retried
    (entry.counted.recordRetry error drain.now (some drain.maxAttempts) false)
    (.nonFastForward detail)
  if nonFfDemoteAfter ≤ entry.counted.nonFfAttempts then drain.demoteOr entry.counted retried
  else retried

/-- What follows the push of an entry. -/
def settle (drain : Drain) (entry : PushEntry) : PushOutcome → Handled
  | .pushed => (none, [])
  | .rebaseConflict detail =>
      let error := "rebase_conflict: ".toList ++ detail
      drain.demoteOr entry
        (.retried (entry.recordRetry error drain.now none true) (.rebaseConflict detail))
  | .nonFastForward detail => drain.contend entry detail
  | .evidenceAtRisk => (some entry, [])
  | .failed error =>
      .retried (entry.recordRetry error drain.now (some drain.maxAttempts) true)
        (.failed error)

/-- The body of the loop in `drain`. -/
def drainEntry (drain : Drain) (entry : PushEntry) : Handled :=
  if entry.frozen then (some entry, [])
  else
    let outcome := drain.push entry
    let settled := drain.settle entry outcome
    (settled.1, .push entry outcome :: settled.2)

end Drain

/-- The queue directory and the trace so far. -/
structure PushState where
  files : AList fun _ : Sha => PushEntry
  log : List PushEvent

namespace PushState

/-- The queue before the first commit. -/
def empty : PushState :=
  ⟨∅, []⟩

/-- `atomic_write_json` of an entry under its own sha. -/
def write (state : PushState) (entry : PushEntry) : PushState :=
  ⟨state.files.insert entry.sha entry, state.log ++ [.enqueue entry]⟩

/-- `enqueue(sha, worktree_path, meta)`. -/
def enqueue (state : PushState) (sha : Sha) (worktreePath : Text) (metadata : Mapping)
    (now : Time) : PushState :=
  state.write (.queued sha worktreePath metadata now)

/-- The directory after the loop body of a drain. -/
def replace (files : AList fun _ : Sha => PushEntry) (name : Sha) :
    Option PushEntry → AList fun _ : Sha => PushEntry
  | none => files.erase name
  | some entry => files.insert name entry

/-- The loop of `drain` at one file name. -/
def drainName (drain : Drain) (state : PushState) (name : Sha) : PushState :=
  match state.files.lookup name with
  | none => state
  | some entry =>
      let handled := drain.drainEntry entry
      ⟨replace state.files name handled.1, state.log ++ handled.2⟩

/-- `drain(push_fn, max_attempts, on_rebase_conflict)`. -/
def drain (state : PushState) (drain : Drain) : PushState :=
  execute (drainName drain) state (sortedNames state.files.keys)

/-- The loop of `init_recovery` at one unpushed commit of a worktree. -/
def recover (now : Time) (state : PushState) (found : Sha × Text) : PushState :=
  if (state.files.lookup found.1).isSome then state
  else state.write { PushEntry.queued found.1 found.2 [] now with recovered := true }

/-- `init_recovery(worktree_root, list_unpushed_shas)`, over the commits it lists. -/
def initRecovery (state : PushState) (unpushed : List (Sha × Text)) (now : Time) :
    PushState :=
  execute (recover now) state unpushed

end PushState

inductive PushOp where
  | enqueue (sha : Sha) (worktreePath : Text) (metadata : Mapping) (now : Time)
  | drain (drain : Drain)
  | initRecovery (unpushed : List (Sha × Text)) (now : Time)

def PushState.apply (state : PushState) : PushOp → PushState
  | .enqueue sha worktreePath metadata now => state.enqueue sha worktreePath metadata now
  | .drain drain => state.drain drain
  | .initRecovery unpushed now => state.initRecovery unpushed now

/-- One operation of the queue. -/
def PushStep : System PushState PushOp :=
  fun source op target => target = source.apply op

/-! ## What a drain does to one file -/

/-- A failed attempt leaves no trace that could clear an entry. -/
def PushEvent.Quiet (event : PushEvent) : Prop :=
  (∃ entry, event = .demotion entry false) ∨ ∃ entry outcome, event = .freeze entry outcome

/-- Every way the loop body can go. -/
inductive Drained (entry : PushEntry) : Handled → Prop
  | skipped (frozen : entry.frozen = true) : Drained entry (some entry, [])
  | published (thawed : entry.frozen = false) :
      Drained entry (none, [.push entry .pushed])
  | demoted (thawed : entry.frozen = false) (outcome : PushOutcome) (counted : PushEntry)
      (same : counted.sha = entry.sha) :
      Drained entry (none, [.push entry outcome, .demotion counted true])
  | kept (thawed : entry.frozen = false) (outcome : PushOutcome)
      (failed : outcome ≠ .pushed) (after : PushEntry) (same : after.sha = entry.sha)
      (rest : List PushEvent) (quiet : ∀ event ∈ rest, event.Quiet) :
      Drained entry (some after, .push entry outcome :: rest)

theorem quiet_retried {retried : PushEntry} {outcome : PushOutcome} :
    ∀ event ∈ (Handled.retried retried outcome).2, event.Quiet := by
  intro event member
  unfold Handled.retried at member
  split at member
  · cases List.mem_singleton.mp member
    exact .inr ⟨_, _, rfl⟩
  · cases member

namespace Drain

variable (drain : Drain) (entry : PushEntry)

theorem drained_retried {retried : PushEntry} {outcome : PushOutcome}
    (thawed : entry.frozen = false) (failed : outcome ≠ .pushed)
    (same : retried.sha = entry.sha) :
    Drained entry ((Handled.retried retried outcome).1,
      .push entry outcome :: (Handled.retried retried outcome).2) :=
  .kept thawed outcome failed retried same _ quiet_retried

theorem drained_demoteOr {counted retried : PushEntry} {outcome : PushOutcome}
    (thawed : entry.frozen = false) (failed : outcome ≠ .pushed)
    (countedSame : counted.sha = entry.sha) (retriedSame : retried.sha = entry.sha) :
    Drained entry ((drain.demoteOr counted (.retried retried outcome)).1,
      .push entry outcome :: (drain.demoteOr counted (.retried retried outcome)).2) := by
  unfold demoteOr demote
  cases drain.onRebaseConflict with
  | none => exact drained_retried entry thawed failed retriedSame
  | some callback =>
      cases succeeded : callback counted with
      | true =>
          simp only [succeeded, if_true]
          exact .demoted thawed outcome counted countedSame
      | false =>
          simp only [succeeded, Bool.false_eq_true, if_false]
          apply Drained.kept thawed outcome failed retried retriedSame
          intro event member
          rcases List.mem_cons.mp member with rfl | later
          · exact .inl ⟨counted, rfl⟩
          · exact quiet_retried event later

theorem drained_drainEntry : Drained entry (drain.drainEntry entry) := by
  unfold drainEntry
  cases frozen : entry.frozen with
  | true => exact .skipped frozen
  | false =>
      simp only [Bool.false_eq_true, if_false]
      cases drain.push entry with
      | pushed => exact .published frozen
      | rebaseConflict detail =>
          exact drain.drained_demoteOr entry frozen nofun rfl rfl
      | nonFastForward detail =>
          rw [settle, contend]
          split
          · exact drain.drained_demoteOr entry frozen nofun rfl rfl
          · exact drained_retried entry frozen nofun rfl
      | evidenceAtRisk => exact .kept frozen .evidenceAtRisk nofun entry rfl [] nofun
      | failed error => exact drained_retried entry frozen nofun rfl

end Drain

/-! ## No entry is lost -/

/-- Whether the entry of a commit is still owed after an event. -/
def PushEvent.owes (sha : Sha) (owed : Bool) : PushEvent → Bool
  | .enqueue entry => owed || entry.sha = sha
  | .push entry .pushed => owed && entry.sha ≠ sha
  | .demotion entry true => owed && entry.sha ≠ sha
  | _ => owed

/-- The commit was enqueued, and since then neither a push nor a demotion of it has
succeeded. -/
def isOwed (sha : Sha) (log : List PushEvent) : Bool :=
  execute (PushEvent.owes sha) false log

theorem isOwed_append (sha : Sha) (log events : List PushEvent) :
    isOwed sha (log ++ events) = execute (PushEvent.owes sha) (isOwed sha log) events :=
  execute_append _ log events

theorem PushEvent.Quiet.owes {event : PushEvent} (quiet : event.Quiet) (sha : Sha)
    (owed : Bool) : event.owes sha owed = owed := by
  rcases quiet with ⟨entry, rfl⟩ | ⟨entry, outcome, rfl⟩ <;> rfl

theorem execute_owes_of_quiet {events : List PushEvent}
    (quiet : ∀ event ∈ events, event.Quiet) (sha : Sha) (owed : Bool) :
    execute (PushEvent.owes sha) owed events = owed := by
  induction events with
  | nil => rfl
  | cons event rest ih =>
      rw [execute_cons, (quiet event List.mem_cons_self).owes]
      exact ih fun later member => quiet later (List.mem_cons_of_mem _ member)

theorem owes_push_of_ne {outcome : PushOutcome} (failed : outcome ≠ .pushed)
    (entry : PushEntry) (sha : Sha) (owed : Bool) :
    (PushEvent.push entry outcome).owes sha owed = owed := by
  cases outcome with
  | pushed => exact absurd rfl failed
  | _ => rfl

/-- The files are the entries that are owed, under their names, and no frozen entry was
ever pushed. -/
structure PushState.Sound (state : PushState) : Prop where
  named : ∀ sha entry, state.files.lookup sha = some entry → entry.sha = sha
  owed : ∀ sha, (state.files.lookup sha).isSome = isOwed sha state.log
  thawed : ∀ entry outcome, .push entry outcome ∈ state.log → entry.frozen = false

namespace PushState

theorem sound_empty : PushState.empty.Sound := by
  constructor
  · intro sha entry found
    cases found
  · intro sha
    rfl
  · intro entry outcome member
    cases member

namespace Sound

variable {state : PushState}

theorem write (sound : state.Sound) (entry : PushEntry) : (state.write entry).Sound := by
  constructor
  · intro sha found there
    by_cases same : sha = entry.sha
    · subst sha
      rw [PushState.write, AList.lookup_insert, Option.some.injEq] at there
      rw [← there]
    · rw [PushState.write, AList.lookup_insert_ne same] at there
      exact sound.named sha found there
  · intro sha
    rw [PushState.write, isOwed_append, ← sound.owed sha]
    by_cases same : sha = entry.sha
    · subst sha
      simp [PushEvent.owes]
    · simp [PushEvent.owes, AList.lookup_insert_ne same, Ne.symm same]
  · intro pushed outcome member
    rcases List.mem_append.mp member with before | now
    · exact sound.thawed pushed outcome before
    · cases List.mem_singleton.mp now

theorem replace (sound : state.Sound) {entry : PushEntry} {name : Sha}
    (here : state.files.lookup name = some entry) {handled : Handled}
    (drained : Drained entry handled) :
    Sound ⟨PushState.replace state.files name handled.1, state.log ++ handled.2⟩ := by
  have nameEq := sound.named name entry here
  have present : isOwed name state.log = true := by
    rw [← sound.owed name, here]
    rfl
  have untouched : ∀ sha, sha ≠ name →
      (PushState.replace state.files name handled.1).lookup sha = state.files.lookup sha := by
    intro sha different
    cases handled.1 with
    | none => exact AList.lookup_erase_ne different
    | some after => exact AList.lookup_insert_ne different
  constructor
  · intro sha found there
    by_cases same : sha = name
    · subst sha
      cases drained with
      | skipped frozen =>
          rw [PushState.replace, AList.lookup_insert] at there
          cases there
          exact nameEq
      | published thawed =>
          rw [PushState.replace, AList.lookup_erase] at there
          cases there
      | demoted thawed outcome counted countedSame =>
          rw [PushState.replace, AList.lookup_erase] at there
          cases there
      | kept thawed outcome failed after afterSame rest quiet =>
          rw [PushState.replace, AList.lookup_insert] at there
          cases there
          exact afterSame.trans nameEq
    · exact sound.named sha found ((untouched sha same).symm.trans there)
  · intro sha
    rw [isOwed_append]
    by_cases same : sha = name
    · subst sha
      rw [present]
      cases drained with
      | skipped frozen => simp [PushState.replace]
      | published thawed => simp [PushState.replace, PushEvent.owes, nameEq]
      | demoted thawed outcome counted countedSame =>
          simp [PushState.replace, PushEvent.owes, countedSame, nameEq]
      | kept thawed outcome failed after afterSame rest quiet =>
          rw [execute_cons, owes_push_of_ne failed, execute_owes_of_quiet quiet]
          simp [PushState.replace]
    · have other : entry.sha ≠ sha := by
        rw [nameEq]
        exact Ne.symm same
      rw [untouched sha same, sound.owed sha]
      cases drained with
      | skipped frozen => rfl
      | published thawed => simp [PushEvent.owes, other]
      | demoted thawed outcome counted countedSame =>
          have countedOther : counted.sha ≠ sha := by rwa [countedSame]
          cases outcome <;> simp [PushEvent.owes, other, countedOther]
      | kept thawed outcome failed after afterSame rest quiet =>
          rw [execute_cons, owes_push_of_ne failed, execute_owes_of_quiet quiet]
  · intro pushed outcome member
    rcases List.mem_append.mp member with before | now
    · exact sound.thawed pushed outcome before
    · cases drained with
      | skipped frozen => cases now
      | published thawed =>
          cases List.mem_singleton.mp now
          exact thawed
      | demoted thawed _ counted countedSame =>
          rcases List.mem_cons.mp now with first | later
          · cases first
            exact thawed
          · cases List.mem_singleton.mp later
      | kept thawed _ failed after afterSame rest quiet =>
          rcases List.mem_cons.mp now with first | later
          · cases first
            exact thawed
          · rcases quiet _ later with ⟨_, impossible⟩ | ⟨_, _, impossible⟩ <;>
              cases impossible

theorem drainName (sound : state.Sound) (drain : Drain) (name : Sha) :
    (state.drainName drain name).Sound := by
  unfold PushState.drainName
  cases here : state.files.lookup name with
  | none => exact sound
  | some entry => exact sound.replace here (drain.drained_drainEntry entry)

theorem recover (sound : state.Sound) (now : Time) (found : Sha × Text) :
    (state.recover now found).Sound := by
  unfold PushState.recover
  split
  · exact sound
  · exact sound.write _

end Sound

end PushState

theorem PushStep.sound : System.Preserves PushStep PushState.Sound := by
  rintro source op target rfl sound
  cases op with
  | enqueue sha worktreePath metadata now => exact sound.write _
  | drain drain =>
      exact execute_preserves (fun state name kept => kept.drainName drain name) sound _
  | initRecovery unpushed now =>
      exact execute_preserves (fun state found kept => kept.recover now found) sound _

/-! ## Entries frozen by contention -/

namespace PushState

theorem lookup_drainName_of_ne (state : PushState) (drain : Drain) {name other : Sha}
    (different : other ≠ name) :
    (state.drainName drain name).files.lookup other = state.files.lookup other := by
  unfold drainName
  cases state.files.lookup name with
  | none => rfl
  | some entry =>
      simp only
      cases (drain.drainEntry entry).1 with
      | none => exact AList.lookup_erase_ne different
      | some after => exact AList.lookup_insert_ne different

theorem mem_log_drainName {state : PushState} {drain : Drain} {name : Sha}
    {event : PushEvent} :
    event ∈ (state.drainName drain name).log ↔ event ∈ state.log ∨
      ∃ entry, state.files.lookup name = some entry ∧
        event ∈ (drain.drainEntry entry).2 := by
  unfold drainName
  cases state.files.lookup name with
  | none => simp
  | some entry => simp

/-- Each file of the directory is handled as it was when the drain began. -/
theorem mem_log_drain {state : PushState} {drain : Drain} {event : PushEvent} :
    event ∈ (state.drain drain).log ↔ event ∈ state.log ∨
      ∃ name entry, state.files.lookup name = some entry ∧
        event ∈ (drain.drainEntry entry).2 := by
  have loop : ∀ (names : List Sha) (start : PushState), names.Nodup →
      (event ∈ (execute (drainName drain) start names).log ↔ event ∈ start.log ∨
        ∃ name ∈ names, ∃ entry, start.files.lookup name = some entry ∧
          event ∈ (drain.drainEntry entry).2) := by
    intro names
    induction names with
    | nil => simp
    | cons name rest ih =>
        intro start once
        rw [List.nodup_cons] at once
        rw [execute_cons, ih _ once.2, mem_log_drainName, or_assoc]
        have untouched : ∀ other ∈ rest,
            (start.drainName drain name).files.lookup other = start.files.lookup other := by
          intro other member
          apply lookup_drainName_of_ne
          rintro rfl
          exact once.1 member
        constructor
        · rintro (before | now | ⟨other, member, entry, there, later⟩)
          · exact .inl before
          · exact .inr ⟨name, List.mem_cons_self, now⟩
          · rw [untouched other member] at there
            exact .inr ⟨other, List.mem_cons_of_mem _ member, entry, there, later⟩
        · rintro (before | ⟨other, member, entry, there, here⟩)
          · exact .inl before
          · rcases List.mem_cons.mp member with rfl | later
            · exact .inr (.inl ⟨entry, there, here⟩)
            · rw [← untouched other later] at there
              exact .inr (.inr ⟨other, later, entry, there, here⟩)
  have once : (sortedNames state.files.keys).Nodup :=
    (perm_sortedNames _).nodup_iff.mpr state.files.keys_nodup
  rw [PushState.drain, loop _ state once]
  apply or_congr_right
  constructor
  · rintro ⟨name, -, entry, there, here⟩
    exact ⟨name, entry, there, here⟩
  · rintro ⟨name, entry, there, here⟩
    refine ⟨name, ?_, entry, there, here⟩
    rw [mem_sortedNames, ← AList.mem_keys, ← AList.lookup_isSome, there]
    rfl

end PushState

/-- Every demotion that the drain asks for succeeds. -/
def Drain.Demotes (drain : Drain) : Prop :=
  ∃ callback, drain.onRebaseConflict = some callback ∧ ∀ entry, callback entry = true

/-- The push of this entry would freeze it after a lost race: the race is not yet the
fifth in a row, and it is the last attempt allowed. -/
def Drain.FreezesContended (drain : Drain) (entry : PushEntry) : Prop :=
  entry.frozen = false ∧ (∃ detail, drain.push entry = .nonFastForward detail) ∧
    entry.nonFfAttempts + 1 < nonFfDemoteAfter ∧ drain.maxAttempts ≤ entry.attempts + 1

theorem Drain.freeze_mem_drainEntry_iff {drain : Drain} (demotes : drain.Demotes)
    (entry : PushEntry) :
    (∃ frozen detail, .freeze frozen (.nonFastForward detail) ∈ (drain.drainEntry entry).2) ↔
      drain.FreezesContended entry := by
  rcases demotes with ⟨callback, given, succeeds⟩
  have demoted : ∀ counted otherwise, drain.demoteOr counted otherwise =
      (none, [.demotion counted true]) := by
    intro counted otherwise
    simp [demoteOr, demote, given, succeeds]
  unfold Drain.FreezesContended drainEntry
  cases frozen : entry.frozen with
  | true => simp
  | false =>
      cases drain.push entry with
      | pushed => simp [settle]
      | rebaseConflict detail => simp [settle, demoted]
      | evidenceAtRisk => simp [settle]
      | failed error =>
          simp only [settle, Handled.retried]
          split <;> simp
      | nonFastForward detail =>
          simp only [settle, contend, PushEntry.counted]
          by_cases streak : nonFfDemoteAfter ≤ entry.nonFfAttempts + 1
          · simp [streak, demoted, Nat.not_lt.mpr streak]
          · by_cases capped : drain.maxAttempts ≤ entry.attempts + 1
            · simp [streak, capped, Handled.retried, PushEntry.recordRetry, frozen,
                Nat.lt_of_not_le streak]
            · simp [streak, capped, Handled.retried, PushEntry.recordRetry, frozen]

/-- The callback of every drain succeeds. -/
def PushOp.Demotes : PushOp → Prop
  | .drain round => round.Demotes
  | _ => True

/-- No entry that the operation pushes is frozen by losing a race. -/
def PushOp.Spares (state : PushState) : PushOp → Prop
  | .drain round => ∀ name entry, state.files.lookup name = some entry →
      ¬round.FreezesContended entry
  | _ => True

/-- No entry was frozen as the result of a lost race. -/
def PushState.Uncontended (state : PushState) : Prop :=
  ∀ entry detail, .freeze entry (.nonFastForward detail) ∉ state.log

namespace PushState

theorem log_recover (state : PushState) (now : Time) (found : Sha × Text) :
    ∃ events, (state.recover now found).log = state.log ++ events ∧
      ∀ event ∈ events, ∃ entry, event = .enqueue entry := by
  unfold recover
  split
  · exact ⟨[], (List.append_nil _).symm, nofun⟩
  · refine ⟨_, rfl, ?_⟩
    intro event member
    exact ⟨_, List.mem_singleton.mp member⟩

theorem log_initRecovery (state : PushState) (unpushed : List (Sha × Text)) (now : Time) :
    ∃ events, (state.initRecovery unpushed now).log = state.log ++ events ∧
      ∀ event ∈ events, ∃ entry, event = .enqueue entry := by
  unfold initRecovery
  induction unpushed generalizing state with
  | nil => exact ⟨[], (List.append_nil _).symm, nofun⟩
  | cons found rest ih =>
      rcases state.log_recover now found with ⟨first, first_eq, firstEnqueues⟩
      rcases ih (state.recover now found) with ⟨further, further_eq, furtherEnqueues⟩
      refine ⟨first ++ further, ?_, ?_⟩
      · rw [execute_cons, further_eq, first_eq, List.append_assoc]
      · intro event member
        rcases List.mem_append.mp member with early | late
        · exact firstEnqueues event early
        · exact furtherEnqueues event late

end PushState

/-- Where demotions succeed, an operation freezes an entry after a lost race exactly when
it does not spare one. -/
theorem PushStep.uncontended_iff {source target : PushState} {op : PushOp}
    (demotes : op.Demotes) (step : PushStep source op target) (before : source.Uncontended) :
    target.Uncontended ↔ op.Spares source := by
  cases step
  cases op with
  | enqueue sha worktreePath metadata now =>
      apply iff_of_true _ trivial
      intro entry detail member
      rcases List.mem_append.mp member with earlier | last
      · exact before entry detail earlier
      · cases List.mem_singleton.mp last
  | initRecovery unpushed now =>
      apply iff_of_true _ trivial
      intro entry detail member
      rcases source.log_initRecovery unpushed now with ⟨events, log_eq, enqueues⟩
      rw [PushState.apply, log_eq] at member
      rcases List.mem_append.mp member with earlier | last
      · exact before entry detail earlier
      · rcases enqueues _ last with ⟨_, impossible⟩
        cases impossible
  | drain round =>
      constructor
      · intro uncontended name entry there freezes
        rcases (Drain.freeze_mem_drainEntry_iff demotes entry).mpr freezes with
          ⟨frozen, detail, frozenHere⟩
        apply uncontended frozen detail
        exact PushState.mem_log_drain.mpr (.inr ⟨name, entry, there, frozenHere⟩)
      · intro spares frozen detail member
        rcases PushState.mem_log_drain.mp member with earlier | ⟨name, entry, there, here⟩
        · exact before frozen detail earlier
        · apply spares name entry there
          exact (Drain.freeze_mem_drainEntry_iff demotes entry).mp ⟨frozen, detail, here⟩

theorem PushStep.log_subset {source target : PushState} {op : PushOp}
    (step : PushStep source op target) : source.log ⊆ target.log := by
  cases step
  cases op with
  | enqueue sha worktreePath metadata now => exact List.subset_append_left _ _
  | drain round =>
      intro event member
      exact PushState.mem_log_drain.mpr (.inl member)
  | initRecovery unpushed now =>
      rcases source.log_initRecovery unpushed now with ⟨events, log_eq, -⟩
      rw [PushState.apply, log_eq]
      exact List.subset_append_left _ _

/-- In every run, an entry is absent only when a push or a demotion has succeeded since
its last enqueue, and no frozen entry was pushed.  Where the demotions succeed, no entry
was frozen after a lost race exactly when each operation spared the entries it met. -/
theorem queue_loses_nothing_and_freezes_iff {ops : List PushOp} {state : PushState}
    (run : Run PushStep .empty ops state) :
    (∀ sha, state.files.lookup sha = none → isOwed sha state.log = false) ∧
      (∀ entry outcome, .push entry outcome ∈ state.log → entry.frozen = false) ∧
      ((∀ op ∈ ops, op.Demotes) → (state.Uncontended ↔
        Run (System.restrict PushStep fun source op => op.Spares source) .empty ops state)) := by
  have sound := Run.invariant PushStep.sound run PushState.sound_empty
  refine ⟨?_, sound.thawed, ?_⟩
  · intro sha absent
    rw [← sound.owed sha, absent]
    rfl
  · intro demotes
    apply Run.iff_restrict_of_labels PushStep.sound _ _ run PushState.sound_empty _ demotes
    · intro source op target demotesNow step _ before
      exact step.uncontended_iff demotesNow before
    · intro source op target step after entry detail member
      exact after entry detail (step.log_subset member)
    · intro entry detail member
      cases member

/-! ## A late race -/

/-- A drain whose pushes all end the same way, with a callback that always succeeds. -/
def Drain.uniform (maxAttempts : Int) (outcome : PushOutcome) : Drain :=
  ⟨fun _ => outcome, maxAttempts, some fun _ => true, 0⟩

/-- A push that loses its race against the trunk. -/
def lostRace : PushOutcome :=
  .nonFastForward "(fetch first)".toList

/-- A push that ends in another failure. -/
def timedOut : Text :=
  "timeout".toList

/-- An enqueued commit. -/
def waiting : PushEntry :=
  .queued "c0ffee".toList "/worktrees/a".toList [] 0

/-- The directory with one file. -/
def PushState.single (entry : PushEntry) (log : List PushEvent) : PushState :=
  ⟨AList.singleton entry.sha entry, log⟩

theorem PushState.drain_single {entry after : PushEntry} {round : Drain}
    {log events : List PushEvent} (handled : round.drainEntry entry = (some after, events))
    (same : after.sha = entry.sha) :
    (single entry log).drain round = single after (log ++ events) := by
  have found : (single entry log).files.lookup entry.sha = some entry :=
    AList.lookup_insert (∅ : AList fun _ : Sha => PushEntry)
  have names : sortedNames (single entry log).files.keys = [entry.sha] := rfl
  rw [drain, names, execute_cons, execute_nil, drainName, found]
  simp only [handled, replace, single, same, AList.insert_singleton_eq]

/-- The directory after the first enqueue. -/
def PushState.oneWaiting : PushState :=
  .single waiting [.enqueue waiting]

theorem run_oneWaiting : Run PushStep .empty
    [.enqueue waiting.sha waiting.worktreePath waiting.metadata waiting.enqueuedAt]
    .oneWaiting :=
  Run.single rfl

/-- Fewer failed pushes than the limit count up the attempts. -/
theorem run_failures (limit count : Nat) (within : count ≤ limit) :
    ∃ entry log, Run PushStep .oneWaiting
        (List.replicate count (.drain (.uniform (limit + 1) (.failed timedOut))))
        (.single entry log) ∧
      entry.frozen = false ∧ entry.nonFfAttempts = 0 ∧ entry.attempts = count := by
  induction count with
  | zero => exact ⟨waiting, _, Run.refl, rfl, rfl, rfl⟩
  | succ count ih =>
      rcases ih (Nat.le_of_succ_le within) with
        ⟨entry, log, run, thawed, streak, attempts⟩
      let round := Drain.uniform (limit + 1) (.failed timedOut)
      let after := entry.recordRetry timedOut 0 (some (limit + 1)) true
      have spare : after.frozen = false := by
        simp [after, PushEntry.recordRetry, thawed, attempts]
        omega
      have handled : round.drainEntry entry =
          (some after, [.push entry (.failed timedOut)]) := by
        have settled : round.settle entry (.failed timedOut) = (some after, []) := by
          change Handled.retried after _ = _
          rw [Handled.retried, spare]
          rfl
        rw [Drain.drainEntry, thawed]
        change ((round.settle entry (.failed timedOut)).1, _ ::
          (round.settle entry (.failed timedOut)).2) = _
        rw [settled]
        rfl
      have drained : PushStep (.single entry log) (.drain round)
          (.single after (log ++ [.push entry (.failed timedOut)])) :=
        (PushState.drain_single handled rfl).symm
      rw [List.replicate_succ']
      refine ⟨after, _, Run.tail run drained, spare, rfl, ?_⟩
      rw [← attempts]
      rfl

/-- Failures of another kind use up the attempts: a race lost on the last of them
freezes the entry, whatever the limit is. -/
theorem lost_race_freezes (limit : Nat) :
    ∃ ops state, (∀ op ∈ ops, op.Demotes) ∧
      (∀ round, .drain round ∈ ops → round.maxAttempts = (limit + 1 : Int)) ∧
      Run PushStep .empty ops state ∧ ¬state.Uncontended := by
  rcases run_failures limit limit le_rfl with ⟨entry, log, run, thawed, streak, attempts⟩
  let race := Drain.uniform (limit + 1) lostRace
  have demotes : ∀ outcome, (Drain.uniform (limit + 1) outcome).Demotes := by
    intro outcome
    exact ⟨_, rfl, fun _ => rfl⟩
  have started := Run.tail (run_oneWaiting.trans run) (rfl : PushStep _ (.drain race) _)
  refine ⟨_, _, ?_, ?_, started, ?_⟩
  · intro op member
    simp only [List.cons_append, List.nil_append, List.mem_cons, List.mem_append,
      List.mem_replicate, List.not_mem_nil, or_false] at member
    rcases member with rfl | ⟨-, rfl⟩ | rfl
    · exact trivial
    · exact demotes _
    · exact demotes _
  · intro round member
    simp only [List.cons_append, List.nil_append, List.mem_cons, List.mem_append,
      List.mem_replicate, List.not_mem_nil, or_false] at member
    rcases member with impossible | ⟨-, same⟩ | same
    · cases impossible
    · cases same
      rfl
    · cases same
      rfl
  · intro uncontended
    have freezes : race.FreezesContended entry := by
      refine ⟨thawed, ⟨_, rfl⟩, ?_, ?_⟩
      · rw [streak]
        decide
      · rw [attempts]
        exact le_rfl
    rcases (Drain.freeze_mem_drainEntry_iff (demotes lostRace) entry).mpr freezes with
      ⟨frozen, detail, here⟩
    apply uncontended frozen detail
    apply PushState.mem_log_drain.mpr
    exact .inr ⟨entry.sha, entry, AList.lookup_insert (∅ : AList fun _ : Sha => PushEntry), here⟩

/-- With the default limit of thirty attempts, twenty-nine time-outs and one lost race
freeze an entry although its demotion would have succeeded. -/
theorem thirtieth_attempt_freezes :
    ∃ ops state, (∀ op ∈ ops, op.Demotes) ∧
      (∀ round, .drain round ∈ ops → round.maxAttempts = 30) ∧
      Run PushStep .empty ops state ∧
      ∃ entry detail, .freeze entry (.nonFastForward detail) ∈ state.log := by
  rcases lost_race_freezes 29 with ⟨ops, state, demotes, limited, run, contended⟩
  refine ⟨ops, state, demotes, limited, run, ?_⟩
  by_contra nowhere
  apply contended
  intro entry detail member
  exact nowhere ⟨entry, detail, member⟩

/-- A published entry is gone and owed no more. -/
theorem published_entry_is_cleared :
    ∃ ops state, Run PushStep .empty ops state ∧ state.files.lookup waiting.sha = none ∧
      isOwed waiting.sha state.log = false ∧ state.Uncontended := by
  let round := Drain.uniform 30 .pushed
  have published := Run.tail run_oneWaiting (rfl : PushStep _ (.drain round) _)
  have absent : (PushState.oneWaiting.drain round).files.lookup waiting.sha = none := rfl
  rcases queue_loses_nothing_and_freezes_iff published with ⟨clear, -, uncontended_iff⟩
  refine ⟨_, _, published, absent, clear _ absent, (uncontended_iff ?_).mpr ?_⟩
  · intro op member
    rcases List.mem_cons.mp member with rfl | last
    · exact trivial
    · cases List.mem_singleton.mp last
      exact ⟨_, rfl, fun _ => rfl⟩
  · apply Run.tail (Run.single ⟨trivial, rfl⟩)
    refine ⟨?_, rfl⟩
    rintro name entry - ⟨-, ⟨detail, impossible⟩, -⟩
    cases impossible

end DataOlympus
