import DataOlympus.Publish.PushQueue
import DataOlympus.Python.Dict
import DataOlympus.Text.Listing

/-!
# The demotion of a commit

A commit that does not rebase is taken apart into pending entries, one for each file that
it adds or modifies.  The names and the contents of these files pass through the printed
output of git, and each entry needs the lock of its path and room in the queue.
-/

namespace DataOlympus

open Lines

/-- What `enqueue` writes, for a path in the words of git. -/
structure QueuedProposal where
  proposalType : ProposalType
  targetPath : Text
  postimage : Text
  baseCommit : Text
  baseBlobSha : Option Text
  targetFileHash : Option Text
  metadata : Mapping
  enqueuedAt : Time

/-- The pending queue as `enqueue` sees it: the files `<pending_id>.json`, the last one
first, the locks of the paths, and the capacity, which is unlimited at 0. -/
structure PendingFiles where
  entries : List (PendingId × QueuedProposal)
  locks : Text → Option LockRecord
  cap : Nat

/-- Why a demotion raises. -/
inductive DemotionError where
  | pathLockBusy
  | pendingQueueFull
  | nothingDemotable
  deriving DecidableEq

/-- A commit with the files that it adds or modifies.  What `git show <sha>:<name>` prints
for other names is unknown. -/
structure SessionCommit where
  sha : Sha
  changed : List (Text × Text)
  printed : Text → Option Text
  once : (changed.map Prod.fst).Nodup
  named : ∀ file ∈ changed, file.1 ≠ []
  prints : ∀ file ∈ changed, printed file.1 = some file.2

namespace PendingFiles

/-- The queue at its capacity. -/
def full (files : PendingFiles) : Bool :=
  0 < files.cap && files.cap ≤ files.entries.length

/-- The queue with one more entry. -/
def put (files : PendingFiles) (entry : PendingId × QueuedProposal) : PendingFiles :=
  { files with
    entries := entry :: files.entries
    locks := Function.update files.locks entry.2.targetPath
      (some ⟨.pending entry.1, entry.2.enqueuedAt⟩) }

/-- `enqueue(…)`, with a fresh id. -/
def enqueue (files : PendingFiles) (id : PendingId) (proposal : QueuedProposal) :
    Except DemotionError PendingFiles :=
  if files.full then .error .pendingQueueFull
  else match files.locks proposal.targetPath with
  | some _ => .error .pathLockBusy
  | none => .ok (files.put (id, proposal))

end PendingFiles

namespace SessionCommit

/-- `files_changed_in_commit(sha)`. -/
def filesChangedInCommit (commit : SessionCommit) : List Text :=
  listedNames (commit.changed.map Prod.fst)

/-- `file_at_commit(sha, path)`. -/
def fileAtCommit (commit : SessionCommit) (path : Text) : Option Text :=
  (commit.printed path).map universalNewlines

/-- The proposal for one file. -/
def proposal (commit : SessionCommit) (entry : PushEntry) (path postimage : Text) (now : Time) :
    QueuedProposal where
  proposalType := .edit
  targetPath := path
  postimage := postimage
  baseCommit := commit.sha ++ ['^']
  baseBlobSha := none
  targetFileHash := none
  metadata :=
    [(.str (PyStr.lit "agent_identity"),
        (entry.metadata.get "agent_identity").getD (.str (PyStr.lit "unknown"))),
      (.str (PyStr.lit "source_session"),
        (entry.metadata.get "source_session").getD (.str (PyStr.lit "push-conflict"))),
      (.str (PyStr.lit "confidence"), .float 0#64),
      (.str (PyStr.lit "reason"),
        .str (PyStr.lit "demoted from push queue after rebase conflict")),
      (.str (PyStr.lit "demoted_from_sha"), .str (PyStr.ofText commit.sha))]
  enqueuedAt := now

section Demotion

variable (commit : SessionCommit) (entry : PushEntry) (draws : Nat → PendingId × Time)

/-- The loop over the names; the ids and the times are drawn in their order. -/
def demoteFiles : List Text → Nat → PendingFiles → Except DemotionError Nat × PendingFiles
  | [], demoted, files => (.ok demoted, files)
  | path :: rest, demoted, files =>
      match commit.fileAtCommit path with
      | none => demoteFiles rest demoted files
      | some postimage =>
          match files.enqueue (draws demoted).1
              (commit.proposal entry path postimage (draws demoted).2) with
          | .error raised => (.error raised, files)
          | .ok enqueued => demoteFiles rest (demoted + 1) enqueued

/-- `demote_conflict_to_pending(entry)`: how it ends, and the queue it leaves. -/
def demoteConflictToPending (files : PendingFiles) : Except DemotionError Unit × PendingFiles :=
  match commit.demoteFiles entry draws commit.filesChangedInCommit 0 files with
  | (.ok 0, left) => (.error .nothingDemotable, left)
  | (.ok _, left) => (.ok (), left)
  | (.error raised, left) => (.error raised, left)

end Demotion

/-- Exactly one entry was added for each file, with its content, under a lock that was free. -/
def Demoted (commit : SessionCommit) (files left : PendingFiles) : Prop :=
  ∃ added : List (PendingId × QueuedProposal), left = added.foldl PendingFiles.put files ∧
    (added.map fun item => (item.2.targetPath, item.2.postimage)).Perm commit.changed ∧
    ∀ item ∈ added, files.locks item.2.targetPath = none

/-- No lock and no capacity stands against the files. -/
def Unobstructed (changed : List (Text × Text)) (files : PendingFiles) : Prop :=
  (∀ file ∈ changed, files.locks file.1 = none) ∧
    (files.cap = 0 ∨ changed.length ≤ files.cap - files.entries.length)

/-- The first file cannot be enqueued. -/
def BlockedAtOnce (commit : SessionCommit) (files : PendingFiles) : Prop :=
  ∀ first ∈ commit.changed.head?, files.full = true ∨ files.locks first.1 ≠ none

/-- The demotion enqueues every file, or raises and changes nothing, and then enqueues every
file once nothing stands against it. -/
def DemotesWhole (commit : SessionCommit) (entry : PushEntry) (draws : Nat → PendingId × Time)
    (files : PendingFiles) : Prop :=
  let ended := commit.demoteConflictToPending entry draws files
  ended.1 = .ok () ∧ commit.Demoted files ended.2 ∨
    ended.1 ≠ .ok () ∧ ended.2 = files ∧
      ∀ again later, Unobstructed commit.changed later →
        commit.Demoted later (commit.demoteConflictToPending entry again later).2

end SessionCommit

theorem PendingFiles.enqueue_eq_ok_iff {files left : PendingFiles} {id : PendingId}
    {proposal : QueuedProposal} : files.enqueue id proposal = .ok left ↔
      files.full = false ∧ files.locks proposal.targetPath = none ∧
        left = files.put (id, proposal) := by
  unfold enqueue
  cases files.full with
  | true => simp
  | false =>
      cases files.locks proposal.targetPath with
      | some record => simp
      | none => simp [eq_comm]

/-- The entries after several were put. -/
theorem PendingFiles.entries_foldl_put (files : PendingFiles)
    (added : List (PendingId × QueuedProposal)) :
    (added.foldl put files).entries = added.reverse ++ files.entries := by
  induction added generalizing files with
  | nil => rfl
  | cons item rest ih =>
      rw [List.foldl_cons, ih, List.reverse_cons, List.append_assoc]
      rfl

namespace SessionCommit

section Ended

variable (commit : SessionCommit) (entry : PushEntry) (draws : Nat → PendingId × Time)

/-- Whatever way the loop ends, it has put entries for some of the names, with what git shows
for them. -/
theorem exists_added (names : List Text) (demoted : Nat) (files : PendingFiles) :
    ∃ added : List (PendingId × QueuedProposal),
      (commit.demoteFiles entry draws names demoted files).2 =
        added.foldl PendingFiles.put files ∧
        (added.map fun item => item.2.targetPath).Sublist names ∧
          ∀ item ∈ added, commit.fileAtCommit item.2.targetPath = some item.2.postimage := by
  induction names generalizing demoted files with
  | nil => exact ⟨[], rfl, List.Sublist.refl _, List.forall_mem_nil _⟩
  | cons path rest ih =>
      rw [demoteFiles]
      split
      · obtain ⟨added, left, among, shown⟩ := ih demoted files
        exact ⟨added, left, among.cons path, shown⟩
      · rename_i postimage found
        split
        · exact ⟨[], rfl, List.nil_sublist _, List.forall_mem_nil _⟩
        · rename_i enqueued put
          obtain ⟨-, -, rfl⟩ := PendingFiles.enqueue_eq_ok_iff.mp put
          obtain ⟨added, left, among, shown⟩ := ih (demoted + 1) _
          exact ⟨_ :: added, left, among.cons_cons path,
            List.forall_mem_cons.mpr ⟨found, shown⟩⟩

theorem demoteConflictToPending_snd (files : PendingFiles) :
    (commit.demoteConflictToPending entry draws files).2 =
      (commit.demoteFiles entry draws commit.filesChangedInCommit 0 files).2 := by
  unfold demoteConflictToPending
  split <;> rename_i ended <;> rw [ended]

end Ended

variable {commit : SessionCommit} {entry : PushEntry} {draws : Nat → PendingId × Time}
  {files : PendingFiles} {demoted : Nat}

/-- A demotion that enqueues every file has files whose names and contents git prints
plainly. -/
theorem plain_of_demoted
    (whole : commit.Demoted files (commit.demoteConflictToPending entry draws files).2) :
    ∀ file ∈ commit.changed, plainPath file.1 = true ∧ '\r' ∉ file.2 := by
  obtain ⟨added, left, same, -⟩ := whole
  obtain ⟨put, putLeft, among, shown⟩ :=
    exists_added commit entry draws commit.filesChangedInCommit 0 files
  have equal : put = added := by
    have entries := congrArg PendingFiles.entries
      ((demoteConflictToPending_snd commit entry draws files).symm.trans left)
    rw [putLeft, PendingFiles.entries_foldl_put, PendingFiles.entries_foldl_put] at entries
    exact List.reverse_injective (List.append_cancel_right entries)
  subst equal
  have paths : (put.map fun item => item.2.targetPath).Perm (commit.changed.map Prod.fst) := by
    have mapped := same.map Prod.fst
    rw [List.map_map] at mapped
    exact mapped
  intro file member
  refine ⟨plainPath_of_perm among paths _ (List.mem_map_of_mem member), ?_⟩
  obtain ⟨item, listed, rfl⟩ := List.mem_map.mp (same.mem_iff.mpr member)
  have read := shown item listed
  rw [fileAtCommit, commit.prints _ member] at read
  rw [← Option.some.inj read]
  exact no_return_universalNewlines _

/-! ## Files that git prints plainly -/

/-- Plain names and contents without carriage returns are read back. -/
theorem filesChangedInCommit_of_plain
    (plain : ∀ file ∈ commit.changed, plainPath file.1 = true ∧ '\r' ∉ file.2) :
    commit.filesChangedInCommit = commit.changed.map Prod.fst := by
  have read : ∀ file ∈ commit.changed, strip (quotePath file.1) = file.1 :=
    fun file member => strip_quotePath_of_plainPath (plain file member).1
  have kept : ∀ file ∈ commit.changed, (!file.1.isEmpty) = true := by
    intro file member
    simpa using commit.named file member
  have names : commit.changed.map ((fun path => strip (quotePath path)) ∘ Prod.fst) =
      commit.changed.map Prod.fst :=
    List.map_congr_left read
  rw [filesChangedInCommit, listedNames_eq, List.map_map, names]
  apply List.filter_eq_self.mpr
  intro name member
  obtain ⟨file, listed, rfl⟩ := List.mem_map.mp member
  exact kept file listed

theorem fileAtCommit_of_plain {file : Text × Text} (member : file ∈ commit.changed)
    (plain : '\r' ∉ file.2) : commit.fileAtCommit file.1 = some file.2 := by
  rw [fileAtCommit, commit.prints file member, Option.map_some,
    universalNewlines_of_no_return plain]

/-- What stands against a list of files is what stands against the first, and against the
rest once the first is enqueued. -/
theorem unobstructed_cons {file : Text × Text} {rest : List (Text × Text)}
    {item : PendingId × QueuedProposal} (same : item.2.targetPath = file.1)
    (once : file.1 ∉ rest.map Prod.fst) :
    Unobstructed (file :: rest) files ↔
      files.full = false ∧ files.locks file.1 = none ∧ Unobstructed rest (files.put item) := by
  have others : ∀ other ∈ rest, (files.put item).locks other.1 = files.locks other.1 := by
    intro other member
    apply Function.update_of_ne
    rw [same]
    intro equal
    exact once (equal ▸ List.mem_map_of_mem member)
  have room : files.cap = 0 ∨ (file :: rest).length ≤ files.cap - files.entries.length ↔
      files.full = false ∧
        (files.cap = 0 ∨ rest.length ≤ files.cap - (files.put item).entries.length) := by
    simp only [PendingFiles.full, PendingFiles.put, List.length_cons, Bool.and_eq_false_iff,
      decide_eq_false_iff_not]
    omega
  unfold Unobstructed
  rw [List.forall_mem_cons, room]
  constructor
  · rintro ⟨⟨first, later⟩, notFull, fits⟩
    exact ⟨notFull, first, fun other member => (others other member).trans (later other member),
      fits⟩
  · rintro ⟨notFull, first, later, fits⟩
    exact ⟨⟨first, fun other member => (others other member).symm.trans (later other member)⟩,
      notFull, fits⟩

/-- The loop over files that are read back puts their entries if nothing stands against
them. -/
theorem demoteFiles_of_unobstructed (entry : PushEntry) (draws : Nat → PendingId × Time)
    (demoted : Nat) {items : List (Text × Text)}
    (read : ∀ file ∈ items, commit.fileAtCommit file.1 = some file.2)
    (once : (items.map Prod.fst).Nodup) (clear : Unobstructed items files) :
    (commit.demoteFiles entry draws (items.map Prod.fst) demoted files).1 =
      .ok (demoted + items.length) ∧
    ∃ added : List (PendingId × QueuedProposal),
      (commit.demoteFiles entry draws (items.map Prod.fst) demoted files).2 =
        added.foldl PendingFiles.put files ∧
      (added.map fun item => (item.2.targetPath, item.2.postimage)) = items := by
  induction items generalizing demoted files with
  | nil => exact ⟨rfl, [], rfl, rfl⟩
  | cons file rest ih =>
      obtain ⟨here, later⟩ := List.forall_mem_cons.mp read
      rw [List.map_cons, List.nodup_cons] at once
      let item : PendingId × QueuedProposal :=
        ((draws demoted).1, commit.proposal entry file.1 file.2 (draws demoted).2)
      have same : item.2.targetPath = file.1 := rfl
      obtain ⟨notFull, free, further⟩ := (unobstructed_cons same once.1).mp clear
      have put : files.enqueue item.1 item.2 = .ok (files.put item) :=
        PendingFiles.enqueue_eq_ok_iff.mpr ⟨notFull, free, rfl⟩
      have step : commit.demoteFiles entry draws (file.1 :: rest.map Prod.fst) demoted files =
          commit.demoteFiles entry draws (rest.map Prod.fst) (demoted + 1) (files.put item) := by
        rw [demoteFiles]
        simp only [here]
        rw [put]
      obtain ⟨ended, added, left, all⟩ := ih (demoted + 1) later once.2 further
      rw [List.map_cons, step]
      refine ⟨?_, item :: added, left, ?_⟩
      · rw [ended, List.length_cons, Nat.add_assoc, Nat.add_comm 1]
      · rw [List.map_cons, all]
        rfl

/-- The loop over files that are read back ends well only if nothing stands against them. -/
theorem unobstructed_of_demoteFiles {items : List (Text × Text)} {count : Nat}
    (read : ∀ file ∈ items, commit.fileAtCommit file.1 = some file.2)
    (once : (items.map Prod.fst).Nodup)
    (ended : (commit.demoteFiles entry draws (items.map Prod.fst) demoted files).1 = .ok count) :
    Unobstructed items files := by
  induction items generalizing demoted files with
  | nil => exact ⟨List.forall_mem_nil _, .inr (Nat.zero_le _)⟩
  | cons file rest ih =>
      obtain ⟨here, later⟩ := List.forall_mem_cons.mp read
      rw [List.map_cons, List.nodup_cons] at once
      rw [List.map_cons, demoteFiles] at ended
      simp only [here] at ended
      split at ended
      · cases ended
      · rename_i enqueued put
        obtain ⟨notFull, free, rfl⟩ := PendingFiles.enqueue_eq_ok_iff.mp put
        have same : (commit.proposal entry file.1 file.2 (draws demoted).2).targetPath = file.1 :=
          rfl
        exact (unobstructed_cons same once.1).mpr ⟨notFull, free, ih later once.2 ended⟩

/-- The demotion of a commit that git prints plainly, where nothing stands against it. -/
theorem demoted_of_unobstructed (entry : PushEntry) (draws : Nat → PendingId × Time)
    (plain : ∀ file ∈ commit.changed, plainPath file.1 = true ∧ '\r' ∉ file.2)
    (clear : Unobstructed commit.changed files) :
    commit.Demoted files (commit.demoteConflictToPending entry draws files).2 ∧
      (commit.changed ≠ [] → (commit.demoteConflictToPending entry draws files).1 = .ok ()) := by
  have read : ∀ file ∈ commit.changed, commit.fileAtCommit file.1 = some file.2 :=
    fun file member => fileAtCommit_of_plain member (plain file member).2
  obtain ⟨ended, added, left, all⟩ :=
    demoteFiles_of_unobstructed entry draws 0 read commit.once clear
  constructor
  · rw [demoteConflictToPending_snd, filesChangedInCommit_of_plain plain]
    refine ⟨added, left, by rw [all], ?_⟩
    intro item member
    have listed : (item.2.targetPath, item.2.postimage) ∈ commit.changed := by
      rw [← all]
      exact List.mem_map_of_mem member
    exact clear.1 _ listed
  · intro some_file
    obtain ⟨count, counted⟩ := Nat.exists_eq_succ_of_ne_zero
      (mt List.length_eq_zero_iff.mp some_file)
    unfold demoteConflictToPending
    rw [filesChangedInCommit_of_plain plain]
    generalize commit.demoteFiles entry draws (commit.changed.map Prod.fst) 0 files = whole at *
    obtain ⟨outcome, after⟩ := whole
    rw [counted, Nat.zero_add] at ended
    cases ended
    rfl

/-- Once the first file is enqueued, the queue is not as it was. -/
theorem blockedAtOnce_of_unchanged
    (plain : ∀ file ∈ commit.changed, plainPath file.1 = true ∧ '\r' ∉ file.2)
    (same : (commit.demoteConflictToPending entry draws files).2 = files) :
    commit.BlockedAtOnce files := by
  intro first head
  by_contra notBlocked
  rw [not_or, Bool.not_eq_true, not_not] at notBlocked
  obtain ⟨notFull, free⟩ := notBlocked
  have member : first ∈ commit.changed := List.mem_of_head? head
  have here := fileAtCommit_of_plain member (plain first member).2
  obtain ⟨rest, changed⟩ : ∃ rest, commit.changed = first :: rest := by
    cases listed : commit.changed with
    | nil =>
        rw [listed] at member
        exact absurd member List.not_mem_nil
    | cons other rest =>
        rw [listed] at head
        cases head
        exact ⟨rest, rfl⟩
  have put : files.enqueue (draws 0).1 (commit.proposal entry first.1 first.2 (draws 0).2) =
      .ok (files.put ((draws 0).1, commit.proposal entry first.1 first.2 (draws 0).2)) :=
    PendingFiles.enqueue_eq_ok_iff.mpr ⟨notFull, free, rfl⟩
  rw [demoteConflictToPending_snd, filesChangedInCommit_of_plain plain, changed, List.map_cons,
    demoteFiles] at same
  simp only [here] at same
  rw [put] at same
  obtain ⟨added, left, -, -⟩ := exists_added commit entry draws (rest.map Prod.fst) 1
    (files.put ((draws 0).1, commit.proposal entry first.1 first.2 (draws 0).2))
  have length := congrArg (fun files => files.entries.length) (left.symm.trans same)
  simp only [PendingFiles.entries_foldl_put, PendingFiles.put, List.length_append,
    List.length_cons] at length
  omega

theorem demoteConflictToPending_of_blocked
    (plain : ∀ file ∈ commit.changed, plainPath file.1 = true ∧ '\r' ∉ file.2)
    (blocked : commit.BlockedAtOnce files) :
    (commit.demoteConflictToPending entry draws files).1 ≠ .ok () ∧
      (commit.demoteConflictToPending entry draws files).2 = files := by
  have read : ∀ file ∈ commit.changed, commit.fileAtCommit file.1 = some file.2 :=
    fun file member => fileAtCommit_of_plain member (plain file member).2
  unfold demoteConflictToPending
  rw [filesChangedInCommit_of_plain plain]
  cases changed : commit.changed with
  | nil => exact ⟨nofun, rfl⟩
  | cons first rest =>
      have here := read first (changed ▸ List.mem_cons_self)
      have against := blocked first (by rw [changed]; rfl)
      have refused : ∀ left, files.enqueue (draws 0).1
          (commit.proposal entry first.1 first.2 (draws 0).2) ≠ .ok left := by
        intro left put
        obtain ⟨notFull, free, -⟩ := PendingFiles.enqueue_eq_ok_iff.mp put
        obtain full | locked := against
        · rw [full] at notFull
          cases notFull
        · exact locked free
      rw [List.map_cons, demoteFiles]
      simp only [here]
      split
      · rename_i ended
        split at ended
        · cases ended
        · rename_i put
          exact absurd put (refused _)
      · rename_i ended
        split at ended
        · cases ended
        · rename_i put
          exact absurd put (refused _)
      · rename_i ended
        split at ended
        · cases ended
          exact ⟨nofun, rfl⟩
        · rename_i put
          exact absurd put (refused _)

end SessionCommit

section Commits

/-- A commit of these files, for a worktree where git shows nothing else. -/
def commitOf (changed : List (Text × Text)) (once : (changed.map Prod.fst).Nodup)
    (named : ∀ file ∈ changed, file.1 ≠ []) : SessionCommit where
  sha := "c".toList
  changed := changed
  printed := Python.Dict.get ⟨changed, once⟩
  once := once
  named := named
  prints _ member := Python.Dict.get_eq_some_iff.mpr member

/-- A commit of two files. -/
def twoFiles : SessionCommit :=
  commitOf [("a.md".toList, "A".toList), ("b.md".toList, "B".toList)] (by decide) (by decide)

/-- A commit of two files, one of them with a letter beyond ASCII in its name. -/
def accentedFile : SessionCommit :=
  commitOf [("a.md".toList, "A".toList), ("é.md".toList, "E".toList)] (by decide) (by decide)

/-- A queue with a proposal for the second file. -/
def secondLocked : PendingFiles where
  entries := []
  locks path := if path = "b.md".toList then some ⟨.pending 7, 0⟩ else none
  cap := 0

/-- The queue file of the commit. -/
def queuedCommit : PushEntry :=
  .queued "c".toList "w".toList [] 0

end Commits

end DataOlympus
