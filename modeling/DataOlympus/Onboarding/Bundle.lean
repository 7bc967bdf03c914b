import DataOlympus.Pending.Queue

/-!
# Bundles of pending entries

A bootstrap of low confidence enqueues its files one by one.  Where the queue is full or a
path is locked, the entries made so far are rejected again.  Any other exception of an
enqueue leaves them, and a rejection that fails is passed over.
-/

namespace DataOlympus

open Lines Transition

/-- How far the file operations of one `enqueue` get. -/
inductive EnqueueEnd where
  | completes
  /-- An error before the lock is linked. -/
  | unlocked
  /-- An error that leaves the lock: after the link, or in the release. -/
  | locked
  /-- The entry cannot be written, and the lock is released. -/
  | released
  /-- An error after the entry was published. -/
  | published
  deriving DecidableEq

/-- A file of a bundle, with what happens to its entry. -/
structure BundleFile where
  id : PendingId
  proposal : PendingProposal
  acquiredAt : Time
  /-- The queue is at its cap. -/
  full : Bool
  ending : EnqueueEnd
  /-- How many of the file operations of its rejection are performed. -/
  undone : Nat
  token : ClaimToken
  rejectedAt : Time

/-- How one `enqueue` ends. -/
inductive EnqueueResult where
  | enqueued
  | queueFull
  | pathLockBusy
  | raised

/-- How the loop over the bundle ends. -/
inductive BundleEnd where
  | pendingConfirmation
  | rejectedPathLocked
  | rejectedPendingQueueFull
  | raised
  deriving DecidableEq

namespace BundleFile

/-- `pending.enqueue(…)` for the file. -/
def enqueue (file : BundleFile) (disk : Disk) : EnqueueResult × Disk :=
  let path := file.proposal.targetPath
  if file.full then (.queueFull, disk)
  else if file.ending = .unlocked then (.raised, disk)
  else
    match disk.lock path with
    | some _ => (.pathLockBusy, disk)
    | none =>
        let linked := disk.apply (.linkLock path ⟨.pending file.id, file.acquiredAt⟩)
        match file.ending with
        | .completes => (.enqueued, linked.apply (.writeLive file.id (.queued file.proposal)))
        | .published => (.raised, linked.apply (.writeLive file.id (.queued file.proposal)))
        | .released => (.raised, linked.apply (.unlinkLock path))
        | .locked | .unlocked => (.raised, linked)

/-- `pending.reject(pid)`, as far as it gets. -/
def reject (file : BundleFile) (disk : Disk) : Disk :=
  execute Disk.apply disk
    ((disk.consume file.id file.token file.rejectedAt).actions.take file.undone)

/-- All four file operations of the rejection are performed. -/
def Undone (file : BundleFile) : Prop :=
  4 ≤ file.undone

end BundleFile

/-- `_rollback()`. -/
def rollback : List BundleFile → Disk → Disk
  | [], disk => disk
  | file :: rest, disk => rollback rest (file.reject disk)

/-- The loop over the files; `done` are the entries made so far. -/
def enqueueBundle (done : List BundleFile) : List BundleFile → Disk → BundleEnd × Disk
  | [], disk => (.pendingConfirmation, disk)
  | file :: rest, disk =>
      match file.enqueue disk with
      | (.enqueued, after) => enqueueBundle (done ++ [file]) rest after
      | (.pathLockBusy, after) => (.rejectedPathLocked, rollback done after)
      | (.queueFull, after) => (.rejectedPendingQueueFull, rollback done after)
      | (.raised, after) => (.raised, after)

/-- The low-confidence branch of `kb_bootstrap_project_fn`. -/
def enqueueBootstrap (wouldExceed : Bool) (files : List BundleFile) (disk : Disk) :
    BundleEnd × Disk :=
  if wouldExceed then (.rejectedPendingQueueFull, disk) else enqueueBundle [] files disk

/-- Every file has its entry, or the queue is as before. -/
def AllOrNothing (files : List BundleFile) (before after : Disk) : Prop :=
  (∀ file ∈ files, after.live file.id = some (.queued file.proposal)) ∨ after = before

/-- The ids are new, and no two files have the same. -/
structure NewIds (files : List BundleFile) (disk : Disk) : Prop where
  distinct : (files.map BundleFile.id).Nodup
  live : ∀ file ∈ files, disk.live file.id = none
  claimed : ∀ file ∈ files, disk.claimed file.id = none

namespace NewIds

variable {before : Disk} {done rest : List BundleFile} {file : BundleFile}

theorem earlier_distinct (ids : NewIds (done ++ rest) before) :
    (done.map BundleFile.id).Nodup := by
  have distinct := ids.distinct
  rw [List.map_append] at distinct
  exact distinct.of_append_left

theorem next_not_mem (ids : NewIds (done ++ file :: rest) before) :
    file.id ∉ done.map BundleFile.id := by
  have distinct := ids.distinct
  rw [List.map_append, List.map_cons] at distinct
  exact fun member => List.disjoint_of_nodup_append distinct member List.mem_cons_self

end NewIds

/-- The first file that is not enqueued leaves nothing half done: it is refused and every
entry before it is taken back, or it is the first and leaves nothing, or it is the last and
its entry is there. -/
def Together (disk : Disk) (done : List BundleFile) : List BundleFile → Prop
  | [] => True
  | file :: rest =>
      let path := file.proposal.targetPath
      if file.full then ∀ earlier ∈ done, earlier.Undone
      else if file.ending = .unlocked then done = []
      else if disk.lock path ≠ none ∨ path ∈ done.map fun earlier => earlier.proposal.targetPath
        then ∀ earlier ∈ done, earlier.Undone
      else
        match file.ending with
        | .completes => Together disk (done ++ [file]) rest
        | .published => rest = []
        | .released => done = []
        | .locked | .unlocked => False

/-! ## One entry -/

/-- The entry of a file is there, and holds its lock. -/
structure Disk.Entered (disk : Disk) (file : BundleFile) : Prop where
  live : disk.live file.id = some (.queued file.proposal)
  lock : disk.lock file.proposal.targetPath = some ⟨.pending file.id, file.acquiredAt⟩

namespace BundleFile

variable {file : BundleFile} {disk : Disk}

theorem actions_consume (entered : disk.Entered file) :
    (disk.consume file.id file.token file.rejectedAt).actions =
      [.renameLive file.id,
        .writeClaimed file.id (Disk.stamp (.queued file.proposal) file.token file.rejectedAt),
        .removeClaimed file.id, .unlinkLock file.proposal.targetPath] := by
  have released : disk.releaseLockOwnedBy file.proposal.targetPath file.id =
      [.unlinkLock file.proposal.targetPath] := by
    rcases disk.releaseLockOwnedBy_cases file.proposal.targetPath file.id with
      ⟨-, planned⟩ | ⟨other, -⟩
    · exact planned
    · exact absurd ⟨file.acquiredAt, entered.lock⟩ other
  rw [Disk.consume_eq_ok_iff.mpr ⟨_, entered.live, rfl⟩]
  simp only [FilePlan.actions, PendingEntry.targetPath_queued, released]

/-- A rejection leaves the entries of other ids. -/
theorem reject_frame (entered : disk.Entered file) {id : PendingId} (other : id ≠ file.id) :
    (file.reject disk).live id = disk.live id ∧
      (file.reject disk).claimed id = disk.claimed id := by
  unfold reject
  rw [actions_consume entered]
  apply execute_take_preserves fun state : Disk => state.live id = disk.live id ∧
    state.claimed id = disk.claimed id
  · intro action member state same
    simp only [List.mem_cons, List.not_mem_nil, or_false] at member
    rcases member with rfl | rfl | rfl | rfl
    · simpa [Disk.apply, other] using same
    · simpa [Disk.apply, other] using same
    · simpa [Disk.apply, other] using same
    · exact same
  · exact ⟨rfl, rfl⟩

/-- A rejection leaves the locks of other paths. -/
theorem reject_lock (entered : disk.Entered file) {path : RelPath}
    (other : path ≠ file.proposal.targetPath) :
    (file.reject disk).lock path = disk.lock path := by
  unfold reject
  rw [actions_consume entered]
  apply execute_take_preserves fun state : Disk => state.lock path = disk.lock path
  · intro action member state same
    simp only [List.mem_cons, List.not_mem_nil, or_false] at member
    rcases member with rfl | rfl | rfl | rfl
    · exact same
    · exact same
    · exact same
    · simpa [Disk.apply, other] using same
  · rfl

/-- A rejection leaves the other entries. -/
theorem entered_reject {rest : List BundleFile} (entered : disk.Entered file)
    (others : ∀ other ∈ rest, disk.Entered other) (newId : file.id ∉ rest.map BundleFile.id)
    (newPath : file.proposal.targetPath ∉ rest.map fun other => other.proposal.targetPath) :
    ∀ other ∈ rest, (file.reject disk).Entered other := by
  intro other member
  have otherId : other.id ≠ file.id := by
    intro same
    exact newId (same ▸ List.mem_map_of_mem member)
  have otherPath : other.proposal.targetPath ≠ file.proposal.targetPath := by
    intro same
    exact newPath (List.mem_map.mpr ⟨other, member, same⟩)
  constructor
  · rw [(reject_frame entered otherId).1]
    exact (others other member).live
  · rw [reject_lock entered otherPath]
    exact (others other member).lock

/-- A rejection that is performed wholly takes the entry back. -/
theorem reject_of_undone (entered : disk.Entered file) (undone : file.Undone) :
    file.reject disk =
      { disk with
        live := Function.update disk.live file.id none
        claimed := Function.update disk.claimed file.id none
        lock := Function.update disk.lock file.proposal.targetPath none } := by
  unfold reject
  rw [actions_consume entered, List.take_of_length_le undone]
  simp [Disk.apply]

/-- A trace of an entry. -/
def Traced (file : BundleFile) (disk : Disk) : Prop :=
  disk.live file.id ≠ none ∨ disk.claimed file.id ≠ none ∨
    disk.lock file.proposal.targetPath ≠ none

/-- A rejection that stops on the way leaves a trace. -/
theorem traced_reject (entered : disk.Entered file) (stopped : ¬ file.Undone) :
    file.Traced (file.reject disk) := by
  unfold Undone at stopped
  unfold Traced reject
  rw [actions_consume entered]
  have few : file.undone = 0 ∨ file.undone = 1 ∨ file.undone = 2 ∨ file.undone = 3 := by
    omega
  rcases few with count | count | count | count
  · left
    simp [count, entered.live]
  · right; left
    simp [count, Disk.apply, entered.live]
  · right; left
    simp [count, Disk.apply]
  · right; right
    simp [count, Disk.apply, entered.lock]

end BundleFile

/-! ## The entries made so far -/

/-- The queue is as before, but for the entries of some files. -/
structure Disk.Staged (before disk : Disk) (done : List BundleFile) : Prop where
  entered : ∀ file ∈ done, disk.Entered file
  free : ∀ file ∈ done, before.lock file.proposal.targetPath = none
  live : ∀ id, id ∉ done.map BundleFile.id → disk.live id = before.live id
  lock : ∀ path, path ∉ done.map (fun file => file.proposal.targetPath) →
    disk.lock path = before.lock path
  claimed : disk.claimed = before.claimed
  restoring : disk.restoring = before.restoring

namespace Disk.Staged

variable {before disk : Disk} {done : List BundleFile} {file : BundleFile}

theorem refl (disk : Disk) : disk.Staged disk [] where
  entered := by
    intro file member
    cases member
  free := by
    intro file member
    cases member
  live _ _ := rfl
  lock _ _ := rfl
  claimed := rfl
  restoring := rfl

/-- A path is locked if it was before, or an entry made so far has it. -/
theorem lock_ne_none_iff (staged : before.Staged disk done) {path : RelPath} :
    disk.lock path ≠ none ↔
      before.lock path ≠ none ∨ path ∈ done.map fun file => file.proposal.targetPath := by
  by_cases present : path ∈ done.map fun file => file.proposal.targetPath
  · obtain ⟨file, member, rfl⟩ := List.mem_map.mp present
    apply iff_of_true
    · rw [(staged.entered file member).lock]
      exact Option.some_ne_none _
    · exact .inr present
  · rw [staged.lock path present, or_iff_left present]

/-- Two entries have different paths. -/
theorem path_inj (staged : before.Staged disk done) {other : BundleFile}
    (member : file ∈ done) (otherMember : other ∈ done)
    (same : file.proposal.targetPath = other.proposal.targetPath) : file.id = other.id := by
  have first := (staged.entered file member).lock
  rw [same, (staged.entered other otherMember).lock] at first
  simp only [Option.some.injEq, LockRecord.mk.injEq, LockHolder.pending.injEq] at first
  exact first.1.symm

/-- One more entry. -/
theorem append (staged : before.Staged disk done) (newId : file.id ∉ done.map BundleFile.id)
    (free : disk.lock file.proposal.targetPath = none) :
    before.Staged
      ((disk.apply (.linkLock file.proposal.targetPath ⟨.pending file.id, file.acquiredAt⟩)).apply
        (.writeLive file.id (.queued file.proposal)))
      (done ++ [file]) := by
  have unlocked : ¬ (before.lock file.proposal.targetPath ≠ none ∨
      file.proposal.targetPath ∈ done.map fun earlier => earlier.proposal.targetPath) := by
    rw [← staged.lock_ne_none_iff]
    exact not_not.mpr free
  rw [not_or, not_not] at unlocked
  constructor
  · intro other member
    rcases List.mem_append.mp member with earlier | here
    · have otherId : other.id ≠ file.id := by
        intro same
        exact newId (same ▸ List.mem_map_of_mem earlier)
      have otherPath : other.proposal.targetPath ≠ file.proposal.targetPath := by
        intro same
        exact unlocked.2 (List.mem_map.mpr ⟨other, earlier, same⟩)
      constructor
      · simpa [Disk.apply, otherId] using (staged.entered other earlier).live
      · simpa [Disk.apply, otherPath] using (staged.entered other earlier).lock
    · cases List.mem_singleton.mp here
      constructor
      · simp [Disk.apply]
      · simp [Disk.apply, free]
  · intro other member
    rcases List.mem_append.mp member with earlier | here
    · exact staged.free other earlier
    · cases List.mem_singleton.mp here
      exact unlocked.1
  · intro id absent
    rw [List.map_append, List.mem_append, not_or] at absent
    have otherId : id ≠ file.id := List.ne_of_not_mem_cons absent.2
    simpa [Disk.apply, otherId] using staged.live id absent.1
  · intro path absent
    rw [List.map_append, List.mem_append, not_or] at absent
    have otherPath : path ≠ file.proposal.targetPath := List.ne_of_not_mem_cons absent.2
    simpa [Disk.apply, otherPath] using staged.lock path absent.1
  · exact staged.claimed
  · exact staged.restoring

/-- The first of the entries is taken back. -/
theorem reject {rest : List BundleFile} (staged : before.Staged disk (file :: rest))
    (distinct : ((file :: rest).map BundleFile.id).Nodup) (undone : file.Undone)
    (live : before.live file.id = none) (claimed : before.claimed file.id = none) :
    before.Staged (file.reject disk) rest := by
  rw [List.map_cons, List.nodup_cons] at distinct
  have entered := staged.entered file List.mem_cons_self
  have otherPath : ∀ other ∈ rest, other.proposal.targetPath ≠ file.proposal.targetPath := by
    intro other member same
    have sameId := staged.path_inj (List.mem_cons_of_mem _ member) List.mem_cons_self same
    exact distinct.1 (sameId ▸ List.mem_map_of_mem member)
  have otherId : ∀ other ∈ rest, other.id ≠ file.id := by
    intro other member same
    exact distinct.1 (same ▸ List.mem_map_of_mem member)
  rw [BundleFile.reject_of_undone entered undone]
  constructor
  · intro other member
    have held := staged.entered other (List.mem_cons_of_mem _ member)
    constructor
    · simpa [otherId other member] using held.live
    · simpa [otherPath other member] using held.lock
  · intro other member
    exact staged.free other (List.mem_cons_of_mem _ member)
  · intro id absent
    by_cases same : id = file.id
    · subst same
      simp [live]
    · rw [← staged.live id]
      · simp [same]
      · rw [List.map_cons, List.mem_cons, not_or]
        exact ⟨same, absent⟩
  · intro path absent
    by_cases same : path = file.proposal.targetPath
    · subst same
      simp [staged.free file List.mem_cons_self]
    · rw [← staged.lock path]
      · simp [same]
      · rw [List.map_cons, List.mem_cons, not_or]
        exact ⟨same, absent⟩
  · funext id
    by_cases same : id = file.id
    · subst same
      simp [claimed]
    · simp [same, staged.claimed]
  · exact staged.restoring

/-- Without entries the queue is as before. -/
theorem eq_of_nil (staged : before.Staged disk []) : disk = before := by
  obtain ⟨liveAfter, claimedAfter, restoringAfter, lockAfter⟩ := disk
  obtain ⟨liveBefore, claimedBefore, restoringBefore, lockBefore⟩ := before
  have live : liveAfter = liveBefore := funext fun id => staged.live id List.not_mem_nil
  have lock : lockAfter = lockBefore := funext fun path => staged.lock path List.not_mem_nil
  have claimed : claimedAfter = claimedBefore := staged.claimed
  have restoring : restoringAfter = restoringBefore := staged.restoring
  subst live lock claimed restoring
  rfl

/-- A rollback that is performed wholly takes everything back. -/
theorem rollback_eq (staged : before.Staged disk done)
    (distinct : (done.map BundleFile.id).Nodup) (undone : ∀ file ∈ done, file.Undone)
    (live : ∀ file ∈ done, before.live file.id = none)
    (claimed : ∀ file ∈ done, before.claimed file.id = none) :
    rollback done disk = before := by
  induction done generalizing disk with
  | nil => exact staged.eq_of_nil
  | cons first rest ih =>
      rw [List.forall_mem_cons] at undone live claimed
      have back := staged.reject distinct undone.1 live.1 claimed.1
      exact ih back (List.nodup_cons.mp distinct).2 undone.2 live.2 claimed.2

end Disk.Staged

/-- A rollback leaves the entries of other ids. -/
theorem rollback_frame {done : List BundleFile} {disk : Disk}
    (entered : ∀ file ∈ done, disk.Entered file) (distinct : (done.map BundleFile.id).Nodup)
    (apart : (done.map fun file => file.proposal.targetPath).Nodup) {id : PendingId}
    (other : id ∉ done.map BundleFile.id) :
    (rollback done disk).live id = disk.live id ∧
      (rollback done disk).claimed id = disk.claimed id := by
  induction done generalizing disk with
  | nil => exact ⟨rfl, rfl⟩
  | cons first rest ih =>
      rw [List.forall_mem_cons] at entered
      rw [List.map_cons, List.nodup_cons] at distinct apart
      rw [List.map_cons, List.mem_cons, not_or] at other
      have still := BundleFile.entered_reject entered.1 entered.2 distinct.1 apart.1
      have here := BundleFile.reject_frame entered.1 other.1
      have later := ih still distinct.2 apart.2 other.2
      exact ⟨later.1.trans here.1, later.2.trans here.2⟩

/-- A rollback leaves the locks of other paths. -/
theorem rollback_lock {done : List BundleFile} {disk : Disk}
    (entered : ∀ file ∈ done, disk.Entered file) (distinct : (done.map BundleFile.id).Nodup)
    (apart : (done.map fun file => file.proposal.targetPath).Nodup) {path : RelPath}
    (other : path ∉ done.map fun file => file.proposal.targetPath) :
    (rollback done disk).lock path = disk.lock path := by
  induction done generalizing disk with
  | nil => rfl
  | cons first rest ih =>
      rw [List.forall_mem_cons] at entered
      rw [List.map_cons, List.nodup_cons] at distinct apart
      rw [List.map_cons, List.mem_cons, not_or] at other
      have still := BundleFile.entered_reject entered.1 entered.2 distinct.1 apart.1
      have here := BundleFile.reject_lock entered.1 other.1
      exact (ih still distinct.2 apart.2 other.2).trans here

/-- A rollback in which a rejection stops on the way leaves a trace of that entry. -/
theorem traced_rollback {done : List BundleFile} {disk : Disk}
    (entered : ∀ file ∈ done, disk.Entered file) (distinct : (done.map BundleFile.id).Nodup)
    (apart : (done.map fun file => file.proposal.targetPath).Nodup) {file : BundleFile}
    (member : file ∈ done) (stopped : ¬ file.Undone) :
    file.Traced (rollback done disk) := by
  induction done generalizing disk with
  | nil => cases member
  | cons first rest ih =>
      rw [List.forall_mem_cons] at entered
      rw [List.map_cons, List.nodup_cons] at distinct apart
      have still := BundleFile.entered_reject entered.1 entered.2 distinct.1 apart.1
      rcases List.mem_cons.mp member with rfl | later
      · have kept := rollback_frame still distinct.2 apart.2 distinct.1
        unfold BundleFile.Traced rollback
        rw [kept.1, kept.2, rollback_lock still distinct.2 apart.2 apart.1]
        exact BundleFile.traced_reject entered.1 stopped
      · exact ih still distinct.2 apart.2 later

/-! ## The loop -/

namespace Disk.Staged

variable {before disk : Disk} {done rest : List BundleFile} {file : BundleFile}

/-- The entries made so far have different paths. -/
theorem apart (staged : before.Staged disk done) (distinct : (done.map BundleFile.id).Nodup) :
    (done.map fun file => file.proposal.targetPath).Nodup := by
  apply List.Nodup.map_on _ distinct.of_map
  intro first firstMember second secondMember same
  exact List.inj_on_of_nodup_map distinct firstMember secondMember
    (staged.path_inj firstMember secondMember same)

/-- The next file has no entry. -/
theorem live_next (staged : before.Staged disk done)
    (ids : NewIds (done ++ file :: rest) before) : disk.live file.id = none := by
  rw [staged.live _ ids.next_not_mem]
  exact ids.live file (List.mem_append_right _ List.mem_cons_self)

/-- A loop that stops before a file does nothing only if that file is the first. -/
theorem allOrNothing_iff (staged : before.Staged disk done)
    (ids : NewIds (done ++ file :: rest) before) :
    AllOrNothing (done ++ file :: rest) before disk ↔ done = [] := by
  constructor
  · rintro (all | same)
    · have present := all file (List.mem_append_right _ List.mem_cons_self)
      rw [staged.live_next ids] at present
      cases present
    · subst same
      apply List.eq_nil_iff_forall_not_mem.mpr
      intro earlier member
      have held := (staged.entered earlier member).live
      rw [ids.live earlier (List.mem_append_left _ member)] at held
      cases held
  · rintro rfl
    exact .inr staged.eq_of_nil

/-- A loop that rolls back does nothing only if every rejection is performed wholly. -/
theorem rollback_allOrNothing_iff (staged : before.Staged disk done)
    (ids : NewIds (done ++ file :: rest) before) :
    AllOrNothing (done ++ file :: rest) before (rollback done disk) ↔
      ∀ earlier ∈ done, earlier.Undone := by
  have distinct := ids.earlier_distinct
  constructor
  · rintro (all | same) earlier member
    · have present := all file (List.mem_append_right _ List.mem_cons_self)
      obtain ⟨frame, -⟩ := rollback_frame staged.entered distinct (staged.apart distinct)
        ids.next_not_mem
      rw [frame, staged.live_next ids] at present
      cases present
    · by_contra stopped
      have traced := traced_rollback staged.entered distinct (staged.apart distinct) member stopped
      rw [same] at traced
      have inBundle := List.mem_append_left (file :: rest) member
      rcases traced with live | claimed | lock
      · exact live (ids.live earlier inBundle)
      · exact claimed (ids.claimed earlier inBundle)
      · exact lock (staged.free earlier member)
  · intro undone
    right
    apply staged.rollback_eq distinct undone
    · intro earlier member
      exact ids.live earlier (List.mem_append_left _ member)
    · intro earlier member
      exact ids.claimed earlier (List.mem_append_left _ member)

/-- Linking a free lock and removing it again changes nothing. -/
theorem link_unlink {path : RelPath} (lock : LockRecord) (free : disk.lock path = none) :
    (disk.apply (.linkLock path lock)).apply (.unlinkLock path) = disk := by
  simp only [Disk.apply, free, Function.update_idem]
  rw [← free, Function.update_eq_self]

/-- A lock that was linked and is left is not as before. -/
theorem not_allOrNothing_of_locked (staged : before.Staged disk done)
    (ids : NewIds (done ++ file :: rest) before)
    (free : disk.lock file.proposal.targetPath = none) :
    ¬ AllOrNothing (done ++ file :: rest) before
      (disk.apply
        (.linkLock file.proposal.targetPath ⟨.pending file.id, file.acquiredAt⟩)) := by
  rintro (all | same)
  · have present := all file (List.mem_append_right _ List.mem_cons_self)
    rw [show (disk.apply _).live file.id = disk.live file.id from rfl,
      staged.live_next ids] at present
    cases present
  · have taken : before.lock file.proposal.targetPath ≠ none := by
      rw [← same]
      simp [Disk.apply, free]
    exact staged.lock_ne_none_iff.mpr (.inl taken) free

end Disk.Staged

/-- The rest of a bundle ends together with the entries made so far exactly under the
condition. -/
theorem enqueueBundle_allOrNothing_iff {before disk : Disk} {done rest : List BundleFile}
    (staged : before.Staged disk done) (ids : NewIds (done ++ rest) before) :
    AllOrNothing (done ++ rest) before (enqueueBundle done rest disk).2 ↔
      Together before done rest := by
  induction rest generalizing done disk with
  | nil =>
      apply iff_of_true _ trivial
      left
      intro file member
      rw [List.append_nil] at member
      exact (staged.entered file member).live
  | cons file rest ih =>
      simp only [enqueueBundle, Together, BundleFile.enqueue]
      by_cases full : file.full = true
      · simp only [full, if_true]
        exact staged.rollback_allOrNothing_iff ids
      by_cases unlocked : file.ending = .unlocked
      · simp only [full, unlocked, if_true]
        exact staged.allOrNothing_iff ids
      by_cases busy : disk.lock file.proposal.targetPath ≠ none
      · obtain ⟨lock, held⟩ := Option.ne_none_iff_exists'.mp busy
        simp only [full, unlocked, held, if_false, if_pos (staged.lock_ne_none_iff.mp busy)]
        exact staged.rollback_allOrNothing_iff ids
      have free : disk.lock file.proposal.targetPath = none := not_not.mp busy
      simp only [full, Bool.false_eq_true, unlocked, free, if_false,
        if_neg (fun taken => busy (staged.lock_ne_none_iff.mpr taken))]
      have more := staged.append ids.next_not_mem free
      have moreIds : NewIds ((done ++ [file]) ++ rest) before := by
        rw [List.append_assoc]
        exact ids
      have files : done ++ file :: rest = (done ++ [file]) ++ rest := by simp
      cases ending : file.ending with
      | completes =>
          rw [files]
          exact ih more moreIds
      | published =>
          rw [files]
          cases rest with
          | nil =>
              apply iff_of_true _ rfl
              left
              intro entry member
              rw [List.append_nil] at member
              exact (more.entered entry member).live
          | cons next rest =>
              rw [more.allOrNothing_iff moreIds]
              simp
      | released =>
          rw [Disk.Staged.link_unlink _ free]
          exact staged.allOrNothing_iff ids
      | locked =>
          exact iff_of_false (staged.not_allOrNothing_of_locked ids free) id
      | unlocked => exact absurd ending unlocked

/-- A bootstrap of low confidence is all or nothing exactly if the queue is known to be too
small, or the first file that is not enqueued leaves nothing half done. -/
theorem enqueueBootstrap_allOrNothing_iff {wouldExceed : Bool} {files : List BundleFile}
    {disk : Disk} (ids : NewIds files disk) :
    AllOrNothing files disk (enqueueBootstrap wouldExceed files disk).2 ↔
      wouldExceed = true ∨ Together disk [] files := by
  unfold enqueueBootstrap
  cases wouldExceed with
  | true => exact iff_of_true (.inr rfl) (.inl rfl)
  | false =>
      have loop := enqueueBundle_allOrNothing_iff (Disk.Staged.refl disk) ids
      simpa using loop

/-- The file of a rule, the first of a bundle. -/
def ruleFile : BundleFile :=
  ⟨1, ruleProposal, 0, false, .completes, 4, 1, 1⟩

/-- A note, the second of the bundle. -/
def noteFile : BundleFile :=
  ⟨2, { ruleProposal with targetPath := inboxPath }, 0, false, .completes, 4, 2, 1⟩

/-- A queue in which the path of the note is locked. -/
def noteLocked : Disk :=
  Disk.empty.apply (.linkLock inboxPath ⟨.pending 3, 0⟩)

theorem newIds_noteLocked : NewIds [ruleFile, noteFile] noteLocked := by
  constructor
  · decide
  · intro file _
    rfl
  · intro file _
    rfl

/-- A bundle whose second path is locked leaves the queue as before. -/
theorem locked_path_takes_the_bundle_back :
    AllOrNothing [ruleFile, noteFile] noteLocked
      (enqueueBootstrap false [ruleFile, noteFile] noteLocked).2 := by
  apply (enqueueBootstrap_allOrNothing_iff newIds_noteLocked).mpr
  right
  have busy : noteLocked.lock inboxPath ≠ none := by
    rw [← Option.isSome_iff_ne_none]
    decide
  have free : ¬ (noteLocked.lock rulePath ≠ none) := by
    rw [← Option.isSome_iff_ne_none]
    decide
  simp [Together, ruleFile, noteFile, ruleProposal, busy, free, BundleFile.Undone]

/-- An enqueue that raises before its lock leaves the entries before it. -/
theorem raised_enqueue_leaves_the_first :
    ¬ ∀ (wouldExceed : Bool) (files : List BundleFile) (disk : Disk), NewIds files disk →
      AllOrNothing files disk (enqueueBootstrap wouldExceed files disk).2 := by
  intro always
  have ids : NewIds [ruleFile, { noteFile with ending := .unlocked }] Disk.empty := by
    constructor
    · decide
    · intro file _
      rfl
    · intro file _
      rfl
  rcases always false _ _ ids with all | same
  · have present := all { noteFile with ending := .unlocked } (by simp)
    exact absurd (congrArg Option.isSome present) (by decide)
  · have first := congrArg (fun disk => (disk.live 1).isSome) same
    exact absurd first (by decide)

end DataOlympus
