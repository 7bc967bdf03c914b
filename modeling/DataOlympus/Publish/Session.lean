import DataOlympus.Gate.Propose
import DataOlympus.Merge.Replay

/-!
# Session branches

A session worktree holds a branch that starts at a tree of the trunk.  A commit puts one
document, or the files of one bundle, on top of it after the gate compared their ids with
the committed tree of that branch and with the live index.  A refresh replays the
documents of the branch on the trunk as it is then, without asking the gate again.  This
module says exactly when a branch ends in a tree without repeated ids.
-/

namespace DataOlympus

open Lines Replay

/-- One commit: a document, or the files of a bundle. -/
inductive Batch where
  | document (targetPath : RelPath) (postimage : Text)
  | bundle (files : List (RelPath × Text))

namespace Batch

def files : Batch → List (RelPath × Text)
  | document targetPath postimage => [(targetPath, postimage)]
  | bundle files => files

/-- The `transaction` the gate is given. -/
def transaction : Batch → List (RelPath × Text)
  | document _ _ => []
  | bundle files => files

end Batch

/-- The loop over `seen_ids`: a file of the bundle has an id that another one had. -/
def seenTwice (seenIds : List (PyStr × RelPath)) : List (RelPath × PyStr) → Bool
  | [] => false
  | (path, id) :: rest =>
      if id.isEmpty then seenTwice seenIds rest
      else (seenIds.lookup id).any (fun other => other ≠ path) ||
        seenTwice ((id, path) :: seenIds) rest

/-- An id that was seen belongs to one path through the rest of the loop. -/
theorem eq_of_seenTwice {seenIds : List (PyStr × RelPath)} {files : List (RelPath × PyStr)}
    (quiet : seenTwice seenIds files = false) {id : PyStr} (named : id.isEmpty = false)
    {owner path : RelPath} (seen : seenIds.lookup id = some owner)
    (member : (path, id) ∈ files) : path = owner := by
  induction files generalizing seenIds with
  | nil => cases member
  | cons file rest ih =>
      rcases file with ⟨first, firstId⟩
      unfold seenTwice at quiet
      by_cases blank : firstId.isEmpty = true
      · rw [if_pos blank] at quiet
        rcases List.mem_cons.mp member with here | later
        · cases here
          rw [named] at blank
          cases blank
        · exact ih quiet seen later
      · rw [if_neg blank, Bool.or_eq_false_iff] at quiet
        by_cases same : id = firstId
        · subst firstId
          have owned : owner = first := by simpa [seen] using quiet.1
          subst owner
          rcases List.mem_cons.mp member with here | later
          · cases here
            rfl
          · exact ih quiet.2 (by simp) later
        · rcases List.mem_cons.mp member with here | later
          · cases here
            exact absurd rfl same
          · apply ih quiet.2 _ later
            rw [List.lookup_cons, beq_eq_false_iff_ne.mpr same]
            exact seen

/-- No id occurs at two paths of a bundle that passes the loop. -/
theorem path_eq_of_seenTwice {seenIds : List (PyStr × RelPath)}
    {files : List (RelPath × PyStr)} (quiet : seenTwice seenIds files = false) {id : PyStr}
    (named : id.isEmpty = false) {path other : RelPath} (member : (path, id) ∈ files)
    (otherMember : (other, id) ∈ files) : path = other := by
  induction files generalizing seenIds with
  | nil => cases member
  | cons file rest ih =>
      rcases file with ⟨first, firstId⟩
      unfold seenTwice at quiet
      by_cases same : firstId = id
      · subst firstId
        rw [if_neg (by simp [named]), Bool.or_eq_false_iff] at quiet
        have owned : ∀ {p}, (p, id) ∈ (first, id) :: rest → p = first := by
          intro p here
          rcases List.mem_cons.mp here with now | later
          · cases now
            rfl
          · exact eq_of_seenTwice quiet.2 named (by simp) later
        exact (owned member).trans (owned otherMember).symm
      · have later : ∀ {p}, (p, id) ∈ (first, firstId) :: rest → (p, id) ∈ rest := by
          intro p here
          rcases List.mem_cons.mp here with now | later
          · cases now
            exact absurd rfl same
          · exact later
        by_cases blank : firstId.isEmpty = true
        · rw [if_pos blank] at quiet
          exact ih quiet (later member) (later otherMember)
        · rw [if_neg blank, Bool.or_eq_false_iff] at quiet
          exact ih quiet.2 (later member) (later otherMember)

namespace Runtime

variable (runtime : Runtime) (config : GateConfig)

/-- The effective ids of the files of a bundle. -/
def bundleIds (files : List (RelPath × Text)) : Except Raised (List (RelPath × PyStr)) :=
  files.mapM fun file => (runtime.lenientFrontmatter file.2).map fun entries =>
    (file.1, effectiveDocId entries file.1)

/-- The content gate passes the commit.  The files of a bundle are locked by path, so
no path occurs twice in it. -/
structure BatchAccepted (idMap : Option (List (PyStr × RelPath))) (worktree : Worktree)
    (batch : Batch) : Prop where
  once : (batch.files.map Prod.fst).Nodup
  distinct : ∀ files, batch = .bundle files →
    ∃ ids, runtime.bundleIds files = .ok ids ∧ seenTwice [] ids = false
  accepted : ∀ file ∈ batch.files,
    runtime.Accepts config file.1 file.2 idMap (some worktree) batch.transaction

end Runtime

/-- The trees the trunk has had, the last one first. -/
structure History where
  tip : Tree
  earlier : List Tree

def History.trees (trunk : History) : List Tree :=
  trunk.tip :: trunk.earlier

/-- A written document as the gate judged it. -/
structure Judged where
  postimage : Text
  batch : Batch
  /-- The committed tree of the worktree. -/
  against : Tree
  /-- What the gate could read of it. -/
  snapshot : Option Snapshot
  idMap : Option (List (PyStr × RelPath))

/-- A session branch: where it starts, where it ends, and the documents its commits
wrote in between. -/
structure Session where
  base : History
  head : Tree
  written : AList fun _ : RelPath => Judged

namespace Session

/-- A new worktree. -/
def start (base : History) : Session :=
  ⟨base, base.tip, ∅⟩

/-- The branch after one commit. -/
def commit (session : Session) (batch : Batch) (snapshot : Option Snapshot)
    (idMap : Option (List (PyStr × RelPath))) : Session where
  base := session.base
  head := insertAll session.head batch.files
  written := insertAll session.written (batch.files.map fun file =>
    (file.1, ⟨file.2, batch, session.head, snapshot, idMap⟩))

/-- `git rebase` onto the trunk.  `merge` is what git makes of a document that was
written on both sides; where it finds a conflict the rebase is aborted. -/
def rebase (session : Session) (trunk : History) (merge : RelPath → Option Text) :
    Option Session :=
  (replay trunk.tip (carried session.base.tip session.head trunk.tip merge)
    session.written.keys).map fun head => { session with base := trunk, head := head }

/-- The branch after its push. -/
def pushed (session : Session) (trunk : History) : Session :=
  { session with base := trunk, written := ∅ }

/-- Rebasing documents that nobody else wrote gives the union of both sides. -/
theorem rebase_of_disjoint {session : Session} {trunk : History}
    {merge : RelPath → Option Text}
    (disjoint : ∀ path ∈ session.written, trunk.tip.lookup path = session.base.tip.lookup path)
    (present : ∀ path ∈ session.written, (session.head.lookup path).isSome = true) :
    ∃ rebased, session.rebase trunk merge = some rebased ∧
      ∀ path, rebased.head.lookup path =
        if path ∈ session.written then session.head.lookup path
        else trunk.tip.lookup path := by
  rcases replay_carried_of_disjoint disjoint present with ⟨union, done, union_eq⟩
  refine ⟨{ session with base := trunk, head := union }, by rw [rebase, done]; rfl, ?_⟩
  intro path
  simp only [union_eq path, AList.mem_keys]

end Session

/-! ## What the gate knew -/

section Judgement

variable (runtime : Runtime) (config : GateConfig)

/-- The gate accepted the commit that wrote the document, from what could be read of
the worktree. -/
structure Judged.Sound (judged : Judged) (path : RelPath) : Prop where
  member : (path, judged.postimage) ∈ judged.batch.files
  read : judged.snapshot = none ∨ judged.snapshot = runtime.snapshotOf judged.against
  gated : runtime.BatchAccepted config judged.idMap
    ⟨judged.against.isFile, judged.snapshot⟩ judged.batch

/-- A branch differs from its base only where its commits wrote, and each of these was
accepted. -/
structure Session.Sound (session : Session) : Prop where
  unwritten : ∀ path, session.written.lookup path = none →
    session.head.lookup path = session.base.tip.lookup path
  judged : ∀ path judged, session.written.lookup path = some judged →
    judged.Sound runtime config path

variable {runtime config}

theorem Session.sound_start (base : History) :
    (Session.start base).Sound runtime config := by
  constructor
  · intro path _
    rfl
  · intro path judged written
    simp [Session.start] at written

theorem Session.Sound.commit {session : Session} (sound : session.Sound runtime config)
    {batch : Batch} {snapshot : Option Snapshot}
    {idMap : Option (List (PyStr × RelPath))}
    (read : snapshot = none ∨ snapshot = runtime.snapshotOf session.head)
    (gated : runtime.BatchAccepted config idMap ⟨session.head.isFile, snapshot⟩ batch) :
    (session.commit batch snapshot idMap).Sound runtime config := by
  let records : List (RelPath × Judged) := batch.files.map fun file =>
    (file.1, ⟨file.2, batch, session.head, snapshot, idMap⟩)
  have paths : records.map Prod.fst = batch.files.map Prod.fst := by
    simp [records]
  have recordsOnce : (records.map Prod.fst).Nodup := by
    rw [paths]
    exact gated.once
  have untouched : ∀ path, path ∉ batch.files.map Prod.fst →
      (session.commit batch snapshot idMap).written.lookup path =
        session.written.lookup path := by
    intro path absent
    apply lookup_insertAll_of_not_mem
    rw [← paths] at absent
    exact absent
  have touched : ∀ path postimage, (path, postimage) ∈ batch.files →
      (session.commit batch snapshot idMap).written.lookup path =
        some ⟨postimage, batch, session.head, snapshot, idMap⟩ := by
    intro path postimage member
    apply lookup_insertAll_of_mem _ recordsOnce
    exact List.mem_map.mpr ⟨(path, postimage), member, rfl⟩
  constructor
  · intro path unwritten
    by_cases here : path ∈ batch.files.map Prod.fst
    · rcases List.mem_map.mp here with ⟨⟨_, postimage⟩, member, rfl⟩
      rw [touched _ postimage member] at unwritten
      cases unwritten
    · rw [untouched path here] at unwritten
      have headSame : (session.commit batch snapshot idMap).head.lookup path =
          session.head.lookup path := lookup_insertAll_of_not_mem session.head here
      rw [headSame]
      exact sound.unwritten path unwritten
  · intro path judged written
    by_cases here : path ∈ batch.files.map Prod.fst
    · rcases List.mem_map.mp here with ⟨⟨_, postimage⟩, member, rfl⟩
      rw [touched _ postimage member] at written
      cases written
      exact ⟨member, read, gated⟩
    · rw [untouched path here] at written
      exact sound.judged path judged written

theorem Session.Sound.rebase {session rebased : Session}
    (sound : session.Sound runtime config) {trunk : History}
    {merge : RelPath → Option Text} (done : session.rebase trunk merge = some rebased) :
    rebased.Sound runtime config := by
  rcases Option.map_eq_some_iff.mp done with ⟨head, replayed, rfl⟩
  constructor
  · intro path unwritten
    have absent : path ∉ session.written.keys := by
      rw [← AList.mem_keys]
      exact AList.lookup_eq_none.mp unwritten
    have carriedOver := lookup_replay replayed path
    rw [if_neg absent] at carriedOver
    exact carriedOver
  · exact sound.judged

theorem Session.Sound.pushed {session : Session} (trunk : History)
    (tip : trunk.tip = session.head) : (session.pushed trunk).Sound runtime config := by
  constructor
  · intro path _
    exact congrArg (AList.lookup path) tip.symm
  · intro path judged written
    simp [Session.pushed] at written

end Judgement

namespace Session

/-- The gate compared the id of the document written at `path` with that of the one now
at `other`: that document was in the snapshot it read or in the same bundle, the
written one still has the text it judged, and newline translation changes no block of
the two. -/
def Compared (session : Session) (path other : RelPath) : Prop :=
  ∃ judged text, session.written.lookup path = some judged ∧
    session.head.lookup path = some judged.postimage ∧
    session.head.lookup other = some text ∧
    StableBlock judged.postimage ∧ StableBlock text ∧
    (judged.snapshot ≠ none ∧ judged.against.lookup other = some text ∨
      ∃ files, judged.batch = .bundle files ∧ (other, text) ∈ files)

/-- No document the branch wrote shares an id with one it was never compared with. -/
def Clear (runtime : Runtime) (session : Session) : Prop :=
  ∀ path ∈ session.written, ∀ other, other ≠ path →
    ¬session.Compared path other → ¬session.Compared other path →
    ∀ id, runtime.HoldsId session.head path id → ¬runtime.HoldsId session.head other id

end Session

section Ids

variable {runtime : Runtime} {config : GateConfig}

/-- Documents that the gate compared have different ids. -/
theorem Session.Compared.not_holdsId {session : Session}
    (sound : session.Sound runtime config) {path other : RelPath}
    (compared : session.Compared path other) (different : other ≠ path) {id : PyStr}
    (holds : runtime.HoldsId session.head path id) :
    ¬runtime.HoldsId session.head other id := by
  rcases compared with ⟨judged, text, written, here, there, stable, otherStable, seen⟩
  rcases sound.judged path judged written with ⟨member, read, gated⟩
  rcases (runtime.accepts_iff config).mp (gated.accepted _ member) with
    ⟨entries, body, parsed, -, -, duplicate, -⟩
  have gateRead := runtime.lenientFrontmatter_of_parseFrontmatter parsed
  rcases holds with ⟨-, committed, indexEntries, committedHere, indexRead, rfl⟩
  rw [here, Option.some.injEq] at committedHere
  subst committed
  rw [stable.lenientFrontmatter, gateRead, Except.ok.injEq] at indexRead
  subst indexEntries
  rintro ⟨indexed, committed, otherEntries, committedThere, otherRead, same⟩
  rw [there, Option.some.injEq] at committedThere
  subst committed
  rw [otherStable.lenientFrontmatter] at otherRead
  rcases seen with ⟨readable, against⟩ | ⟨files, bundle, otherMember⟩
  · rcases read with unread | snapshotOf
    · exact readable unread
    · cases found : judged.snapshot with
      | none => exact readable found
      | some snapshot =>
          rw [found] at snapshotOf
          exact Runtime.not_mem_of_duplicateIdErrors duplicate found
            (runtime.mem_snapshotOf snapshotOf.symm against indexed otherRead) different same
  · rcases gated.distinct files bundle with ⟨ids, idsOk, quiet⟩
    rw [bundle] at member
    have listed : ∀ {p t found}, (p, t) ∈ files → runtime.lenientFrontmatter t = .ok found →
        (p, effectiveDocId found p) ∈ ids := by
      intro p t found inFiles foundOk
      rcases Except.mem_mapM_of_mem idsOk inFiles with ⟨entry, entryIn, done⟩
      rw [foundOk] at done
      cases done
      exact entryIn
    have named : (effectiveDocId entries path).isEmpty = false := effectiveDocId_ne_nil
    have otherListed := listed otherMember otherRead
    rw [same] at otherListed
    exact different (path_eq_of_seenTwice quiet named otherListed (listed member gateRead))

/-- A branch that starts at a tree without repeated ids ends in one exactly when it is
clear. -/
theorem Session.uniqueIds_head_iff {session : Session}
    (sound : session.Sound runtime config) (once : runtime.UniqueIds session.base.tip) :
    runtime.UniqueIds session.head ↔ session.Clear runtime := by
  constructor
  · intro unique path _ other different _ _ id holds otherHolds
    exact different (unique _ _ _ otherHolds holds)
  · intro clear path other id holds otherHolds
    by_contra different
    have apart : ∀ {p q}, p ≠ q → p ∈ session.written →
        runtime.HoldsId session.head p id → runtime.HoldsId session.head q id → False := by
      intro p q distinct wrote held otherHeld
      by_cases forward : session.Compared p q
      · exact forward.not_holdsId sound distinct.symm held otherHeld
      · by_cases backward : session.Compared q p
        · exact backward.not_holdsId sound distinct otherHeld held
        · exact clear p wrote q distinct.symm forward backward id held otherHeld
    by_cases wrote : path ∈ session.written
    · exact apart different wrote holds otherHolds
    · by_cases otherWrote : other ∈ session.written
      · exact apart (Ne.symm different) otherWrote otherHolds holds
      · have fromBase : ∀ {p}, p ∉ session.written → runtime.HoldsId session.head p id →
            runtime.HoldsId session.base.tip p id := by
          intro p unwritten held
          unfold Runtime.HoldsId at held ⊢
          rwa [sound.unwritten p (AList.lookup_eq_none.mpr unwritten)] at held
        exact different (once _ _ _ (fromBase wrote holds) (fromBase otherWrote otherHolds))

end Ids

end DataOlympus
