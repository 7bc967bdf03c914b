import DataOlympus.Text.Case
import DataOlympus.Text.Regex
import Mathlib.Data.List.Infix

/-!
# The onboarding status

Whether a workspace or a component is in the index is read off the documents whose path is like
the path of its directory, and off the endings of their paths.
-/

namespace DataOlympus

open Lines

/-- A row of the index as these queries read it. -/
structure IndexedDoc where
  id : Text
  path : Text
  tier : Text
  gitRemoteUrl : Option Text
  deriving DecidableEq

/-- `text LIKE pattern`. -/
def like : Text → Text → Bool
  | [], text => text.isEmpty
  | '%' :: pattern, text => text.tails.any fun rest => like pattern rest
  | '_' :: pattern, text =>
      match text with
      | [] => false
      | _ :: rest => like pattern rest
  | letter :: pattern, text =>
      match text with
      | [] => false
      | c :: rest => c.toLower = letter.toLower && like pattern rest

/-- `idx.list_by_prefix(prefix, exclude_under=…)`. -/
def listByPrefix (docs : List IndexedDoc) (dir : Text) (excludeUnder : Option Text) :
    List IndexedDoc :=
  docs.filter fun doc => like (dir ++ ['%']) doc.path &&
    !excludeUnder.any fun below => below.isPrefixOf (doc.path.drop dir.length)

/-- `idx.list_with_remote_url()`. -/
def listWithRemoteUrl (docs : List IndexedDoc) : List IndexedDoc :=
  docs.filter fun doc => doc.gitRemoteUrl.any fun url => !url.isEmpty

inductive ProjectTier where
  | t3
  | t4
  deriving DecidableEq

/-- Its name in the index. -/
def ProjectTier.name : ProjectTier → Text
  | .t3 => "T3".toList
  | .t4 => "T4".toList

/-- A workspace or component that has the same remote URL. -/
structure RenameCandidate where
  targetTier : ProjectTier
  targetWorkspace : Text
  targetComponent : Option Text
  deriving DecidableEq

inductive OnboardingState where
  | absent
  | incomplete
  | onboarded
  | renameCandidate
  deriving DecidableEq

structure OnboardingStatus where
  state : OnboardingState
  workspace : Text
  component : Option Text
  missingFiles : List Text
  renameCandidates : List RenameCandidate
  deriving DecidableEq

/-- `CANONICAL_T3_FILES` and `CANONICAL_T4_FILES`. -/
def ProjectTier.canonicalFiles : ProjectTier → List Text
  | .t3 => ["README.md", "AGENTS.md"].map String.toList
  | .t4 => ["AGENTS.md"].map String.toList

/-- `_has(entries, filename)`. -/
def hasFile (entries : List IndexedDoc) (filename : Text) : Bool :=
  entries.any fun entry => ('/' :: filename).isSuffixOf entry.path

section Status

variable (unicode : Unicode)

open Pattern in
/-- `_normalize_remote_url(url)`. -/
def normalizeRemoteUrl (url : Text) : Text :=
  let https := "https://".toList
  let s := unicode.lower (strip url)
  let s := (sequence [.start, literal "git@", .group "1" (.repeated (fun c => c ≠ ':') 1 none),
    literal ":"]).sub (fun found => https ++ found.group "1" ++ ['/']) s
  let s := (sequence [.start, literal "ssh://git@"]).sub (fun _ => https) s
  let s := (sequence [literal ".git", .repeated (fun c => c = '/') 0 (some 1), .finish]).sub
    (fun _ => []) s
  (sequence [literal "/", .finish]).sub (fun _ => []) s

/-- The candidate that a document stands for. -/
def renameCandidateOf (targetTier : ProjectTier) (path : Text) : Option RenameCandidate :=
  match targetTier, path.splitOn '/' with
  | .t3, _ :: workspace :: _ => some ⟨.t3, workspace, none⟩
  | .t4, _ :: workspace :: _ :: component :: _ => some ⟨.t4, workspace, some component⟩
  | _, _ => none

/-- `detect_rename_candidate(remote_url, idx, target_tier=…)`. -/
def detectRenameCandidate (remoteUrl : Option Text) (docs : List IndexedDoc)
    (targetTier : ProjectTier) : List RenameCandidate :=
  match remoteUrl.filter fun url => !url.isEmpty with
  | none => []
  | some url =>
      (listWithRemoteUrl docs).filterMap fun entry =>
        if entry.gitRemoteUrl.any fun other =>
            normalizeRemoteUrl unicode other = normalizeRemoteUrl unicode url then
          if entry.tier = targetTier.name then renameCandidateOf targetTier entry.path else none
        else none

/-- What is asked for. -/
structure OnboardingQuery where
  workspace : Text
  component : Option Text
  workspaceRemoteUrl : Option Text
  componentRemoteUrl : Option Text

namespace OnboardingQuery

variable (query : OnboardingQuery)

def tier : ProjectTier :=
  if query.component.isNone then .t3 else .t4

/-- `t3_root` or `t4_root`. -/
def root : Text :=
  "projects/".toList ++ query.workspace ++ "/".toList ++
    query.component.elim [] fun component =>
      "components/".toList ++ component ++ "/".toList

/-- The directory whose documents belong to components. -/
def excludeUnder : Option Text :=
  if query.component.isNone then some "components/".toList else none

def remoteUrl : Option Text :=
  if query.component.isNone then query.workspaceRemoteUrl else query.componentRemoteUrl

/-- The status where these documents are found, and these files are missing among them. -/
def statusOf (found : Bool) (missing : List Text) (candidates : List RenameCandidate) :
    OnboardingStatus :=
  let canonical := query.tier.canonicalFiles
  if found then
    ⟨if missing.isEmpty then .onboarded else .incomplete, query.workspace, query.component,
      missing, []⟩
  else if candidates.isEmpty then
    ⟨.absent, query.workspace, query.component, canonical, []⟩
  else ⟨.renameCandidate, query.workspace, query.component, canonical, candidates⟩

/-- `compute_status(…)`. -/
def computeStatus (docs : List IndexedDoc) : OnboardingStatus :=
  let entries := listByPrefix docs query.root query.excludeUnder
  query.statusOf (!entries.isEmpty)
    (query.tier.canonicalFiles.filter fun file => !hasFile entries file)
    (detectRenameCandidate unicode query.remoteUrl docs query.tier)

/-! ## The exact status -/

/-- The document lies in the directory, and in none of its components if that is what is asked
for. -/
def lies (doc : IndexedDoc) : Bool :=
  query.root.isPrefixOf doc.path &&
    !query.excludeUnder.any fun below => below.isPrefixOf (doc.path.drop query.root.length)

/-- A document is the file of this name directly in the directory. -/
def hasDirectly (docs : List IndexedDoc) (file : Text) : Bool :=
  docs.any fun doc => doc.path = query.root ++ file

/-- The status by the documents in the directory and the files directly in it. -/
def exactStatus (docs : List IndexedDoc) : OnboardingStatus :=
  query.statusOf (docs.any query.lies)
    (query.tier.canonicalFiles.filter fun file => !query.hasDirectly docs file)
    (detectRenameCandidate unicode query.remoteUrl docs query.tier)

/-- No document that is only like one in the directory, or lies deeper, decides: one is listed
only if one lies in the directory, and then every canonical name that ends a listed path is a
file directly in it. -/
def Unmistaken (docs : List IndexedDoc) : Prop :=
  let entries := listByPrefix docs query.root query.excludeUnder
  if docs.any query.lies then
    ∀ file ∈ query.tier.canonicalFiles, hasFile entries file = true →
      query.hasDirectly docs file = true
  else entries = []

end OnboardingQuery

end Status

/-! ## The listed documents -/

/-- A path is like what it begins with. -/
theorem like_append (dir rest : Text) : like (dir ++ ['%']) (dir ++ rest) = true := by
  induction dir with
  | nil =>
      rw [List.nil_append, List.nil_append, like, List.any_eq_true]
      exact ⟨[], (List.mem_tails _ _).mpr List.nil_suffix, rfl⟩
  | cons c dir ih =>
      rw [List.cons_append, List.cons_append]
      by_cases percent : c = '%'
      · subst percent
        rw [like, List.any_eq_true]
        exact ⟨dir ++ rest, (List.mem_tails _ _).mpr (List.suffix_cons _ _), ih⟩
      · by_cases underscore : c = '_'
        · subst underscore
          rw [like]
          exact ih
        · simpa [like, percent, underscore] using ih

namespace OnboardingQuery

variable {unicode : Unicode} {query : OnboardingQuery} {docs : List IndexedDoc}

/-- A directory ends with a slash. -/
theorem exists_root_eq (query : OnboardingQuery) : ∃ before, query.root = before ++ ['/'] := by
  unfold root
  cases query.component with
  | none => exact ⟨"projects/".toList ++ query.workspace, by simp⟩
  | some component =>
      exact ⟨"projects/".toList ++ query.workspace ++ "/".toList ++ "components/".toList ++
        component, by simp⟩

/-- A document in the directory is listed. -/
theorem mem_listByPrefix_of_lies {doc : IndexedDoc} (member : doc ∈ docs)
    (inside : query.lies doc = true) :
    doc ∈ listByPrefix docs query.root query.excludeUnder := by
  obtain ⟨leading, kept⟩ := Bool.and_eq_true_iff.mp inside
  obtain ⟨rest, path⟩ := List.isPrefixOf_iff_prefix.mp leading
  apply List.mem_filter.mpr
  refine ⟨member, Bool.and_eq_true_iff.mpr ⟨?_, kept⟩⟩
  rw [← path]
  exact like_append query.root rest

/-- A canonical file directly in the directory lies in it. -/
theorem lies_of_direct {doc : IndexedDoc} {file : Text}
    (canonical : file ∈ query.tier.canonicalFiles) (direct : doc.path = query.root ++ file) :
    query.lies doc = true := by
  have foreign : query.excludeUnder.any (fun below => below.isPrefixOf file) = false := by
    unfold tier at canonical
    unfold excludeUnder
    cases asked : query.component with
    | some component => rfl
    | none =>
        rw [asked] at canonical
        have plain : ∀ file ∈ ProjectTier.canonicalFiles .t3,
            ("components/".toList).isPrefixOf file = false := by
          decide
        exact plain file canonical
  rw [lies, direct, List.drop_left, foreign, Bool.not_false, Bool.and_true]
  exact List.isPrefixOf_iff_prefix.mpr (List.prefix_append _ _)

theorem hasFile_of_hasDirectly {file : Text} (canonical : file ∈ query.tier.canonicalFiles)
    (direct : query.hasDirectly docs file = true) :
    docs.any query.lies = true ∧
      hasFile (listByPrefix docs query.root query.excludeUnder) file = true := by
  obtain ⟨doc, member, path⟩ := List.any_eq_true.mp direct
  have path := of_decide_eq_true path
  have inside := lies_of_direct canonical path
  refine ⟨List.any_eq_true.mpr ⟨doc, member, inside⟩, List.any_eq_true.mpr ⟨doc, ?_, ?_⟩⟩
  · exact mem_listByPrefix_of_lies member inside
  · obtain ⟨before, root⟩ := query.exists_root_eq
    apply List.isSuffixOf_iff_suffix.mpr
    rw [path, root]
    exact ⟨before, by simp⟩

/-! ## The status -/

/-- A status where documents are found is told by the missing files. -/
theorem statusOf_found_inj {missing missing' : List Text}
    {candidates candidates' : List RenameCandidate} :
    query.statusOf true missing candidates = query.statusOf true missing' candidates' ↔
      missing = missing' := by
  constructor
  · intro same
    exact congrArg OnboardingStatus.missingFiles same
  · rintro rfl
    rfl

theorem statusOf_found_ne {missing missing' : List Text}
    {candidates candidates' : List RenameCandidate} :
    query.statusOf true missing candidates ≠ query.statusOf false missing' candidates' := by
  intro same
  have states := congrArg OnboardingStatus.state same
  unfold statusOf at states
  simp only [if_true, Bool.false_eq_true, if_false] at states
  by_cases complete : missing.isEmpty = true <;>
    by_cases alone : candidates'.isEmpty = true <;> simp [complete, alone] at states

theorem computeStatus_eq_exactStatus_iff :
    query.computeStatus unicode docs = query.exactStatus unicode docs ↔
      query.Unmistaken docs := by
  unfold computeStatus exactStatus Unmistaken
  dsimp only
  cases lying : docs.any query.lies with
  | true =>
      obtain ⟨doc, member, inside⟩ := List.any_eq_true.mp lying
      have listed := List.ne_nil_of_mem (mem_listByPrefix_of_lies member inside)
      have found : (!(listByPrefix docs query.root query.excludeUnder).isEmpty) = true := by
        simpa using listed
      rw [found, statusOf_found_inj, if_pos rfl]
      constructor
      · intro same file canonical has
        by_contra absent
        have missing : file ∈ query.tier.canonicalFiles.filter fun file =>
            !query.hasDirectly docs file :=
          List.mem_filter.mpr ⟨canonical, by simpa using absent⟩
        rw [← same] at missing
        have lacks := (List.mem_filter.mp missing).2
        rw [has] at lacks
        cases lacks
      · intro direct
        apply List.filter_congr
        intro file canonical
        congr 1
        apply Bool.eq_iff_iff.mpr
        exact ⟨direct file canonical, fun here => (hasFile_of_hasDirectly canonical here).2⟩
  | false =>
      rw [if_neg Bool.false_ne_true]
      cases listed : listByPrefix docs query.root query.excludeUnder with
      | nil => exact iff_of_true rfl rfl
      | cons first later =>
          apply iff_of_false
          · exact statusOf_found_ne
          · exact List.cons_ne_nil first later

/-- By the exact status a place is onboarded if each canonical file is directly in it. -/
theorem exactStatus_onboarded_iff :
    (query.exactStatus unicode docs).state = .onboarded ↔
      ∀ file ∈ query.tier.canonicalFiles, query.hasDirectly docs file = true := by
  have missing : (query.tier.canonicalFiles.filter fun file =>
      !query.hasDirectly docs file).isEmpty = true ↔
        ∀ file ∈ query.tier.canonicalFiles, query.hasDirectly docs file = true := by
    rw [List.isEmpty_iff, List.filter_eq_nil_iff]
    simp
  have some_file : ∃ file, file ∈ query.tier.canonicalFiles := by
    cases query.tier with
    | t3 => exact ⟨_, List.mem_cons_self⟩
    | t4 => exact ⟨_, List.mem_cons_self⟩
  obtain ⟨file, canonical⟩ := some_file
  unfold exactStatus statusOf
  dsimp only
  cases lying : docs.any query.lies with
  | true =>
      rw [if_pos rfl, ← missing]
      dsimp only
      split <;> rename_i complete <;> simp [complete]
  | false =>
      rw [if_neg Bool.false_ne_true]
      apply iff_of_false
      · split <;> simp
      · intro direct
        have inside := (hasFile_of_hasDirectly canonical (direct file canonical)).1
        cases lying.symm.trans inside

/-- The exact status is told by the documents in the directory and, if there are none, by the
candidates. -/
theorem exactStatus_congr {other : List IndexedDoc}
    (same : ∀ doc, query.lies doc = true → (doc ∈ docs ↔ doc ∈ other))
    (candidates : docs.any query.lies = true ∨
      detectRenameCandidate unicode query.remoteUrl docs query.tier =
        detectRenameCandidate unicode query.remoteUrl other query.tier) :
    query.exactStatus unicode docs = query.exactStatus unicode other := by
  have lying : docs.any query.lies = other.any query.lies := by
    apply Bool.eq_iff_iff.mpr
    rw [List.any_eq_true, List.any_eq_true]
    constructor
    · rintro ⟨doc, member, inside⟩
      exact ⟨doc, (same doc inside).mp member, inside⟩
    · rintro ⟨doc, member, inside⟩
      exact ⟨doc, (same doc inside).mpr member, inside⟩
  have direct : ∀ file ∈ query.tier.canonicalFiles,
      query.hasDirectly docs file = query.hasDirectly other file := by
    intro file canonical
    apply Bool.eq_iff_iff.mpr
    unfold hasDirectly
    rw [List.any_eq_true, List.any_eq_true]
    constructor
    · rintro ⟨doc, member, path⟩
      have inside := lies_of_direct canonical (of_decide_eq_true path)
      exact ⟨doc, (same doc inside).mp member, path⟩
    · rintro ⟨doc, member, path⟩
      have inside := lies_of_direct canonical (of_decide_eq_true path)
      exact ⟨doc, (same doc inside).mpr member, path⟩
  have missing : (query.tier.canonicalFiles.filter fun file => !query.hasDirectly docs file) =
      query.tier.canonicalFiles.filter fun file => !query.hasDirectly other file := by
    apply List.filter_congr
    intro file canonical
    rw [direct file canonical]
  unfold exactStatus
  rw [missing]
  rcases candidates with inside | agree
  · rw [← lying, inside]
    rfl
  · rw [lying, agree]

end OnboardingQuery

/-- The status is the exact one exactly if no document decides that is only like one in the
directory, or lies deeper.  By the exact status, a place is onboarded if and only if each
canonical file is directly in it; and the documents in the directory tell it, and only if there
are none those that have the remote URL. -/
theorem status_is_exact_iff (unicode : Unicode) (query : OnboardingQuery)
    (docs : List IndexedDoc) :
    (query.computeStatus unicode docs = query.exactStatus unicode docs ↔
        query.Unmistaken docs) ∧
      ((query.exactStatus unicode docs).state = .onboarded ↔
        ∀ file ∈ query.tier.canonicalFiles, query.hasDirectly docs file = true) ∧
      ∀ other, (∀ doc, query.lies doc = true → (doc ∈ docs ↔ doc ∈ other)) →
        (docs.any query.lies = true ∨
          detectRenameCandidate unicode query.remoteUrl docs query.tier =
            detectRenameCandidate unicode query.remoteUrl other query.tier) →
        query.exactStatus unicode docs = query.exactStatus unicode other := by
  refine ⟨OnboardingQuery.computeStatus_eq_exactStatus_iff,
    OnboardingQuery.exactStatus_onboarded_iff, ?_⟩
  intro other same candidates
  exact OnboardingQuery.exactStatus_congr same candidates

/-- A document of this path. -/
def docAt (path : String) (gitRemoteUrl : Option Text) : IndexedDoc :=
  ⟨path.toList, path.toList, "T3".toList, gitRemoteUrl⟩

/-- A question about a workspace. -/
def workspaceQuery (workspace : String) (remoteUrl : Option Text) : OnboardingQuery :=
  ⟨workspace.toList, none, remoteUrl, none⟩

/-- A document elsewhere that has the remote URL of an absent workspace makes it a rename
candidate.  The files of a workspace of a similar name, and files that lie deeper, make a
workspace onboarded. -/
theorem other_documents_decide :
    ((workspaceQuery "harbor" (some "git@x:y.git".toList)).computeStatus Unicode.ascii
        []).state = .absent ∧
      ((workspaceQuery "harbor" (some "git@x:y.git".toList)).computeStatus Unicode.ascii
        [docAt "projects/pier/README.md" (some "https://x/y".toList)]).state =
          .renameCandidate ∧
      ((workspaceQuery "my_ws" none).computeStatus Unicode.ascii
        [docAt "projects/myaws/README.md" none, docAt "projects/myaws/AGENTS.md" none]).state =
          .onboarded ∧
      ((workspaceQuery "harbor" none).computeStatus Unicode.ascii
        [docAt "projects/harbor/old/README.md" none,
          docAt "projects/harbor/AGENTS.md" none]).state = .onboarded := by
  refine ⟨rfl, ?_, ?_, ?_⟩
  · decide
  · decide
  · decide

end DataOlympus
