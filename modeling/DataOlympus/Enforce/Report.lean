import DataOlympus.Enforce.Classifier
import DataOlympus.Python.IntOf
import DataOlympus.Text.Listing
import DataOlympus.Text.Pieces

/-!
# The commits of the detection floor

The report reads the governed commits back from one text that `git log` writes, with a
record separator before each commit, unit separators in its header, and a NUL behind each
file name.  Of these three only the NUL cannot stand in a file name.
-/

namespace DataOlympus

open Lines

namespace Report

/-- `"\x1e"`. -/
def recordSeparator : Char :=
  Char.ofNat 0x1e

/-- `"\x1f"`. -/
def unitSeparator : Char :=
  Char.ofNat 0x1f

/-- `"\x00"`. -/
def nul : Char :=
  Char.ofNat 0

end Report

open Report

structure GovernedCommit where
  sha : Text
  ts : Int
  author : Text
  files : List Text
  deriving DecidableEq

namespace Report

variable (unicode : Unicode) (classifier : Classifier) (decimals : Decimals)

/-- `classifier.classify(action_path=f).is_governed_decision`. -/
def governs (file : Text) : Bool :=
  !(classifier.classify unicode [] (some file) []).isEmpty

/-- `[f for f in files_blob.split("\x00") if f.strip()]`. -/
def filesOf (filesBlob : Text) : List Text :=
  (filesBlob.splitOn nul).filter fun file => strip file ≠ []

/-- The loop body of `parse_governed_commits`. -/
def parseRecord (record : Text) : Option GovernedCommit :=
  if record.all fun c => c = nul || c = '\n' then none
  else
    match record.splitOn unitSeparator with
    | sha :: ts :: rest :: _ =>
        let author := (rest.takeWhile (· ≠ '\n')).rdropWhile (· = nul)
        let files := filesOf ((rest.dropWhile (· ≠ '\n')).drop 1)
        if files.any (governs unicode classifier) then some {
          sha := strip sha
          ts := (decimals.int (strip ts)).getD 0
          author := strip author
          files := files }
        else none
    | _ => none

/-- `parse_governed_commits(git_log_text, classifier)`. -/
def parseGovernedCommits (gitLogText : Text) : List GovernedCommit :=
  (gitLogText.splitOn recordSeparator).filterMap (parseRecord unicode classifier decimals)

end Report

/-- A character of the category Cc. -/
def isControlCharacter (c : Char) : Bool :=
  c.toNat < 0x20 || 0x7f ≤ c.toNat && c.toNat < 0xa0

/-- A commit that git has: the files are the names in the commit, in the order git lists
them. -/
structure LoggedCommit extends GovernedCommit where
  sha_hex : ∀ c ∈ sha, c ∈ "0123456789abcdef".toList
  author_plain : ∀ c ∈ author, isControlCharacter c = false
  files_stored : ∀ file ∈ files, file ≠ [] ∧ nul ∉ file

namespace LoggedCommit

/-- The names of the files, each with its NUL. -/
def listing (commit : LoggedCommit) : Text :=
  commit.files.flatMap fun file => file ++ [nul]

/-- What `git log --no-merges -z --format=%x1e%H%x1f%ct%x1f%an --name-only` writes for a
commit. -/
def render (commit : LoggedCommit) : Text :=
  recordSeparator :: (commit.sha ++ unitSeparator :: (intRepr commit.ts ++ unitSeparator ::
    (commit.author ++ nul :: if commit.files = [] then [] else '\n' :: commit.listing)))

end LoggedCommit

/-- The output of `git log`. -/
def gitLog (commits : List LoggedCommit) : Text :=
  commits.flatMap LoggedCommit.render

namespace Report

/-! ## What a file list can show -/

/-- A character that ends a field. -/
def isSeparator (c : Char) : Bool :=
  c = recordSeparator || c = unitSeparator

def Field (text : Text) : Prop :=
  ∀ c ∈ text, isSeparator c = false

/-- A governed name stands between the NULs. -/
def Shows (unicode : Unicode) (classifier : Classifier) (names : Text) : Prop :=
  ∃ file ∈ names.splitOn nul, strip file ≠ [] ∧ governs unicode classifier file = true

/-- Behind a record separator the text reads as a record with these names. -/
def Spells (text names : Text) : Prop :=
  ∃ before sha ts author after,
    text = before ++ recordSeparator :: (sha ++ unitSeparator :: (ts ++ unitSeparator ::
      (author ++ '\n' :: (names ++ after)))) ∧
    Field sha ∧ Field ts ∧ Field author ∧ '\n' ∉ author ∧ Field names ∧
      ∀ c ∈ after.head?, isSeparator c = true

end Report

/-- A commit that the decoding reads as it is: when it is governed, its names are free of
separators and not blank, and `strip` and `int` leave the rest of it; when it is not, no
governed name comes up where a name is cut short or behind a record separator in its
names. -/
structure LoggedCommit.Legible (unicode : Unicode) (classifier : Classifier)
    (commit : LoggedCommit) : Prop where
  clean : commit.files.any (governs unicode classifier) = true →
    (∀ file ∈ commit.files, Field file ∧ strip file ≠ []) ∧ strip commit.author = commit.author ∧
      Decimals.Printed commit.ts
  cut : commit.files.any (governs unicode classifier) = false →
    ¬Shows unicode classifier (commit.listing.takeWhile fun c => !isSeparator c)
  spelled : commit.files.any (governs unicode classifier) = false →
    ∀ names, Spells commit.listing names → ¬Shows unicode classifier names

namespace Report

variable {unicode : Unicode} {classifier : Classifier} {decimals : Decimals}
  {record sha ts rest names text : Text} {more : List Text} {commit : LoggedCommit}

/-! ## One record -/

theorem any_filesOf_iff :
    (filesOf names).any (governs unicode classifier) = true ↔ Shows unicode classifier names := by
  unfold filesOf Shows
  simp only [List.any_eq_true, List.mem_filter, decide_eq_true_eq, and_assoc]

/-- A record with three fields. -/
theorem parseRecord_of_split (split : record.splitOn unitSeparator = sha :: ts :: rest :: more) :
    parseRecord unicode classifier decimals record =
      if (filesOf ((rest.dropWhile (· ≠ '\n')).drop 1)).any (governs unicode classifier) then some {
        sha := strip sha
        ts := (decimals.int (strip ts)).getD 0
        author := strip ((rest.takeWhile (· ≠ '\n')).rdropWhile (· = nul))
        files := filesOf ((rest.dropWhile (· ≠ '\n')).drop 1) }
      else none := by
  have something : (record.all fun c => c = nul || c = '\n') = false := by
    rw [List.all_eq_false]
    refine ⟨unitSeparator, ?_, by decide⟩
    by_contra missing
    rw [List.splitOn_eq_singleton missing] at split
    cases split
  rw [parseRecord, something, split]
  rfl

/-- A record is kept when its three first fields show a governed name. -/
theorem parseRecord_isSome_iff : (parseRecord unicode classifier decimals record).isSome = true ↔
    ∃ sha ts rest more, record.splitOn unitSeparator = sha :: ts :: rest :: more ∧
      Shows unicode classifier ((rest.dropWhile (· ≠ '\n')).drop 1) := by
  constructor
  · intro kept
    have three : ∃ sha ts rest more, record.splitOn unitSeparator = sha :: ts :: rest :: more := by
      unfold parseRecord at kept
      split at kept
      · cases kept
      · split at kept
        · rename_i sha ts rest more split
          exact ⟨sha, ts, rest, more, split⟩
        · cases kept
    obtain ⟨sha, ts, rest, more, split⟩ := three
    rw [parseRecord_of_split split] at kept
    refine ⟨sha, ts, rest, more, split, ?_⟩
    rw [← any_filesOf_iff]
    by_contra nothing
    rw [if_neg nothing] at kept
    cases kept
  · rintro ⟨sha, ts, rest, more, split, shows_name⟩
    rw [parseRecord_of_split split, if_pos (any_filesOf_iff.mpr shows_name)]
    rfl

/-- What a record that is kept reads. -/
theorem of_parseRecord {found : GovernedCommit}
    (kept : parseRecord unicode classifier decimals record = some found) :
    (∃ author, found.author = strip author) ∧ Decimals.Printed found.ts ∧
      ∀ file ∈ found.files, unitSeparator ∉ file ∧ (∀ c ∈ file, c ∈ record) ∧ strip file ≠ [] := by
  obtain ⟨sha, ts, rest, more, split, shows_name⟩ :=
    parseRecord_isSome_iff.mp (Option.isSome_iff_exists.mpr ⟨found, kept⟩)
  rw [parseRecord_of_split split, if_pos (any_filesOf_iff.mpr shows_name)] at kept
  cases kept
  refine ⟨⟨_, rfl⟩, ?_, ?_⟩
  · dsimp only
    cases read : decimals.int (strip ts) with
    | none => decide
    | some n => exact Decimals.printed_of_int read
  · intro file member
    obtain ⟨piece, visible⟩ := List.mem_filter.mp member
    have third : rest ∈ record.splitOn unitSeparator := by
      rw [split]
      exact List.mem_cons_of_mem _ (List.mem_cons_of_mem _ List.mem_cons_self)
    have within : ∀ c ∈ file, c ∈ rest := by
      intro c among
      apply (List.dropWhile_sublist (· ≠ '\n')).subset
      apply (List.drop_sublist 1 _).subset
      exact mem_of_mem_splitOn piece among
    refine ⟨?_, fun c among => mem_of_mem_splitOn third (within c among),
      of_decide_eq_true visible⟩
    intro separator
    exact separator_not_mem_of_mem_splitOn third (within _ separator)

/-! ## The text of the log -/

theorem parseGovernedCommits_append (first rest : Text) :
    parseGovernedCommits unicode classifier decimals (first ++ recordSeparator :: rest) =
      parseGovernedCommits unicode classifier decimals first ++
        parseGovernedCommits unicode classifier decimals rest := by
  unfold parseGovernedCommits
  rw [List.splitOn_append_cons_self, List.filterMap_append]

/-- The commits are decoded one by one. -/
theorem parseGovernedCommits_gitLog (commits : List LoggedCommit) :
    parseGovernedCommits unicode classifier decimals (gitLog commits) =
      commits.flatMap fun commit =>
        parseGovernedCommits unicode classifier decimals commit.render := by
  have from_record : ∀ (commits : List LoggedCommit) (first : Text),
      parseGovernedCommits unicode classifier decimals (first ++ gitLog commits) =
        parseGovernedCommits unicode classifier decimals first ++
          parseGovernedCommits unicode classifier decimals (gitLog commits) := by
    intro commits first
    cases commits with
    | nil =>
        change parseGovernedCommits unicode classifier decimals (first ++ []) = _ ++ []
        rw [List.append_nil, List.append_nil]
    | cons commit commits =>
        have opens : gitLog (commit :: commits) =
            [] ++ recordSeparator :: (commit.render ++ gitLog commits).tail := rfl
        rw [opens, parseGovernedCommits_append [], List.nil_append, parseGovernedCommits_append]
        rfl
  induction commits with
  | nil => rfl
  | cons commit commits ih =>
      rw [List.flatMap_cons, ← ih, ← from_record]
      rfl

/-! ## The header of a commit -/

theorem not_mem_of_field (field : Field text) : recordSeparator ∉ text ∧ unitSeparator ∉ text := by
  constructor
  · intro member
    cases field _ member
  · intro member
    cases field _ member

theorem field_of_controls (plain : ∀ c ∈ text, isControlCharacter c = false) : Field text := by
  intro c member
  have shown := plain c member
  rw [isSeparator, Bool.or_eq_false_iff, decide_eq_false_iff_not, decide_eq_false_iff_not]
  constructor
  · rintro rfl
    cases shown
  · rintro rfl
    cases shown

theorem field_sha (commit : LoggedCommit) : Field commit.sha := by
  apply field_of_controls
  intro c member
  have plain : ("0123456789abcdef".toList.all fun c => !isControlCharacter c) = true := by decide
  simpa using List.all_eq_true.mp plain c (commit.sha_hex c member)

theorem strip_sha (commit : LoggedCommit) : strip commit.sha = commit.sha := by
  apply strip_of_visible
  intro c member
  have plain : ("0123456789abcdef".toList.all fun c => !isSpace c) = true := by decide
  simpa using List.all_eq_true.mp plain c (commit.sha_hex c member)

theorem intRepr_printable {n : Int} {c : Char} (member : c ∈ intRepr n) :
    isControlCharacter c = false ∧ isSpace c = false := by
  rcases Decimals.isDigit_of_mem_intRepr member with digit | rfl
  · have range : 48 ≤ c.toNat ∧ c.toNat ≤ 57 := Char.isDigit_iff_toNat.mp digit
    constructor
    · simp only [isControlCharacter, Bool.or_eq_false_iff, Bool.and_eq_false_iff,
        decide_eq_false_iff_not]
      omega
    · simp only [isSpace, List.mem_cons, List.not_mem_nil, or_false, decide_eq_false_iff_not]
      omega
  · exact ⟨by decide, by decide⟩

/-- The header of a commit is read back. -/
theorem parseRecord_header {tail : Text}
    (begun : (tail.takeWhile fun c => c ≠ unitSeparator) = '\n' :: names ∨
      (tail.takeWhile fun c => c ≠ unitSeparator) = [] ∧ names = []) :
    parseRecord unicode classifier decimals (commit.sha ++ unitSeparator ::
        (intRepr commit.ts ++ unitSeparator :: (commit.author ++ nul :: tail))) =
      if (filesOf names).any (governs unicode classifier) then some {
        sha := commit.sha
        ts := if Decimals.Printed commit.ts then commit.ts else 0
        author := strip commit.author
        files := filesOf names }
      else none := by
  have author := field_of_controls commit.author_plain
  have no_lf : ∀ c ∈ commit.author ++ [nul], c ≠ '\n' := by
    intro c member
    rcases List.mem_append.mp member with inside | last
    · rintro rfl
      cases commit.author_plain _ inside
    · rw [List.mem_singleton.mp last]
      decide
  obtain ⟨more, cut⟩ := exists_splitOn_eq_cons unitSeparator tail
  have third := splitOn_append_of_not_mem (commit.author ++ [nul]) (by
    rw [List.mem_append, not_or]
    exact ⟨(not_mem_of_field author).2, by decide⟩) cut
  have split : (commit.sha ++ unitSeparator :: (intRepr commit.ts ++ unitSeparator ::
      (commit.author ++ nul :: tail))).splitOn unitSeparator =
        commit.sha :: intRepr commit.ts :: (commit.author ++ [nul] ++
          tail.takeWhile fun c => c ≠ unitSeparator) :: more := by
    rw [List.splitOn_append_cons_self_of_not_mem (not_mem_of_field (field_sha commit)).2,
      List.splitOn_append_cons_self_of_not_mem, List.append_cons, third]
    exact (not_mem_of_field (field_of_controls fun c member => (intRepr_printable member).1)).2
  have stays : strip (intRepr commit.ts) = intRepr commit.ts :=
    strip_of_visible fun c member => (intRepr_printable member).2
  have read_ts : (decimals.int (intRepr commit.ts)).getD 0 =
      if Decimals.Printed commit.ts then commit.ts else 0 := by
    rw [Decimals.int_intRepr]
    split <;> rfl
  have kept : (commit.author ++ [nul]).rdropWhile (· = nul) = commit.author := by
    rw [List.rdropWhile_concat_pos _ _ _ (by decide), List.rdropWhile_eq_self_iff]
    intro nonempty last
    have same := of_decide_eq_true last
    have inside : nul ∈ commit.author := same ▸ List.getLast_mem nonempty
    cases commit.author_plain _ inside
  have parts : ((commit.author ++ [nul] ++ tail.takeWhile fun c => c ≠ unitSeparator).takeWhile
        (· ≠ '\n')).rdropWhile (· = nul) = commit.author ∧
      ((commit.author ++ [nul] ++ tail.takeWhile fun c => c ≠ unitSeparator).dropWhile
        (· ≠ '\n')).drop 1 = names := by
    have all_kept : ∀ c ∈ commit.author ++ [nul], decide (c ≠ '\n') = true :=
      fun c member => decide_eq_true (no_lf c member)
    rw [List.takeWhile_append_of_pos all_kept, List.dropWhile_append_of_pos all_kept]
    obtain lf | ⟨nothing, rfl⟩ := begun
    · rw [lf, List.takeWhile_cons_of_neg (by decide), List.append_nil, kept,
        List.dropWhile_cons_of_neg (by decide)]
      exact ⟨rfl, rfl⟩
    · rw [nothing, List.takeWhile_nil, List.append_nil, kept]
      exact ⟨rfl, rfl⟩
  rw [parseRecord_of_split split, parts.1, parts.2, strip_sha, stays, read_ts]

/-! ## A commit of the log -/

/-- What is read of a commit up to the first separator among its names. -/
def shown (unicode : Unicode) (classifier : Classifier) (commit : LoggedCommit) :
    Option GovernedCommit :=
  let files := filesOf (commit.listing.takeWhile fun c => !isSeparator c)
  if files.any (governs unicode classifier) then some {
    sha := commit.sha
    ts := if Decimals.Printed commit.ts then commit.ts else 0
    author := strip commit.author
    files := files }
  else none

theorem takeWhile_takeWhile_separator :
    ((text.takeWhile fun c => c ≠ recordSeparator).takeWhile fun c => c ≠ unitSeparator) =
      text.takeWhile fun c => !isSeparator c := by
  rw [List.takeWhile_takeWhile]
  congr 1
  funext c
  simp [isSeparator, Bool.and_comm]

/-- The record of a commit, and the records behind the separators among its names. -/
theorem parseGovernedCommits_render (commit : LoggedCommit) :
    parseGovernedCommits unicode classifier decimals commit.render =
      (shown unicode classifier commit).toList ++
        (commit.listing.splitOn recordSeparator).tail.filterMap
          (parseRecord unicode classifier decimals) := by
  have opens (body : Text) :
      parseGovernedCommits unicode classifier decimals (recordSeparator :: body) =
        (body.splitOn recordSeparator).filterMap (parseRecord unicode classifier decimals) :=
    parseGovernedCommits_append [] body
  have clean : recordSeparator ∉ commit.sha ++ unitSeparator :: (intRepr commit.ts ++
      unitSeparator :: (commit.author ++ [nul])) := by
    have sha := (not_mem_of_field (field_sha commit)).1
    have author := (not_mem_of_field (field_of_controls commit.author_plain)).1
    have ts := (not_mem_of_field (field_of_controls fun c member =>
      (intRepr_printable (n := commit.ts) member).1)).1
    simp only [List.mem_append, List.mem_cons, List.not_mem_nil, sha, author, ts, or_false,
      false_or]
    decide
  by_cases empty : commit.files = []
  · have nothing : commit.listing = [] := by
      rw [LoggedCommit.listing, empty, List.flatMap_nil]
    have unread : parseRecord unicode classifier decimals (commit.sha ++ unitSeparator ::
        (intRepr commit.ts ++ unitSeparator :: (commit.author ++ [nul]))) = none :=
      parseRecord_header (.inr ⟨rfl, rfl⟩)
    have unshown : shown unicode classifier commit = none := by
      rw [shown, nothing]
      rfl
    rw [LoggedCommit.render, if_pos empty, opens, List.splitOn_eq_singleton clean, unshown, nothing,
      List.filterMap_cons_none unread]
    rfl
  · obtain ⟨more, cut⟩ := exists_splitOn_eq_cons recordSeparator commit.listing
    have read : parseRecord unicode classifier decimals (commit.sha ++ unitSeparator ::
        (intRepr commit.ts ++ unitSeparator :: (commit.author ++ nul :: '\n' ::
          commit.listing.takeWhile fun c => c ≠ recordSeparator))) =
            shown unicode classifier commit := by
      apply parseRecord_header
      left
      rw [List.takeWhile_cons_of_pos (by decide), takeWhile_takeWhile_separator]
    have split := splitOn_append_of_not_mem (commit.sha ++ unitSeparator ::
      (intRepr commit.ts ++ unitSeparator :: (commit.author ++ [nul])) ++ ['\n']) (by
        rw [List.mem_append, not_or]
        exact ⟨clean, by decide⟩) cut
    simp only [List.append_assoc, List.cons_append, List.nil_append] at split
    rw [LoggedCommit.render, if_neg empty, opens, split, cut, List.tail_cons, List.filterMap_cons,
      read]
    cases shown unicode classifier commit with
    | none => rfl
    | some found => rfl

/-- A listing without separators is read as its names. -/
theorem filesOf_listing (clean : ∀ file ∈ commit.files, Field file ∧ strip file ≠ []) :
    (commit.listing.takeWhile fun c => !isSeparator c) = commit.listing ∧
      filesOf commit.listing = commit.files := by
  constructor
  · rw [List.takeWhile_eq_self_iff]
    intro c member
    obtain ⟨file, among, member⟩ := List.mem_flatMap.mp member
    rcases List.mem_append.mp member with inside | last
    · rw [(clean file among).1 c inside, Bool.not_false]
    · rw [List.mem_singleton.mp last]
      decide
  · rw [filesOf, LoggedCommit.listing,
      splitOn_flatMap_concat fun file member => (commit.files_stored file member).2,
      List.filter_append, List.filter_eq_self.mpr]
    · exact List.append_nil _
    · intro file member
      exact decide_eq_true (clean file member).2

theorem splitOn_listing_of_clean (clean : ∀ file ∈ commit.files, Field file ∧ strip file ≠ []) :
    commit.listing.splitOn recordSeparator = [commit.listing] := by
  apply List.splitOn_eq_singleton
  rw [← (filesOf_listing clean).1]
  intro member
  cases List.mem_takeWhile_imp member

/-- A commit with clean names is read as it is. -/
theorem parseGovernedCommits_of_clean
    (clean : ∀ file ∈ commit.files, Field file ∧ strip file ≠ [])
    (author : strip commit.author = commit.author) (ts : Decimals.Printed commit.ts) :
    parseGovernedCommits unicode classifier decimals commit.render =
      if commit.files.any (governs unicode classifier) then [commit.toGovernedCommit] else [] := by
  obtain ⟨whole, files⟩ := filesOf_listing clean
  rw [parseGovernedCommits_render, splitOn_listing_of_clean clean, shown, whole, files, author,
    if_pos ts]
  split <;> rfl

theorem not_shows_nil : ¬Shows unicode classifier [] := by
  rintro ⟨file, member, visible, _⟩
  rw [List.splitOn_nil, List.mem_singleton] at member
  apply visible
  rw [member]
  rfl

/-- Names are shown only behind a line feed. -/
theorem exists_of_shows (shows_name : Shows unicode classifier
    ((rest.dropWhile (· ≠ '\n')).drop 1)) :
    ∃ author names, rest = author ++ '\n' :: names ∧ '\n' ∉ author ∧
      Shows unicode classifier names := by
  have parts : rest.takeWhile (· ≠ '\n') ++ rest.dropWhile (· ≠ '\n') = rest :=
    List.takeWhile_append_dropWhile
  obtain behind | ⟨names, behind⟩ := endsAt_dropWhile '\n' rest
  · rw [behind] at shows_name
    exact absurd shows_name not_shows_nil
  · rw [behind] at shows_name parts
    exact ⟨_, names, parts.symm, not_mem_takeWhile_ne, shows_name⟩

theorem shows_behind {author : Text} (no_lf : '\n' ∉ author) :
    ((author ++ '\n' :: names).dropWhile (· ≠ '\n')).drop 1 = names := by
  have all_kept : ∀ c ∈ author, decide (c ≠ '\n') = true := by
    intro c member
    apply decide_eq_true
    rintro rfl
    exact no_lf member
  rw [List.dropWhile_append_of_pos all_kept, List.dropWhile_cons_of_neg (by decide), List.drop_one,
    List.tail_cons]

/-- Three fields of a record. -/
theorem splitOn_three_iff :
    (∃ more, record.splitOn unitSeparator = sha :: ts :: rest :: more) ↔
      unitSeparator ∉ sha ∧ unitSeparator ∉ ts ∧ unitSeparator ∉ rest ∧ ∃ after,
        record = sha ++ unitSeparator :: (ts ++ unitSeparator :: (rest ++ after)) ∧
          EndsAt unitSeparator after := by
  constructor
  · rintro ⟨more, split⟩
    obtain ⟨first, ⟨_, none_left⟩ | ⟨behind, rfl, others⟩⟩ := splitOn_eq_cons_iff.mp split
    · cases none_left
    · obtain ⟨second, ⟨_, none_left⟩ | ⟨last, rfl, behind⟩⟩ := splitOn_eq_cons_iff.mp others.symm
      · cases none_left
      · obtain ⟨third, after, rfl, ends⟩ := head?_splitOn_iff.mp (by
          rw [← behind, List.head?_cons] :
            (last.splitOn unitSeparator).head? = some rest)
        exact ⟨first, second, third, after, rfl, ends⟩
  · rintro ⟨first, second, third, after, rfl, ends⟩
    have leads := head?_splitOn_iff.mpr ⟨third, after, rfl, ends⟩
    obtain ⟨more, others⟩ := List.head?_eq_some_iff.mp leads
    refine ⟨more, ?_⟩
    rw [List.splitOn_append_cons_self_of_not_mem first,
      List.splitOn_append_cons_self_of_not_mem second, others]

theorem field_iff : Field text ↔ recordSeparator ∉ text ∧ unitSeparator ∉ text := by
  refine ⟨not_mem_of_field, ?_⟩
  rintro ⟨no_record, no_unit⟩ c member
  rw [isSeparator, Bool.or_eq_false_iff, decide_eq_false_iff_not, decide_eq_false_iff_not]
  constructor
  · rintro rfl
    exact no_record member
  · rintro rfl
    exact no_unit member

/-- Where a record is kept behind a separator in the listing, the listing spells it. -/
theorem exists_piece_iff : (∃ piece ∈ (text.splitOn recordSeparator).tail,
      (parseRecord unicode classifier decimals piece).isSome = true) ↔
    ∃ names, Spells text names ∧ Shows unicode classifier names := by
  constructor
  · rintro ⟨piece, member, kept⟩
    obtain ⟨whole, before, after, rfl, ends⟩ := mem_tail_splitOn_iff.mp member
    obtain ⟨sha, ts, rest, more, split, shows_name⟩ := parseRecord_isSome_iff.mp kept
    obtain ⟨sha_field, ts_field, rest_field, tail, rfl, stops⟩ := splitOn_three_iff.mp ⟨more, split⟩
    obtain ⟨author, names, rfl, no_lf, shows_name⟩ := exists_of_shows shows_name
    refine ⟨names, ⟨before, sha, ts, author, tail ++ after, by simp, ?_⟩, shows_name⟩
    simp only [List.mem_append, List.mem_cons, not_or] at whole rest_field
    simp only [field_iff]
    obtain ⟨whole_sha, _, whole_ts, _, ⟨whole_author, _, whole_names⟩, whole_tail⟩ := whole
    refine ⟨⟨whole_sha, sha_field⟩, ⟨whole_ts, ts_field⟩, ⟨whole_author, rest_field.1⟩, no_lf,
      ⟨whole_names, rest_field.2.2⟩, ?_⟩
    intro c member
    obtain rfl | ⟨_, rfl⟩ := stops
    · obtain rfl | ⟨_, rfl⟩ := ends
      · cases member
      · cases member
        rfl
    · cases member
      rfl
  · rintro ⟨names, ⟨before, sha, ts, author, after, rfl, sha_field, ts_field, author_field, no_lf,
      names_field, stops⟩, shows_name⟩
    rw [field_iff] at sha_field ts_field author_field names_field
    have parts : after.takeWhile (· ≠ recordSeparator) ++ after.dropWhile (· ≠ recordSeparator) =
        after := List.takeWhile_append_dropWhile
    refine ⟨sha ++ unitSeparator :: (ts ++ unitSeparator :: (author ++ '\n' :: (names ++
      after.takeWhile (· ≠ recordSeparator)))), ?_, ?_⟩
    · rw [mem_tail_splitOn_iff]
      refine ⟨?_, before, after.dropWhile (· ≠ recordSeparator), by simp, ?_⟩
      · have no_record : recordSeparator ∉ after.takeWhile (· ≠ recordSeparator) := by
          exact not_mem_takeWhile_ne
        simp only [List.mem_append, List.mem_cons, not_or]
        exact ⟨sha_field.1, by decide, ts_field.1, by decide, author_field.1, by decide,
          names_field.1, no_record⟩
      · exact endsAt_dropWhile _ _
    · rw [parseRecord_isSome_iff]
      have rest_field : unitSeparator ∉ author ++ '\n' :: names := by
        rw [List.mem_append, List.mem_cons, not_or, not_or]
        exact ⟨author_field.2, by decide, names_field.2⟩
      have ends : EndsAt unitSeparator (after.takeWhile (· ≠ recordSeparator)) := by
        cases after with
        | nil => exact .inl rfl
        | cons c after =>
            by_cases record : c = recordSeparator
            · exact .inl (List.takeWhile_cons_of_neg (by simpa using record))
            · have unit : c = unitSeparator := by
                have separates := stops c rfl
                rw [isSeparator, Bool.or_eq_true, decide_eq_true_eq, decide_eq_true_eq] at separates
                exact separates.resolve_left record
              rw [List.takeWhile_cons_of_pos (by simpa using record), unit]
              exact .inr ⟨_, rfl⟩
      obtain ⟨more, split⟩ := splitOn_three_iff.mpr
        ⟨sha_field.2, ts_field.2, rest_field, _, rfl, ends⟩
      rw [List.append_assoc, List.cons_append] at split
      refine ⟨sha, ts, author ++ '\n' :: names, more, split, ?_⟩
      rwa [shows_behind no_lf]

/-- What is decoded has trimmed authors, printed times, and names without separators. -/
theorem of_mem_parseGovernedCommits {found : GovernedCommit}
    (member : found ∈ parseGovernedCommits unicode classifier decimals text) :
    strip found.author = found.author ∧ Decimals.Printed found.ts ∧
      ∀ file ∈ found.files, Field file ∧ strip file ≠ [] := by
  obtain ⟨record, among, kept⟩ := List.mem_filterMap.mp member
  obtain ⟨⟨author, trimmed⟩, ts, files⟩ := of_parseRecord kept
  rw [trimmed, strip_strip]
  refine ⟨rfl, ts, fun file listed => ?_⟩
  obtain ⟨no_unit, within, visible⟩ := files file listed
  refine ⟨field_iff.mpr ⟨?_, no_unit⟩, visible⟩
  intro separator
  exact separator_not_mem_of_mem_splitOn among (within _ separator)

/-- A commit of which nothing is decoded. -/
theorem parseGovernedCommits_render_eq_nil_iff :
    parseGovernedCommits unicode classifier decimals commit.render = [] ↔
      ¬Shows unicode classifier (commit.listing.takeWhile fun c => !isSeparator c) ∧
        ∀ names, Spells commit.listing names → ¬Shows unicode classifier names := by
  have unshown : (shown unicode classifier commit).toList = [] ↔
      ¬Shows unicode classifier (commit.listing.takeWhile fun c => !isSeparator c) := by
    rw [shown, ← any_filesOf_iff]
    split <;> simp [*]
  have unspelled : (commit.listing.splitOn recordSeparator).tail.filterMap
      (parseRecord unicode classifier decimals) = [] ↔
        ∀ names, Spells commit.listing names → ¬Shows unicode classifier names := by
    have pieces := @exists_piece_iff unicode classifier decimals commit.listing
    simp only [Option.isSome_iff_ne_none] at pieces
    rw [List.filterMap_eq_nil_iff, ← not_iff_not]
    push Not
    exact pieces
  rw [parseGovernedCommits_render, List.append_eq_nil_iff, unshown, unspelled]

/-- The commits with a governed file, as they were logged. -/
def governedOf (unicode : Unicode) (classifier : Classifier) (commits : List LoggedCommit) :
    List GovernedCommit :=
  (commits.map LoggedCommit.toGovernedCommit).filter fun commit =>
    commit.files.any (governs unicode classifier)

theorem governedOf_eq_flatMap (commits : List LoggedCommit) :
    governedOf unicode classifier commits = commits.flatMap fun commit =>
      if commit.files.any (governs unicode classifier) then [commit.toGovernedCommit] else [] := by
  induction commits with
  | nil => rfl
  | cons commit commits ih =>
      rw [List.flatMap_cons, ← ih, governedOf, List.map_cons, List.filter_cons]
      split <;> rfl

/-- The decoding of a log gives its governed commits back exactly where every commit is
legible. -/
theorem parseGovernedCommits_gitLog_iff (commits : List LoggedCommit) :
    parseGovernedCommits unicode classifier decimals (gitLog commits) =
        governedOf unicode classifier commits ↔
      ∀ commit ∈ commits, commit.Legible unicode classifier := by
  constructor
  · intro same
    have clean : ∀ commit ∈ commits, commit.files.any (governs unicode classifier) = true →
        strip commit.author = commit.author ∧ Decimals.Printed commit.ts ∧
          ∀ file ∈ commit.files, Field file ∧ strip file ≠ [] := by
      intro commit member governed
      have decoded : commit.toGovernedCommit ∈
          parseGovernedCommits unicode classifier decimals (gitLog commits) := by
        rw [same]
        exact List.mem_filter.mpr ⟨List.mem_map_of_mem member, governed⟩
      exact of_mem_parseGovernedCommits decoded
    -- A governed commit is read as itself, so no other commit can be read at all.
    have below : ∀ commit ∈ commits,
        (if commit.files.any (governs unicode classifier) then [commit.toGovernedCommit]
          else []).length ≤
        (parseGovernedCommits unicode classifier decimals commit.render).length := by
      intro commit member
      cases governed : commit.files.any (governs unicode classifier) with
      | true =>
          obtain ⟨author, ts, files⟩ := clean commit member governed
          rw [parseGovernedCommits_of_clean files author ts, governed]
      | false => exact Nat.zero_le _
    have total := congrArg List.length same
    rw [parseGovernedCommits_gitLog, governedOf_eq_flatMap, List.length_flatMap,
      List.length_flatMap] at total
    have lengths := eq_of_sum_eq below total.symm
    intro commit member
    refine ⟨fun governed => ?_, fun ungoverned => ?_, fun ungoverned => ?_⟩
    · obtain ⟨author, ts, files⟩ := clean commit member governed
      exact ⟨files, author, ts⟩
    all_goals
      have nothing := lengths commit member
      rw [ungoverned] at nothing
      have read := parseGovernedCommits_render_eq_nil_iff.mp
        (List.eq_nil_of_length_eq_zero nothing.symm)
    · exact read.1
    · exact read.2
  · intro legible
    rw [parseGovernedCommits_gitLog, governedOf_eq_flatMap]
    apply List.flatMap_congr
    intro commit member
    obtain ⟨clean, cut, spelled⟩ := legible commit member
    cases governed : commit.files.any (governs unicode classifier) with
    | true =>
        obtain ⟨files, author, ts⟩ := clean governed
        rw [parseGovernedCommits_of_clean files author ts, governed]
    | false =>
        rw [parseGovernedCommits_render_eq_nil_iff.mpr ⟨cut governed, spelled governed⟩]
        rfl

/-- A commit of a file with a unit separator in its name, and of a `Dockerfile`. -/
def maskedCommit : LoggedCommit where
  sha := "5fe3".toList
  ts := 1000
  author := "Dev".toList
  files := [['a', unitSeparator], "Dockerfile".toList]
  sha_hex := by
    intro c member
    have hex : ("5fe3".toList.all fun c => c ∈ "0123456789abcdef".toList) = true := by decide
    exact of_decide_eq_true (List.all_eq_true.mp hex c member)
  author_plain := by
    intro c member
    have plain : ("Dev".toList.all fun c => !isControlCharacter c) = true := by decide
    simpa using List.all_eq_true.mp plain c member
  files_stored := by decide

/-- The name with the separator hides the governed file, and the commit with it. -/
theorem masked_commit_is_not_reported :
    ¬∀ commits, parseGovernedCommits .ascii (.fromConfig .ascii ⟨[], [], []⟩) .ascii
        (gitLog commits) = governedOf .ascii (.fromConfig .ascii ⟨[], [], []⟩) commits := by
  intro exact_for_all
  have hidden : parseGovernedCommits .ascii (.fromConfig .ascii ⟨[], [], []⟩) .ascii
      (gitLog [maskedCommit]) = [] := by decide +kernel
  have governed : governedOf .ascii (.fromConfig .ascii ⟨[], [], []⟩) [maskedCommit] =
      [maskedCommit.toGovernedCommit] := by decide +kernel
  have claimed := exact_for_all [maskedCommit]
  rw [hidden, governed] at claimed
  cases claimed

end Report

end DataOlympus
