import DataOlympus.Control.Except
import DataOlympus.Version.Candidate

/-!
# Successive candidates

Two candidates of one cut: the head of the second is ahead of the head of the first.  The
number of commits grows, the greatest impact does not fall, and the base is the same, so
that the second candidate is the later version in both orders.
-/

namespace DataOlympus.Version

open Lines Git

variable {library : Library} {git later : Repository} {args : Arguments} {tag text : Text}
  {numbers : Nat × Nat × Nat}

theorem require_eq_ok_iff {condition : Bool} {code : VersionErrorCode} {message : Text}
    {done : Unit} : require condition code message = .ok done ↔ condition = true := by
  cases condition with
  | true => exact iff_of_true rfl rfl
  | false =>
      apply iff_of_false _ Bool.false_ne_true
      intro impossible
      cases impossible

theorem elim_eq_ok_iff {α : Type} {found : Option α} {failure : Failure} {value : α} :
    found.elim (.error failure) .ok = Except.ok value ↔ found = some value := by
  cases found with
  | none =>
      apply iff_of_false
      · intro impossible
        cases impossible
      · intro impossible
        cases impossible
  | some other =>
      change Except.ok other = Except.ok value ↔ _
      rw [Except.ok.injEq, Option.some.injEq]

/-! ## The repository grows -/

/-- Further commits, with the tags left alone. -/
structure Repository.Grows (git later : Repository) : Prop where
  commits : git.commits <+: later.commits
  tags : later.tags = git.tags

namespace Repository.Grows

theorem parents (grown : git.Grows later) : git.graph.parents <+: later.graph.parents := by
  obtain ⟨more, glued⟩ := grown.commits
  refine ⟨more.map HistoryCommit.parents, ?_⟩
  change git.commits.map _ ++ _ = later.commits.map _
  rw [← glued, List.map_append]

theorem getElem? (grown : git.Grows later) {commit : Nat} (known : commit < git.commits.length) :
    later.commits[commit]? = git.commits[commit]? := by
  obtain ⟨more, glued⟩ := grown.commits
  rw [← glued, List.getElem?_append_left known]

theorem file (grown : git.Grows later) {commit : Nat} (known : commit < git.commits.length)
    (path : String) : later.file commit path = git.file commit path := by
  unfold Repository.file
  rw [grown.getElem? known]

end Repository.Grows

theorem Repository.length_parents (git : Repository) :
    git.graph.parents.length = git.commits.length :=
  List.length_map _

/-- The messages behind a head are among those behind a later head. -/
theorem messages_subset (grown : git.Grows later) {start head ahead : Nat}
    (start_known : start < git.commits.length) (head_known : head < git.commits.length)
    (path : later.graph.Reaches ahead head) :
    git.messages start head ⊆ later.messages start ahead := by
  rw [← git.length_parents] at start_known head_known
  intro message member
  obtain ⟨commit, among, found⟩ := List.mem_filterMap.mp member
  have known := (CommitGraph.mem_revList.mp among).1
  rw [git.length_parents] at known
  apply List.mem_filterMap.mpr
  refine ⟨commit, CommitGraph.revList_subset grown.parents start_known head_known path among, ?_⟩
  rwa [grown.getElem? known]

/-! ## The greatest impact -/

theorem impact_le {message : Text} {found : Nat} (read : impact message = .ok found) :
    found ≤ 3 := by
  unfold impact at read
  dsimp only at read
  split_ifs at read
  all_goals
    cases read
    decide

/-- The loop ends with the greatest impact. -/
theorem highestImpact_spec {hotfix : Bool} {start highest : Nat} {messages : List Text}
    (done : highestImpact hotfix start messages = .ok highest) :
    start ≤ highest ∧
      (∀ message ∈ messages, ∃ found, impact message = .ok found ∧ found ≤ highest ∧
        (hotfix = true → found ≤ 1)) ∧
      (highest = start ∨ ∃ message ∈ messages, impact message = .ok highest) := by
  induction messages generalizing start with
  | nil =>
      cases done
      exact ⟨le_rfl, List.forall_mem_nil _, .inl rfl⟩
  | cons message messages ih =>
      rw [highestImpact] at done
      obtain ⟨found, read, done⟩ := Except.bind_eq_ok_iff.mp done
      obtain ⟨_, checked, done⟩ := Except.bind_eq_ok_iff.mp done
      rw [require_eq_ok_iff] at checked
      obtain ⟨bound, others, reached⟩ := ih done
      refine ⟨(Nat.le_max_left _ _).trans bound, ?_, ?_⟩
      · rw [List.forall_mem_cons]
        refine ⟨⟨found, read, (Nat.le_max_right _ _).trans bound, ?_⟩, others⟩
        rintro rfl
        simpa using checked
      · obtain same | ⟨other, among, last⟩ := reached
        · obtain left | right := Nat.le_total start found
          · rw [Nat.max_eq_right left] at same
            exact .inr ⟨message, List.mem_cons_self, same ▸ read⟩
          · rw [Nat.max_eq_left right] at same
            exact .inl same
        · exact .inr ⟨other, List.mem_cons_of_mem _ among, last⟩

/-- More messages have no smaller impact. -/
theorem highestImpact_le {hotfix more : Bool} {first second : Nat} {messages others : List Text}
    (old : highestImpact hotfix 0 messages = .ok first)
    (new : highestImpact more 0 others = .ok second) (within : messages ⊆ others) :
    first ≤ second := by
  obtain rfl | ⟨message, among, read⟩ := (highestImpact_spec old).2.2
  · exact Nat.zero_le _
  · obtain ⟨found, again, bound, _⟩ := (highestImpact_spec new).2.1 message (within among)
    rw [read] at again
    cases again
    exact bound

theorem highestImpact_le_three {hotfix : Bool} {highest : Nat} {messages : List Text}
    (done : highestImpact hotfix 0 messages = .ok highest) : highest ≤ 3 := by
  obtain rfl | ⟨message, _, read⟩ := (highestImpact_spec done).2.2
  · decide
  · exact impact_le read

theorem highestImpact_le_one {highest : Nat} {messages : List Text}
    (done : highestImpact true 0 messages = .ok highest) : highest ≤ 1 := by
  obtain rfl | ⟨message, among, read⟩ := (highestImpact_spec done).2.2
  · decide
  · obtain ⟨found, again, _, fix⟩ := (highestImpact_spec done).2.1 message among
    rw [read] at again
    cases again
    exact fix rfl

/-! ## The target -/

theorem coreLt_bump (ga : Bool) (highest : Nat) (numbers : Nat × Nat × Nat) :
    SemVer.CoreLt numbers (bump ga highest numbers) := by
  obtain ⟨major, minor, patch⟩ := numbers
  rw [bump]
  split_ifs with general breaking positive feature
  · exact .inl (by omega : major < 1)
  · exact .inl (Nat.lt_succ_self major)
  · exact .inr ⟨by omega, .inl (Nat.lt_succ_self minor)⟩
  · exact .inr ⟨rfl, .inl (Nat.lt_succ_self minor)⟩
  · exact .inr ⟨rfl, .inr ⟨rfl, Nat.lt_succ_self patch⟩⟩

/-- A greater impact or an approval does not lower the target. -/
theorem bump_le {ga approved : Bool} {first second : Nat} (persists : ga = true → approved = true)
    (greater : first ≤ second) (bound : second ≤ 3) (numbers : Nat × Nat × Nat) :
    bump ga first numbers = bump approved second numbers ∨
      SemVer.CoreLt (bump ga first numbers) (bump approved second numbers) := by
  obtain ⟨major, minor, patch⟩ := numbers
  rw [bump, bump]
  unfold SemVer.CoreLt
  split_ifs
  all_goals
    grind

theorem bump_of_le_one {highest : Nat} (fixes : highest ≤ 1) (major minor patch : Nat) :
    bump false highest (major, minor, patch) = (major, minor, patch + 1) := by
  rw [bump, if_neg (by simp), if_neg (by omega), if_neg (by omega)]

theorem printed_eq_ok {n : Nat} (done : printed n = .ok text) : text = number n := by
  unfold printed at done
  split at done
  · cases done
    rfl
  · cases done

/-- A target is read as its numbers. -/
theorem readCore_of_printTarget (done : printTarget numbers = .ok text) :
    SemVer.readCore text = some numbers := by
  obtain ⟨major, minor, patch⟩ := numbers
  unfold printTarget at done
  obtain ⟨first, major_text, done⟩ := Except.bind_eq_ok_iff.mp done
  obtain ⟨second, minor_text, done⟩ := Except.bind_eq_ok_iff.mp done
  obtain ⟨third, patch_text, done⟩ := Except.bind_eq_ok_iff.mp done
  cases done
  rw [printed_eq_ok major_text, printed_eq_ok minor_text, printed_eq_ok patch_text]
  exact SemVer.readCore_eq_some_iff.mpr ⟨_, _, _, rfl, readNumber_number _, readNumber_number _,
    readNumber_number _⟩

theorem readCore_of_version (done : version tag = .ok numbers) :
    SemVer.readCore (tag.drop 1) = some numbers := by
  unfold version at done
  split at done
  · rename_i found read
    split at done
    · cases done
      exact read
    · cases done
  · cases done

/-! ## The base -/

/-- The base that the adoption record of a cut names. -/
def recordedBase (library : Library) (git : Repository) (cut : Nat) : Option Text :=
  (git.file cut adoptionPath).bind fun raw => (library.json.loads raw).bind recordedTag

/-- An adoption that is accepted has the base of its record. -/
theorem adoptionBase_eq {cut : Nat} {tags everyTag : List Text} {base : Option Text}
    (done : adoptionBase library git cut tags everyTag = .ok base) :
    base = recordedBase library git cut := by
  unfold adoptionBase at done
  unfold recordedBase
  cases raw : git.file cut adoptionPath with
  | none =>
      rw [raw] at done
      cases done
      rfl
  | some text =>
      rw [raw] at done
      dsimp only at done
      obtain ⟨_, _, done⟩ := Except.bind_eq_ok_iff.mp done
      obtain ⟨record, read, done⟩ := Except.bind_eq_ok_iff.mp done
      rw [Option.bind_some, elim_eq_ok_iff.mp read, Option.bind_some]
      split at done
      · rename_i name tag _ named
        rw [named]
        obtain ⟨_, _, done⟩ := Except.bind_eq_ok_iff.mp done
        obtain ⟨_, _, done⟩ := Except.bind_eq_ok_iff.mp done
        obtain ⟨_, _, done⟩ := Except.bind_eq_ok_iff.mp done
        obtain ⟨_, _, done⟩ := Except.bind_eq_ok_iff.mp done
        obtain ⟨_, _, done⟩ := Except.bind_eq_ok_iff.mp done
        obtain ⟨_, _, done⟩ := Except.bind_eq_ok_iff.mp done
        obtain ⟨_, _, done⟩ := Except.bind_eq_ok_iff.mp done
        obtain ⟨_, _, done⟩ := Except.bind_eq_ok_iff.mp done
        obtain ⟨_, _, done⟩ := Except.bind_eq_ok_iff.mp done
        exact (Except.ok.inj done).symm
      · cases done

/-- The base and whether it is adopted depend on the tags and the files of the cut. -/
theorem findBase_spec {cut : Nat} {base : Option Text} {adoption : Bool}
    (done : findBase library git args cut = .ok (base, adoption)) :
    base = (stableAt git cut).head?.or (recordedBase library git cut) ∧
      adoption = (base.isSome && (stableAt git cut).isEmpty) ∧
      (args.isHotfix = true → stableAt git cut ≠ []) := by
  unfold findBase at done
  obtain ⟨_, _, done⟩ := Except.bind_eq_ok_iff.mp done
  obtain ⟨_, _, done⟩ := Except.bind_eq_ok_iff.mp done
  obtain ⟨_, _, done⟩ := Except.bind_eq_ok_iff.mp done
  obtain ⟨found, known, done⟩ := Except.bind_eq_ok_iff.mp done
  obtain ⟨_, checked, done⟩ := Except.bind_eq_ok_iff.mp done
  cases done
  have tagged : args.isHotfix = true → stableAt git cut ≠ [] := by
    intro hotfix
    unfold checkHotfixScope at checked
    rw [if_pos hotfix] at checked
    obtain ⟨_, nonempty, _⟩ := Except.bind_eq_ok_iff.mp checked
    rwa [require_eq_ok_iff, Bool.not_eq_true', List.isEmpty_eq_false_iff] at nonempty
  refine ⟨?_, rfl, tagged⟩
  cases stable : stableAt git cut with
  | nil =>
      rw [stable] at known
      exact adoptionBase_eq known
  | cons tag rest =>
      rw [stable] at known
      exact (Except.ok.inj known).symm

/-! ## What a run returns -/

/-- The words in front of the number of a candidate. -/
def words (hotfix : Bool) : List Identifier :=
  if hotfix then [.word "hotfix".toList, .word "rc".toList] else [.word "rc".toList]

/-- The parts of a run that returns. -/
structure Returned (library : Library) (git : Repository) (args : Arguments) (result : Result)
    (ga : Bool) (start highest : Nat) : Prop where
  head_known : result.H < git.commits.length
  cut_known : result.B < git.commits.length
  based : git.graph.Reaches result.H result.B
  base : result.base = (stableAt git result.B).head?.or (recordedBase library git result.B)
  hotfix : args.isHotfix = true → stableAt git result.B ≠ []
  approved : gaDecision git args result.H = .ok ga
  started : startOf git result.B (result.base.isSome && (stableAt git result.B).isEmpty)
    result.base = .ok start
  greatest : highestImpact args.isHotfix 0 (git.messages start result.H) = .ok highest
  target : targetOf git args result.B ga highest result.base = .ok result.target
  count : result.N = (git.graph.revList result.B result.H).length
  candidate : result.candidate = result.target ++ '-' ::
    ((if args.isHotfix then "hotfix.rc".toList else "rc".toList) ++ '.' :: number result.N)
  pypiVersion : result.pypiVersion = result.target ++
    ((if args.isHotfix then ".dev".toList else "rc".toList) ++ number result.N)

theorem freezeRefs_spec {head main : Text} {h m b : Nat}
    (done : freezeRefs git args head main = .ok (h, m, b)) :
    h < git.commits.length ∧ b < git.commits.length ∧ git.graph.Reaches h b := by
  unfold freezeRefs at done
  obtain ⟨_, _, done⟩ := Except.bind_eq_ok_iff.mp done
  obtain ⟨_, _, done⟩ := Except.bind_eq_ok_iff.mp done
  obtain ⟨_, _, done⟩ := Except.bind_eq_ok_iff.mp done
  obtain ⟨_, _, done⟩ := Except.bind_eq_ok_iff.mp done
  obtain ⟨found, resolved, done⟩ := Except.bind_eq_ok_iff.mp done
  obtain ⟨_, _, done⟩ := Except.bind_eq_ok_iff.mp done
  have known := git.revParse_known (elim_eq_ok_iff.mp resolved)
  split at done
  · cases done
  · rename_i base only
    obtain ⟨_, _, done⟩ := Except.bind_eq_ok_iff.mp done
    cases done
    have common : b ∈ git.mergeBases m h := by
      rw [only]
      exact List.mem_singleton_self b
    obtain ⟨among, reached⟩ := List.mem_filter.mp (List.mem_filter.mp common).1
    rw [List.mem_reverse, List.mem_range] at among
    rw [Bool.and_eq_true] at reached
    exact ⟨known, among, CommitGraph.reaches_iff.mp reached.2⟩
  · cases done

theorem bootstrapTarget_spec {ga : Bool} {cut : Nat} {target : Text}
    (done : bootstrapTarget git args ga cut = .ok target) :
    ∃ recorded, args.bootstrap = some (recorded, some target) ∧
      target ∈ ["0.1.0".toList, "1.0.0".toList] := by
  unfold bootstrapTarget at done
  obtain ⟨_, _, done⟩ := Except.bind_eq_ok_iff.mp done
  dsimp only at done
  split at done
  · rename_i recorded found given
    obtain ⟨_, valid, done⟩ := Except.bind_eq_ok_iff.mp done
    obtain ⟨_, _, done⟩ := Except.bind_eq_ok_iff.mp done
    cases done
    rw [require_eq_ok_iff, Bool.and_eq_true, Bool.and_eq_true, decide_eq_true_eq] at valid
    exact ⟨some recorded, given, valid.1.2⟩
  · cases done

/-- Every run that returns has these parts. -/
theorem exists_returned {head main : Text} {result : Result}
    (done : computeVersion library git args head main = .ok result) :
    ∃ ga start highest, Returned library git args result ga start highest := by
  unfold computeVersion at done
  obtain ⟨⟨h, m, b⟩, frozen, done⟩ := Except.bind_eq_ok_iff.mp done
  obtain ⟨⟨base, adoption⟩, found, done⟩ := Except.bind_eq_ok_iff.mp done
  obtain ⟨ratified, _, done⟩ := Except.bind_eq_ok_iff.mp done
  obtain ⟨ga, approved, done⟩ := Except.bind_eq_ok_iff.mp done
  obtain ⟨_, _, done⟩ := Except.bind_eq_ok_iff.mp done
  obtain ⟨start, started, done⟩ := Except.bind_eq_ok_iff.mp done
  obtain ⟨highest, greatest, done⟩ := Except.bind_eq_ok_iff.mp done
  obtain ⟨target, targeted, done⟩ := Except.bind_eq_ok_iff.mp done
  obtain ⟨n, count, done⟩ := Except.bind_eq_ok_iff.mp done
  cases done
  obtain ⟨head_known, cut_known, based⟩ := freezeRefs_spec frozen
  obtain ⟨same, rfl, hotfix⟩ := findBase_spec found
  cases printed_eq_ok count
  exact ⟨ga, start, highest, {
    head_known := head_known
    cut_known := cut_known
    based := based
    base := same
    hotfix := hotfix
    approved := approved
    started := started
    greatest := greatest
    target := targeted
    count := rfl
    candidate := rfl
    pypiVersion := rfl }⟩

/-! ## Two runs of one cut -/

theorem gaDecision_eq {head : Nat} {ga : Bool} (done : gaDecision git args head = .ok ga) :
    ga = (!args.isHotfix && (git.file head decisionPath).isSome) := by
  unfold gaDecision at done
  split at done
  · rename_i hotfix
    cases done
    rw [hotfix]
    rfl
  · rename_i general
    rw [Bool.not_eq_true] at general
    rw [general]
    split at done
    · rename_i absent
      cases done
      rw [absent]
      rfl
    · rename_i decision found
      obtain ⟨_, _, done⟩ := Except.bind_eq_ok_iff.mp done
      cases done
      rw [found]
      rfl

theorem readCore_of_targetOf {cut highest : Nat} {ga : Bool} {base : Option Text}
    (done : targetOf git args cut ga highest base = .ok text) :
    ∃ numbers, SemVer.readCore text = some numbers := by
  unfold targetOf at done
  cases base with
  | none =>
      obtain ⟨_, _, listed⟩ := bootstrapTarget_spec done
      simp only [List.mem_cons, List.not_mem_nil, or_false] at listed
      obtain rfl | rfl := listed
      · exact ⟨(0, 1, 0), by decide⟩
      · exact ⟨(1, 0, 0), by decide⟩
  | some tag =>
      obtain ⟨numbers, _, done⟩ := Except.bind_eq_ok_iff.mp done
      exact ⟨_, readCore_of_printTarget done⟩

/-- The identifiers of a candidate. -/
theorem mapM_read_identifiers (hotfix : Bool) (n : Nat) :
    let identifiers := (if hotfix then "hotfix.rc".toList else "rc".toList) ++ '.' :: number n
    '+' ∉ identifiers ∧ (identifiers.splitOn '.').mapM Identifier.read =
      some (words hotfix ++ [.numeric n]) := by
  have no_plus : '+' ∉ number n := by
    intro member
    cases isDigit_of_mem_number member
  have last : Identifier.read (number n) = some (.numeric n) := by
    rw [Identifier.read, readNumber_number]
  have cut : (number n).splitOn '.' = [number n] :=
    List.splitOn_eq_singleton (dot_not_mem_of_readNumber (readNumber_number n))
  have first : Identifier.read "hotfix".toList = some (.word "hotfix".toList) := by decide
  have second : Identifier.read "rc".toList = some (.word "rc".toList) := by decide
  cases hotfix with
  | true =>
      constructor
      · have clean : '+' ∉ "hotfix.rc".toList := by decide
        simp only [if_true, List.mem_append, List.mem_cons, no_plus, clean, or_false, false_or]
        decide
      · have written : "hotfix.rc".toList ++ '.' :: number n =
            "hotfix".toList ++ '.' :: ("rc".toList ++ '.' :: number n) := rfl
        rw [if_pos rfl, written, List.splitOn_append_cons_self_of_not_mem (by decide),
          List.splitOn_append_cons_self_of_not_mem (by decide), cut]
        simp only [List.mapM_cons, List.mapM_nil, first, second, last]
        rfl
  | false =>
      constructor
      · have clean : '+' ∉ "rc".toList := by decide
        simp only [Bool.false_eq_true, if_false, List.mem_append, List.mem_cons, no_plus, clean,
          or_false, false_or]
        decide
      · rw [if_neg Bool.false_ne_true, List.splitOn_append_cons_self_of_not_mem (by decide), cut]
        simp only [List.mapM_cons, List.mapM_nil, second, last]
        rfl

/-- Later targets, or the same target with a higher number, make a later candidate. -/
theorem precedes_of_targets {first second : Text} {old new : Nat × Nat × Nat} {m n : Nat}
    (hotfix : Bool) (read : SemVer.readCore first = some old)
    (other : SemVer.readCore second = some new) (targets : old = new ∨ SemVer.CoreLt old new)
    (counts : m < n) :
    SemVer.Precedes
        (first ++ '-' :: ((if hotfix then "hotfix.rc".toList else "rc".toList) ++ '.' :: number m))
        (second ++ '-' ::
          ((if hotfix then "hotfix.rc".toList else "rc".toList) ++ '.' :: number n)) ∧
      Pep440.Precedes (first ++ ((if hotfix then ".dev".toList else "rc".toList) ++ number m))
        (second ++ ((if hotfix then ".dev".toList else "rc".toList) ++ number n)) := by
  obtain ⟨major, minor, patch⟩ := old
  obtain ⟨clean, identifiers⟩ := mapM_read_identifiers hotfix m
  obtain ⟨further_clean, further⟩ := mapM_read_identifiers hotfix n
  constructor
  · refine ⟨_, _, SemVer.read_append read clean identifiers,
      SemVer.read_append other further_clean further, ?_⟩
    obtain rfl | less := targets
    · exact SemVer.compare_of_lt counts
    · exact SemVer.compare_of_coreLt less
  · cases hotfix with
    | true =>
        refine ⟨_, _, Pep440.read_dev read m, Pep440.read_dev other n, ?_⟩
        obtain rfl | less := targets
        · exact Pep440.compare_dev counts
        · exact Pep440.compare_of_coreLt rfl rfl less
    | false =>
        refine ⟨_, _, Pep440.read_rc read m, Pep440.read_rc other n, ?_⟩
        obtain rfl | less := targets
        · exact Pep440.compare_rc counts
        · exact Pep440.compare_of_coreLt rfl rfl less

theorem precedes_of_coreLt {first second : Text} {old new : Nat × Nat × Nat}
    (read : SemVer.readCore first = some old) (other : SemVer.readCore second = some new)
    (less : SemVer.CoreLt old new) : SemVer.Precedes first second :=
  ⟨_, _, SemVer.read_of_readCore read, SemVer.read_of_readCore other,
    SemVer.compare_of_coreLt less⟩

namespace Returned

variable {result : Result} {ga : Bool} {start highest : Nat}

/-- The target is above the base. -/
theorem base_precedes (run : Returned library git args result ga start highest)
    (tagged : result.base = some tag) : SemVer.Precedes (tag.drop 1) result.target := by
  have targeted := run.target
  rw [tagged] at targeted
  obtain ⟨numbers, base, done⟩ := Except.bind_eq_ok_iff.mp targeted
  exact precedes_of_coreLt (readCore_of_version base) (readCore_of_printTarget done)
    (coreLt_bump ga highest numbers)

/-- A hotfix raises the patch number. -/
theorem hotfix_target (run : Returned library git args result ga start highest)
    (hotfix : args.isHotfix = true) : ∃ tag major minor patch, result.base = some tag ∧
      SemVer.readCore (tag.drop 1) = some (major, minor, patch) ∧
        SemVer.readCore result.target = some (major, minor, patch + 1) := by
  obtain ⟨tag, rest, stable⟩ := List.exists_cons_of_ne_nil (run.hotfix hotfix)
  have base : result.base = some tag := by
    rw [run.base, stable]
    rfl
  have greatest := run.greatest
  have targeted := run.target
  have general := gaDecision_eq run.approved
  rw [hotfix] at greatest general
  rw [base, general] at targeted
  obtain ⟨⟨major, minor, patch⟩, numbers, done⟩ := Except.bind_eq_ok_iff.mp targeted
  change printTarget (bump false highest (major, minor, patch)) = _ at done
  rw [bump_of_le_one (highestImpact_le_one greatest)] at done
  exact ⟨tag, major, minor, patch, base, readCore_of_version numbers,
    readCore_of_printTarget done⟩

theorem start_known (run : Returned library git args result ga start highest) :
    start < git.commits.length := by
  have started := run.started
  unfold startOf at started
  cases base : result.base with
  | none =>
      rw [base] at started
      cases started
      exact run.cut_known
  | some tag =>
      rw [base] at started
      dsimp only at started
      split at started
      · obtain ⟨before, after, listed, _⟩ :=
          List.lookup_eq_some_iff.mp (elim_eq_ok_iff.mp started)
        apply git.tags_known (tag, start)
        rw [listed]
        exact List.mem_append_right _ List.mem_cons_self
      · cases started
        exact run.cut_known

end Returned

/-- The runs of one cut have one base and count from one commit. -/
theorem base_and_start_eq {more : Arguments} {old new : Result} {ga approved : Bool}
    {start begun first second : Nat} (grown : git.Grows later)
    (run : Returned library git args old ga start first)
    (next : Returned library later more new approved begun second) (cut : new.B = old.B) :
    new.base = old.base ∧ begun = start := by
  have stable : stableAt later new.B = stableAt git old.B := by
    unfold stableAt
    rw [grown.tags, cut]
  have recorded : recordedBase library later new.B = recordedBase library git old.B := by
    unfold recordedBase
    rw [cut, grown.file run.cut_known]
  have base : new.base = old.base := by
    rw [next.base, run.base, stable, recorded]
  refine ⟨base, ?_⟩
  have started := next.started
  have tags : later.resolveTag = git.resolveTag := by
    funext tag
    unfold Repository.resolveTag Repository.tagCommit
    rw [grown.tags]
  unfold startOf at started
  rw [base, stable, tags, cut] at started
  exact Except.ok.inj (started.symm.trans run.started)

/-- A later head with the same cut makes a later candidate. -/
theorem candidates_increase {more : Arguments} {head main nextHead nextMain : Text}
    {old new : Result} (first : computeVersion library git args head main = .ok old)
    (second : computeVersion library later more nextHead nextMain = .ok new)
    (grown : git.Grows later) (branch : more.branch = args.branch)
    (bootstrap : more.bootstrap = args.bootstrap) (cut : new.B = old.B)
    (ahead : later.graph.Reaches new.H old.H) (further : new.H ≠ old.H)
    (persists : (git.file old.H decisionPath).isSome = true →
      (later.file new.H decisionPath).isSome = true) :
    SemVer.Precedes old.candidate new.candidate ∧
      Pep440.Precedes old.pypiVersion new.pypiVersion ∧
      (∀ base, old.base = some base ∨ new.base = some base →
        SemVer.Precedes (base.drop 1) old.target ∧ SemVer.Precedes (base.drop 1) new.target) ∧
      (args.isHotfix = true → ∃ base major minor patch firstPatch secondPatch,
        old.base = some base ∧ new.base = some base ∧
        SemVer.readCore (base.drop 1) = some (major, minor, patch) ∧
        SemVer.readCore old.target = some (major, minor, firstPatch) ∧ firstPatch ≠ patch ∧
        SemVer.readCore new.target = some (major, minor, secondPatch) ∧ secondPatch ≠ patch) := by
  obtain ⟨ga, start, highest, run⟩ := exists_returned first
  obtain ⟨approved, begun, greater, next⟩ := exists_returned second
  have hotfix : more.isHotfix = args.isHotfix := by
    rw [Arguments.isHotfix, branch]
    rfl
  obtain ⟨base, rfl⟩ := base_and_start_eq grown run next cut
  have counts : old.N < new.N := by
    have head_known := run.head_known
    have cut_known := run.cut_known
    have later_known := next.head_known
    rw [← Repository.length_parents] at head_known cut_known later_known
    rw [run.count, next.count, cut]
    exact CommitGraph.length_revList_lt grown.parents cut_known head_known later_known ahead
      further run.based
  have impacts : highest ≤ greater :=
    highestImpact_le run.greatest next.greatest
      (messages_subset grown run.start_known run.head_known ahead)
  have decisions : ga = true → approved = true := by
    rw [gaDecision_eq run.approved, gaDecision_eq next.approved, hotfix, Bool.and_eq_true,
      Bool.and_eq_true]
    exact And.imp_right persists
  have targets : ∃ lower upper, SemVer.readCore old.target = some lower ∧
      SemVer.readCore new.target = some upper ∧ (lower = upper ∨ SemVer.CoreLt lower upper) := by
    have oldTarget := run.target
    have newTarget := next.target
    rw [base] at newTarget
    cases released : old.base with
    | none =>
        obtain ⟨numbers, read⟩ := readCore_of_targetOf oldTarget
        rw [released] at oldTarget newTarget
        obtain ⟨_, recorded, _⟩ := bootstrapTarget_spec oldTarget
        obtain ⟨_, again, _⟩ := bootstrapTarget_spec newTarget
        rw [bootstrap, recorded] at again
        have same := Option.some.inj (Prod.mk.inj (Option.some.inj again)).2
        rw [← same]
        exact ⟨numbers, numbers, read, read, .inl rfl⟩
    | some tag =>
        rw [released] at oldTarget newTarget
        obtain ⟨numbers, read, lower⟩ := Except.bind_eq_ok_iff.mp oldTarget
        obtain ⟨_, again, upper⟩ := Except.bind_eq_ok_iff.mp newTarget
        rw [read] at again
        cases again
        exact ⟨_, _, readCore_of_printTarget lower, readCore_of_printTarget upper,
          bump_le decisions impacts (highestImpact_le_three next.greatest) numbers⟩
  obtain ⟨lower, upper, read, other, order⟩ := targets
  obtain ⟨semver, pep⟩ := precedes_of_targets args.isHotfix read other order counts
  refine ⟨?_, ?_, ?_, ?_⟩
  · rwa [run.candidate, next.candidate, hotfix]
  · rwa [run.pypiVersion, next.pypiVersion, hotfix]
  · intro tag tagged
    rw [base, or_self] at tagged
    exact ⟨run.base_precedes tagged, next.base_precedes (base.trans tagged)⟩
  · intro fixes
    obtain ⟨tag, major, minor, patch, tagged, numbers, fixed⟩ := run.hotfix_target fixes
    obtain ⟨again, major', minor', patch', same, numbers', refixed⟩ :=
      next.hotfix_target (hotfix.trans fixes)
    rw [base, tagged] at same
    cases same
    rw [numbers] at numbers'
    cases numbers'
    exact ⟨tag, major, minor, patch, patch + 1, patch + 1, tagged, base.trans tagged, numbers,
      fixed, Nat.succ_ne_self patch, refixed, Nat.succ_ne_self patch⟩

/-- A release, a fix and a feature. -/
def sampleHistory : List HistoryCommit :=
  [⟨"a".toList, [], "feat: begin\n".toList, []⟩, ⟨"b".toList, [0], "fix: mend\n".toList, []⟩,
    ⟨"c".toList, [1], "feat: add\n".toList, []⟩]

def sampleRepository : Repository where
  commits := sampleHistory
  older := by
    intro child commit known
    have inside : child < 3 := (List.getElem?_eq_some_iff.mp known).1
    interval_cases child
    all_goals
      cases known
      decide
  tags := [("v1.2.3".toList, 0)]
  tags_known := by decide
  revParse name := sampleHistory.findIdx? fun commit => commit.sha = name
  revParse_known := by
    intro name commit found
    exact (List.findIdx?_eq_some_iff_getElem.mp found).1
  isShallow := false
  isSha256 := false
  changes _ _ := []

def sampleLibrary : Library where
  json := sampleJson
  dateFromIsoformat _ := none

def sampleArguments : Arguments where
  branch := "release/new".toList
  today := ⟨2026, 1, 1⟩

def sampleResult (head : Nat) (target candidate pypiVersion : String) : Result where
  base := some "v1.2.3".toList
  B := 0
  H := head
  M := 0
  N := head
  target := target.toList
  candidate := candidate.toList
  pypiVersion := pypiVersion.toList
  promotable := true
  adoption := none

theorem sample_fix : computeVersion sampleLibrary sampleRepository sampleArguments "b".toList
    "a".toList = .ok (sampleResult 1 "1.2.4" "1.2.4-rc.1" "1.2.4rc1") := by
  decide +kernel

theorem sample_feature : computeVersion sampleLibrary sampleRepository sampleArguments "c".toList
    "a".toList = .ok (sampleResult 2 "1.3.0" "1.3.0-rc.2" "1.3.0rc2") := by
  decide +kernel

/-- A feature behind a fix raises the candidate. -/
theorem sample_candidates_increase :
    SemVer.Precedes "1.2.4-rc.1".toList "1.3.0-rc.2".toList ∧
      Pep440.Precedes "1.2.4rc1".toList "1.3.0rc2".toList := by
  have increased := candidates_increase sample_fix sample_feature ⟨List.prefix_refl _, rfl⟩ rfl rfl
    rfl (CommitGraph.reaches_iff.mp (by decide)) (by decide) (by decide)
  exact ⟨increased.1, increased.2.1⟩

end DataOlympus.Version
