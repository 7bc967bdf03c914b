import Mathlib.Data.List.Infix
import DataOlympus.Publish.CommitMessage

/-!
# The search for the commit of a claim

An interrupted resolve leaves the question whether its commit was made.  Recovery reads the
trailers of every message since then and looks for the id of the claim.  What an agent wrote
into the values of other commits cannot answer the question, for any git that does what is
documented of it.
-/

namespace DataOlympus.Publish

open Git
open Lines (Text)

/-- `raw.partition(b":")` with the one space that frames the value. -/
def readLine (raw : Bytes) : Option (Bytes × Bytes) :=
  match raw.dropWhile (· ≠ 0x3a) with
  | [] => none
  | _ :: value =>
      some (raw.takeWhile (· ≠ 0x3a), if value.head? = some 0x20 then value.tail else value)

section Search

variable (git : Tool)

/-- `_parse_trailers(message)` when git answers: a key that comes twice is dropped. -/
def parseTrailers (message : Bytes) : List (Bytes × Bytes) :=
  if message.getLast? ≠ some lf then []
  else
    let found := ((git.parsed message).splitOn lf).filterMap readLine
    found.filter fun trailer => (found.countP fun other => other.1 = trailer.1) = 1

/-- A message of the log, and whether git answers about it before the deadline. -/
structure LoggedBody where
  message : Bytes
  answered : Bool

/-- What a search is for. -/
structure Claim where
  pendingId : Text
  /-- The empty path asks for any. -/
  targetPath : Text

/-- White space of `bytes.strip`. -/
def isAsciiSpace (byte : UInt8) : Bool :=
  isBlank byte || byte = 0x0b || byte = 0x0c

/-- The test of one commit; `none` when git does not answer. -/
def satisfies (claim : Claim) (body : LoggedBody) : Option Bool :=
  if body.message.all isAsciiSpace then some false
  else if ¬utf8 "KB-Pending-Id".toList <:+: body.message then some false
  else if !body.answered then none
  else
    let trailers := parseTrailers git body.message
    if trailers.lookup (utf8 "KB-Pending-Id".toList) ≠ some (utf8 claim.pendingId) then some false
    else if !claim.targetPath.isEmpty &&
        trailers.lookup (utf8 "KB-Target-Path".toList) ≠ some (utf8 claim.targetPath) then
      some false
    else some true

/-- The loop over the messages of the log. -/
def searchBodies (claim : Claim) : List LoggedBody → Option Bool
  | [] => some false
  | body :: rest =>
      match satisfies git claim body with
      | none => none
      | some true => some true
      | some false => searchBodies claim rest

/-- `find_claim_commit(…)`, where `ranged` says that a ref and a commit before the write are
given, and the log may be unreadable. -/
def findClaimCommit (ranged : Bool) (claim : Claim) (log : Option (List LoggedBody)) :
    Option Bool :=
  if !ranged || claim.pendingId.isEmpty then none else log.bind (searchBodies git claim)

end Search

/-- The commit was built for the claim: its pending id and its path are those of the claim, up to
white space around them. -/
def CommitFields.BuiltFor (fields : CommitFields) (claim : Claim) : Prop :=
  fields.pendingId ≠ [] ∧ trim (utf8 fields.pendingId) = utf8 claim.pendingId ∧
    (claim.targetPath = [] ∨ trim (utf8 fields.targetPath) = utf8 claim.targetPath)

instance (fields : CommitFields) (claim : Claim) : Decidable (fields.BuiltFor claim) :=
  inferInstanceAs (Decidable (_ ∧ _ ∧ (_ ∨ _)))

/-- The message of a commit that the builder made under a title.  No commit has a message with a
null character. -/
structure Built (git : Tool) (fields : CommitFields) (body : LoggedBody) : Prop where
  titled : Titled fields.subject
  plain : '\n' ∉ fields.confidence
  stored : ∃ message, buildCommitMessage fields = .ok message ∧ 0 ∉ utf8 message ∧
    body.message = git.stored (utf8 message)

/-- A printed trailer is read back. -/
theorem readLine_printed {key value : Bytes} (plain : 0x3a ∉ key) :
    readLine (key ++ 0x3a :: 0x20 :: value) = some (key, value) := by
  have colonFree : ∀ byte ∈ key, decide (byte ≠ 0x3a) = true := by
    intro byte member
    exact decide_eq_true fun same => plain (same ▸ member)
  unfold readLine
  rw [List.dropWhile_append_of_pos colonFree, List.takeWhile_append_of_pos colonFree,
    List.dropWhile_cons_of_neg (by decide), List.takeWhile_cons_of_neg (by decide)]
  simp

/-- The trailers that are read of a commit that the builder made. -/
def CommitFields.readTrailers (fields : CommitFields) : List (Bytes × Bytes) :=
  (fields.pairs.map trailerBytes).map fun trailer => (trailer.1, trim trailer.2)

/-- The keys of the builder are different. -/
theorem nodup_keys (fields : CommitFields) : (fields.readTrailers.map Prod.fst).Nodup := by
  have all : (keyNames.map fun key => utf8 key.toList).Nodup := by decide
  have keys : fields.readTrailers.map Prod.fst =
      (fields.pairs.map Prod.fst).map fun key => utf8 key.toList := by
    rw [CommitFields.readTrailers, List.map_map, List.map_map, List.map_map]
    rfl
  rw [keys, keyNames_pairs, List.map_take]
  exact all.sublist (List.take_sublist _ _)

section Reading

variable {git : Tool} {fields : CommitFields} {body : LoggedBody}

/-- The dictionary of a message has the trailers that git prints, when their keys differ. -/
theorem parseTrailers_eq {message : Bytes} {found : List (Bytes × Bytes)}
    (printed : git.parsed message = unlines (found.map trailerLine))
    (ended : message.getLast? = some lf) (keys : ∀ trailer ∈ found, 0x3a ∉ trailer.1)
    (plain : ∀ trailer ∈ found, lf ∉ trailerLine trailer) (once : (found.map Prod.fst).Nodup) :
    parseTrailers git message = found := by
  have lines : (git.parsed message).splitOn lf = found.map trailerLine ++ [[]] := by
    rw [printed, splitOn_unlines]
    intro line member
    obtain ⟨trailer, here, rfl⟩ := List.mem_map.mp member
    exact plain trailer here
  have readBack : (found.map trailerLine).filterMap readLine = found := by
    rw [List.filterMap_map]
    have each : ∀ trailer ∈ found, (readLine ∘ trailerLine) trailer = some trailer :=
      fun trailer here => readLine_printed (keys trailer here)
    rw [List.filterMap_congr each, List.filterMap_some]
  have single : ∀ trailer ∈ found,
      decide ((found.countP fun other => other.1 = trailer.1) = 1) = true := by
    intro trailer here
    apply decide_eq_true
    have counted := List.count_eq_one_of_mem once (List.mem_map_of_mem (f := Prod.fst) here)
    rw [List.count, List.countP_map] at counted
    rw [← counted]
    apply List.countP_congr
    intro other _
    simp
  have nothing : [[]].filterMap readLine = [] := rfl
  unfold parseTrailers
  rw [if_neg (by simp [ended]), lines, List.filterMap_append, readBack, nothing, List.append_nil]
  exact List.filter_eq_self.mpr single

/-- What the search reads of a commit that the builder made. -/
theorem Built.parseTrailers (documented : git.Documented) (built : Built git fields body) :
    parseTrailers git body.message = fields.readTrailers := by
  obtain ⟨titled, plain, message, made, whole, stored⟩ := built
  have values := lf_not_mem_pairs (lf_not_mem_of_built made) plain
  have colon : isKey 0x3a = false := by decide
  have lineFeed : isKey lf = false := by decide
  rw [stored]
  apply parseTrailers_eq
  · rw [parsed_buildCommitMessage documented titled plain made whole]
    simp only [CommitFields.readTrailers, List.map_map]
    rfl
  · rw [stored_buildCommitMessage documented titled plain made whole]
    exact getLast?_unlines (List.cons_ne_nil _ _)
  · intro trailer member inside
    obtain ⟨written, here, rfl⟩ := List.mem_map.mp member
    obtain ⟨own, listed, rfl⟩ := List.mem_map.mp here
    exact absurd ((key_of_mem listed).2 _ inside) (by rw [colon]; exact Bool.false_ne_true)
  · intro trailer member
    obtain ⟨written, here, rfl⟩ := List.mem_map.mp member
    obtain ⟨own, listed, rfl⟩ := List.mem_map.mp here
    simp only [trailerLine, List.mem_append, List.mem_cons, not_or]
    refine ⟨fun inside => ?_, by decide, by decide, ?_⟩
    · exact absurd ((key_of_mem listed).2 _ inside) (by rw [lineFeed]; exact Bool.false_ne_true)
    · exact lf_not_mem_trim (lf_not_mem_utf8 (values own listed))
  · exact nodup_keys fields

end Reading

/-- The value under a key that comes once. -/
theorem lookup_iff {found : List (Bytes × Bytes)} (once : (found.map Prod.fst).Nodup)
    {key value : Bytes} : found.lookup key = some value ↔ (key, value) ∈ found := by
  rw [List.lookup_eq_some_iff]
  constructor
  · rintro ⟨before, after, rfl, -⟩
    exact List.mem_append_right _ List.mem_cons_self
  · intro member
    rcases List.append_of_mem member with ⟨before, after, rfl⟩
    refine ⟨before, after, rfl, fun other here => ?_⟩
    rw [List.map_append, List.map_cons, List.nodup_append] at once
    have different := once.2.2 other.1 (List.mem_map_of_mem here) key List.mem_cons_self
    exact bne_iff_ne.mpr different.symm

theorem mem_pendingId {fields : CommitFields} {value : Text} :
    ("KB-Pending-Id", value) ∈ fields.pairs ↔
      fields.pendingId ≠ [] ∧ value = fields.pendingId := by
  unfold CommitFields.pairs
  cases fields.pendingId <;> simp

/-- A trailer is read under the key of one that was written. -/
theorem mem_readTrailers {fields : CommitFields} {key : String} {value : Bytes}
    (known : key ∈ keyNames) : (utf8 key.toList, value) ∈ fields.readTrailers ↔
      ∃ own, (key, own) ∈ fields.pairs ∧ trim (utf8 own) = value := by
  have different : ∀ first ∈ keyNames, ∀ second ∈ keyNames,
      utf8 first.toList = utf8 second.toList → first = second := by
    decide
  rw [CommitFields.readTrailers, List.map_map, List.mem_map]
  constructor
  · rintro ⟨⟨other, own⟩, member, same⟩
    obtain ⟨sameKey, rfl⟩ := Prod.mk.inj same
    cases different other (mem_keyNames member) key known sameKey
    exact ⟨own, member, rfl⟩
  · rintro ⟨own, member, rfl⟩
    exact ⟨_, member, rfl⟩

/-- The claim key of a commit that the builder made. -/
theorem lookup_pendingId (fields : CommitFields) (value : Bytes) :
    fields.readTrailers.lookup (utf8 "KB-Pending-Id".toList) = some value ↔
      fields.pendingId ≠ [] ∧ trim (utf8 fields.pendingId) = value := by
  rw [lookup_iff (nodup_keys fields), mem_readTrailers (by decide)]
  constructor
  · rintro ⟨own, member, rfl⟩
    obtain ⟨claimed, rfl⟩ := mem_pendingId.mp member
    exact ⟨claimed, rfl⟩
  · rintro ⟨claimed, rfl⟩
    exact ⟨_, mem_pendingId.mpr ⟨claimed, rfl⟩, rfl⟩

/-- The path of a commit that the builder made. -/
theorem lookup_targetPath (fields : CommitFields) :
    fields.readTrailers.lookup (utf8 "KB-Target-Path".toList) =
      some (trim (utf8 fields.targetPath)) := by
  rw [lookup_iff (nodup_keys fields), mem_readTrailers (by decide)]
  exact ⟨fields.targetPath, by simp [CommitFields.pairs], rfl⟩

section Testing

variable {git : Tool} {fields : CommitFields} {body : LoggedBody}

/-- A commit with a pending id holds the claim key. -/
theorem Built.key_infix (documented : git.Documented) (built : Built git fields body)
    (claimed : fields.pendingId ≠ []) : utf8 "KB-Pending-Id".toList <:+: body.message := by
  obtain ⟨titled, plain, message, made, whole, stored⟩ := built
  rw [stored, stored_buildCommitMessage documented titled plain made whole]
  have own : trailerBytes ("KB-Pending-Id", fields.pendingId) ∈ fields.pairs.map trailerBytes :=
    List.mem_map_of_mem (mem_pendingId.mpr ⟨claimed, rfl⟩)
  obtain ⟨-, -, writable⟩ := writable_of_built plain made whole
  obtain ⟨-, -, rest, opens, -⟩ := (writable _ own).opens
  have line : trimEnd (trailerLine (trailerBytes ("KB-Pending-Id", fields.pendingId))) ∈
      trimEnd (utf8 fields.subject) :: [] :: (fields.pairs.map trailerBytes).map fun trailer =>
        trimEnd (trailerLine trailer) :=
    List.mem_cons_of_mem _ (List.mem_cons_of_mem _
      (List.mem_map_of_mem (f := fun trailer => trimEnd (trailerLine trailer)) own))
  obtain ⟨before, after, split⟩ := List.append_of_mem line
  rw [split, unlines, List.flatMap_append, List.flatMap_cons, opens]
  exact ⟨unlines before, 0x3a :: rest ++ [lf] ++ unlines after, by simp [unlines, trailerBytes]⟩

/-- The test of a commit that the builder made. -/
theorem Built.satisfies_eq (documented : git.Documented) (built : Built git fields body)
    (claim : Claim) :
    satisfies git claim body = some (decide (fields.BuiltFor claim)) ∨
      satisfies git claim body = none ∧ body.answered = false := by
  have held : fields.BuiltFor claim → utf8 "KB-Pending-Id".toList <:+: body.message :=
    fun made => built.key_infix documented made.1
  unfold satisfies
  by_cases blank : body.message.all isAsciiSpace = true
  · have notMade : ¬fields.BuiltFor claim := by
      intro made
      have letter : (0x4b : UInt8) ∈ utf8 "KB-Pending-Id".toList := by decide
      exact absurd (List.all_eq_true.mp blank _ ((held made).subset letter)) (by decide)
    rw [if_pos blank]
    exact .inl (congrArg some (decide_eq_false notMade).symm)
  rw [if_neg blank]
  by_cases key : utf8 "KB-Pending-Id".toList <:+: body.message
  · rw [if_neg (not_not_intro key)]
    cases answered : body.answered with
    | false => exact .inr ⟨rfl, rfl⟩
    | true =>
        left
        rw [if_neg (by decide), built.parseTrailers documented]
        dsimp only
        have found := lookup_pendingId fields (utf8 claim.pendingId)
        rw [lookup_targetPath]
        by_cases claimed : fields.pendingId ≠ [] ∧
            trim (utf8 fields.pendingId) = utf8 claim.pendingId
        · rw [if_neg (not_not_intro (found.mpr claimed))]
          by_cases anywhere : claim.targetPath = []
          · have made : fields.BuiltFor claim := ⟨claimed.1, claimed.2, .inl anywhere⟩
            simp [anywhere, made]
          · by_cases there : trim (utf8 fields.targetPath) = utf8 claim.targetPath
            · have made : fields.BuiltFor claim := ⟨claimed.1, claimed.2, .inr there⟩
              simp [there, made]
            · have notMade : ¬fields.BuiltFor claim := fun made =>
                made.2.2.elim anywhere there
              simp [anywhere, there, notMade]
        · have notMade : ¬fields.BuiltFor claim := fun made => claimed ⟨made.1, made.2.1⟩
          rw [if_pos fun here => claimed (found.mp here)]
          exact congrArg some (decide_eq_false notMade).symm
  · have notMade : ¬fields.BuiltFor claim := fun made => key (held made)
    rw [if_pos key]
    exact .inl (congrArg some (decide_eq_false notMade).symm)

end Testing

theorem searchBodies_of_built {git : Tool} (documented : git.Documented)
    {commits : List CommitFields} {log : List LoggedBody}
    (built : List.Forall₂ (Built git) commits log) (claim : Claim) :
    (searchBodies git claim log = some true → ∃ fields ∈ commits, fields.BuiltFor claim) ∧
      (searchBodies git claim log = some false → ∀ fields ∈ commits, ¬fields.BuiltFor claim) ∧
      ((∀ body ∈ log, body.answered = true) → searchBodies git claim log ≠ none) := by
  induction built with
  | nil =>
      refine ⟨?_, ?_, ?_⟩
      · intro impossible
        cases impossible
      · intro _ fields none
        cases none
      · intro _ impossible
        cases impossible
  | @cons fields body commits log first _ ih =>
      obtain ⟨yes, no, ends⟩ := ih
      rw [searchBodies]
      rcases first.satisfies_eq documented claim with tested | ⟨tested, unanswered⟩
      · rw [tested]
        by_cases made : fields.BuiltFor claim
        · rw [decide_eq_true made]
          refine ⟨fun _ => ⟨fields, List.mem_cons_self, made⟩, ?_, fun _ => ?_⟩
          · intro impossible
            cases impossible
          · exact Option.some_ne_none _
        · rw [decide_eq_false made]
          refine ⟨?_, ?_, ?_⟩
          · intro found
            rcases yes found with ⟨other, member, here⟩
            exact ⟨other, List.mem_cons_of_mem _ member, here⟩
          · intro absent
            exact List.forall_mem_cons.mpr ⟨made, no absent⟩
          · intro answered
            exact ends fun other member => answered other (List.mem_cons_of_mem _ member)
      · rw [tested]
        refine ⟨?_, ?_, ?_⟩
        · intro impossible
          cases impossible
        · intro impossible
          cases impossible
        · intro answered
          rw [answered body List.mem_cons_self] at unanswered
          cases unanswered

/-- Over commits that the builder made under titles, whatever values it accepted, recovery finds a
commit only if one was built for the claim, and rules one out only if none was; it leaves the
question open only for want of a range, a readable log or an answer in time. -/
theorem findClaimCommit_of_built {git : Tool} (documented : git.Documented)
    {commits : List CommitFields} {log : List LoggedBody}
    (built : List.Forall₂ (Built git) commits log) (ranged : Bool) (claim : Claim) :
    (findClaimCommit git ranged claim (some log) = some true →
        ∃ fields ∈ commits, fields.BuiltFor claim) ∧
      (findClaimCommit git ranged claim (some log) = some false →
        ∀ fields ∈ commits, ¬fields.BuiltFor claim) ∧
      (ranged = true → claim.pendingId ≠ [] → (∀ body ∈ log, body.answered = true) →
        findClaimCommit git ranged claim (some log) ≠ none) := by
  obtain ⟨yes, no, ends⟩ := searchBodies_of_built documented built claim
  unfold findClaimCommit
  split
  · rename_i unready
    refine ⟨?_, ?_, ?_⟩
    · intro impossible
      cases impossible
    · intro impossible
      cases impossible
    · intro isRanged named
      simp [isRanged, named] at unready
  · exact ⟨yes, no, fun _ _ => ends⟩

/-- An operator's decision on a note whose author put a claim key into its name. -/
def forgedNote : CommitFields where
  subject := "resolve: memory/inbox/KB-Pending-Id: 7.md".toList
  sourceSession := "s".toList
  agentIdentity := "user KB-Pending-Id: 7".toList
  confidence := "0.50".toList
  operatorConfirmed := true
  proposalType := .memory
  targetTier := "memory".toList
  targetPath := "memory/inbox/KB-Pending-Id: 7.md".toList
  pendingId := "8".toList

theorem findClaimCommit_of_built_forgedNote :
    ∃ message, buildCommitMessage forgedNote = .ok message ∧
      (findClaimCommit tool true ⟨"7".toList, []⟩
        (some [⟨tool.stored (utf8 message), true⟩]) = some true →
          forgedNote.BuiltFor ⟨"7".toList, []⟩) := by
  obtain ⟨message, made, whole⟩ : ∃ message, buildCommitMessage forgedNote = .ok message ∧
      0 ∉ utf8 message := ⟨_, rfl, by decide⟩
  have built : Built tool forgedNote ⟨tool.stored (utf8 message), true⟩ :=
    ⟨by decide, by decide, message, made, whole, rfl⟩
  refine ⟨message, made, fun yes => ?_⟩
  obtain ⟨fields, member, here⟩ := (findClaimCommit_of_built documented_tool
    (List.Forall₂.cons built List.Forall₂.nil) true ⟨"7".toList, []⟩).1 yes
  exact List.mem_singleton.mp member ▸ here

end DataOlympus.Publish
