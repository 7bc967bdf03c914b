import DataOlympus.Control.Except
import DataOlympus.Git.Trailers
import Mathlib.Data.List.Nodup
import Mathlib.Tactic.ByContra

/-!
# The audit trailers of a commit

`build_commit_message` writes a subject and seven or eight trailers, and refuses a value that
holds a line break of any kind.  Whatever values the builder accepts, under a subject that is a
title git reads back those trailers, in order, and no others: a value cannot open a trailer of
its own.
-/

namespace DataOlympus.Publish

open Git
open Lines (Text)

inductive ProposalType where
  | memory
  | edit
  deriving DecidableEq

def ProposalType.text : ProposalType → String
  | .memory => "memory"
  | .edit => "edit"

/-- The arguments of `build_commit_message`. -/
structure CommitFields where
  subject : Text
  sourceSession : Text
  agentIdentity : Text
  /-- `f"{confidence_original:.2f}"`. -/
  confidence : Text
  operatorConfirmed : Bool
  proposalType : ProposalType
  targetTier : Text
  targetPath : Text
  /-- `None` and the empty string alike name no claim. -/
  pendingId : Text

/-- `_LINE_SEPARATORS`: what `str.splitlines` breaks at besides CR and LF. -/
def lineSeparators : List Char :=
  [0x0b, 0x0c, 0x1c, 0x1d, 0x1e, 0x85, 0x2028, 0x2029].map Char.ofNat

namespace CommitFields

variable (fields : CommitFields)

/-- The checked values with their labels. -/
def labelled : List (String × Text) :=
  [("subject", fields.subject), ("source_session", fields.sourceSession),
    ("agent_identity", fields.agentIdentity), ("target_tier", fields.targetTier),
    ("target_path", fields.targetPath), ("pending_id", fields.pendingId)]

/-- The trailers in the order in which they are written. -/
def pairs : List (String × Text) :=
  [("KB-Source-Session", fields.sourceSession), ("KB-Agent-Identity", fields.agentIdentity),
    ("KB-Confidence", fields.confidence),
    ("KB-Operator-Confirmed", (if fields.operatorConfirmed then "yes" else "no").toList),
    ("KB-Proposal-Type", fields.proposalType.text.toList),
    ("KB-Target-Tier", fields.targetTier), ("KB-Target-Path", fields.targetPath)] ++
  if fields.pendingId.isEmpty then [] else [("KB-Pending-Id", fields.pendingId)]

end CommitFields

/-- The check of one value. -/
def checkValue (label : String) (value : Text) : Except String Unit :=
  if value.any fun c => c = '\n' || c = '\r' then
    .error ("trailer value for '" ++ label ++ "' contains newline")
  else if value.any (· ∈ lineSeparators) then
    .error ("trailer value for '" ++ label ++ "' contains a unicode line separator")
  else .ok ()

/-- `f"{key}: {value}"`. -/
def trailerText (trailer : String × Text) : Text :=
  trailer.1.toList ++ ": ".toList ++ trailer.2

/-- `build_commit_message(…)`. -/
def buildCommitMessage (fields : CommitFields) : Except String Text := do
  let _ ← fields.labelled.mapM fun item => checkValue item.1 item.2
  return fields.subject ++ "\n\n".toList ++
    ['\n'].intercalate (fields.pairs.map trailerText) ++ "\n".toList

/-! ## What git reads -/

/-- The trailer in bytes. -/
def trailerBytes (trailer : String × Text) : Bytes × Bytes :=
  (utf8 trailer.1.toList, utf8 trailer.2)

/-- The subject is a title. -/
def Titled (subject : Text) : Prop :=
  isTitle (trimEnd (utf8 subject)) = true

instance (subject : Text) : Decidable (Titled subject) :=
  inferInstanceAs (Decidable (_ = true))

/-- The keys of the trailers. -/
def keyNames : List String :=
  ["KB-Source-Session", "KB-Agent-Identity", "KB-Confidence", "KB-Operator-Confirmed",
    "KB-Proposal-Type", "KB-Target-Tier", "KB-Target-Path", "KB-Pending-Id"]

theorem keyNames_pairs (fields : CommitFields) :
    fields.pairs.map Prod.fst = keyNames.take (if fields.pendingId.isEmpty then 7 else 8) := by
  unfold CommitFields.pairs
  cases fields.pendingId.isEmpty <;> rfl

theorem mem_keyNames {fields : CommitFields} {trailer : String × Text}
    (member : trailer ∈ fields.pairs) : trailer.1 ∈ keyNames := by
  have taken := List.mem_map_of_mem (f := Prod.fst) member
  rw [keyNames_pairs] at taken
  exact List.mem_of_mem_take taken

/-- The key of a trailer of ours consists of letters and hyphens. -/
theorem key_of_mem {fields : CommitFields} {trailer : String × Text}
    (member : trailer ∈ fields.pairs) :
    utf8 trailer.1.toList ≠ [] ∧ ∀ byte ∈ utf8 trailer.1.toList, isKey byte = true := by
  have checked : keyNames.all (fun key => !(utf8 key.toList).isEmpty &&
      (utf8 key.toList).all isKey) = true := by
    decide
  have named := List.all_eq_true.mp checked trailer.1 (mem_keyNames member)
  rw [Bool.and_eq_true, Bool.not_eq_true', List.isEmpty_eq_false_iff, List.all_eq_true] at named
  exact named

/-! ## The whole message -/

theorem utf8_intercalate {texts : List Text} (nonempty : texts ≠ []) :
    utf8 (['\n'].intercalate texts ++ "\n".toList) = unlines (texts.map utf8) := by
  have lineFeed : utf8 ['\n'] = [lf] := rfl
  have newline : utf8 "\n".toList = [lf] := rfl
  induction texts with
  | nil => exact absurd rfl nonempty
  | cons text rest ih =>
      cases rest with
      | nil =>
          rw [List.intercalate_singleton, utf8_append, newline]
          simp [unlines]
      | cons next rest =>
          rw [List.intercalate_cons_cons, List.append_assoc, List.append_assoc, utf8_append,
            utf8_append, ih (List.cons_ne_nil _ _), lineFeed]
          simp [unlines]

theorem utf8_trailerText (trailer : String × Text) :
    utf8 (trailerText trailer) = trailerLine (trailerBytes trailer) := by
  rw [trailerText, utf8_append, utf8_append, List.append_assoc]
  rfl

/-- The lines of a message. -/
theorem utf8_message (fields : CommitFields) :
    utf8 (fields.subject ++ "\n\n".toList ++
      ['\n'].intercalate (fields.pairs.map trailerText) ++ "\n".toList) =
      unlines (utf8 fields.subject :: [] :: (fields.pairs.map trailerBytes).map trailerLine) := by
  have nonempty : fields.pairs.map trailerText ≠ [] := by simp [CommitFields.pairs]
  rw [List.append_assoc, utf8_append, utf8_intercalate nonempty, List.map_map, utf8_append]
  simp only [unlines, List.flatMap_cons, List.append_assoc, List.nil_append, List.map_map]
  have lines : utf8 ∘ trailerText = trailerLine ∘ trailerBytes := funext utf8_trailerText
  rw [lines]
  rfl

/-- No value that the builder accepts holds a line feed. -/
theorem lf_not_mem_of_built {fields : CommitFields} {message : Text}
    (built : buildCommitMessage fields = .ok message) :
    ∀ item ∈ fields.labelled, '\n' ∉ item.2 := by
  rcases Except.bind_eq_ok_iff.mp built with ⟨checks, checked, -⟩
  intro item member held
  rcases Except.mem_mapM_of_mem checked member with ⟨_, -, passed⟩
  have broken : (item.2.any fun c => c = '\n' || c = '\r') = true :=
    List.any_eq_true.mpr ⟨'\n', held, rfl⟩
  rw [checkValue, if_pos broken] at passed
  cases passed

theorem lf_not_mem_pairs {fields : CommitFields}
    (accepted : ∀ item ∈ fields.labelled, '\n' ∉ item.2) (plain : '\n' ∉ fields.confidence) :
    ∀ trailer ∈ fields.pairs, '\n' ∉ trailer.2 := by
  simp only [CommitFields.labelled, List.forall_mem_cons] at accepted
  obtain ⟨-, session, identity, tier, path, pending, -⟩ := accepted
  have answered : '\n' ∉ (if fields.operatorConfirmed then "yes" else "no").toList := by
    cases fields.operatorConfirmed <;> decide
  have kind : '\n' ∉ fields.proposalType.text.toList := by
    cases fields.proposalType <;> decide
  intro trailer member
  rcases List.mem_append.mp member with first | last
  · simp only [List.mem_cons, List.not_mem_nil, or_false] at first
    rcases first with rfl | rfl | rfl | rfl | rfl | rfl | rfl
    · exact session
    · exact identity
    · exact plain
    · exact answered
    · exact kind
    · exact tier
    · exact path
  · split at last
    · cases last
    · cases List.mem_singleton.mp last
      exact pending

/-- A byte of a line is one of the message. -/
theorem not_mem_line {byte : UInt8} {lines : List Bytes} (absent : byte ∉ unlines lines) :
    ∀ line ∈ lines, byte ∉ line := by
  intro line member inside
  exact absent (List.mem_flatMap.mpr ⟨line, member, List.mem_append_left _ inside⟩)

/-- The subject and the trailers that the builder accepts can be written. -/
theorem writable_of_built {fields : CommitFields} {message : Text}
    (plain : '\n' ∉ fields.confidence) (built : buildCommitMessage fields = .ok message)
    (whole : 0 ∉ utf8 message) :
    utf8 message = unlines (utf8 fields.subject :: [] ::
        (fields.pairs.map trailerBytes).map trailerLine) ∧
      (lf ∉ utf8 fields.subject ∧ 0 ∉ utf8 fields.subject) ∧
        ∀ trailer ∈ fields.pairs.map trailerBytes, Writable trailer := by
  have accepted := lf_not_mem_of_built built
  have values := lf_not_mem_pairs accepted plain
  have made : utf8 message = unlines (utf8 fields.subject :: [] ::
      (fields.pairs.map trailerBytes).map trailerLine) := by
    rcases Except.bind_eq_ok_iff.mp built with ⟨_, -, returned⟩
    cases returned
    exact utf8_message fields
  rw [made] at whole
  have lines := not_mem_line whole
  refine ⟨made, ⟨?_, lines _ List.mem_cons_self⟩, ?_⟩
  · exact lf_not_mem_utf8 (accepted ("subject", fields.subject) List.mem_cons_self)
  · intro trailer member
    obtain ⟨own, here, rfl⟩ := List.mem_map.mp member
    obtain ⟨named, key⟩ := key_of_mem here
    refine ⟨named, key, lf_not_mem_utf8 (values own here), ?_⟩
    have absent := lines _ (List.mem_cons_of_mem _ (List.mem_cons_of_mem _
      (List.mem_map_of_mem (f := trailerLine) member)))
    simp only [trailerLine, List.mem_append, List.mem_cons, not_or] at absent
    exact absent.2.2.2

section Asked

variable {git : Tool} {fields : CommitFields} {message : Text}

/-- What is stored of a message of the builder. -/
theorem stored_buildCommitMessage (documented : git.Documented) (titled : Titled fields.subject)
    (plain : '\n' ∉ fields.confidence) (built : buildCommitMessage fields = .ok message)
    (whole : 0 ∉ utf8 message) :
    git.stored (utf8 message) = unlines (trimEnd (utf8 fields.subject) :: [] ::
      (fields.pairs.map trailerBytes).map fun trailer => trimEnd (trailerLine trailer)) := by
  obtain ⟨made, subject, writable⟩ := writable_of_built plain built whole
  have nonempty : fields.pairs.map trailerBytes ≠ [] := by simp [CommitFields.pairs]
  rw [made]
  exact documented.stores _ _ titled subject nonempty writable

/-- Git reads back the trailers of the builder, in order, and no others. -/
theorem parsed_buildCommitMessage (documented : git.Documented) (titled : Titled fields.subject)
    (plain : '\n' ∉ fields.confidence) (built : buildCommitMessage fields = .ok message)
    (whole : 0 ∉ utf8 message) :
    git.parsed (git.stored (utf8 message)) = unlines ((fields.pairs.map trailerBytes).map
      fun trailer => trailerLine (trailer.1, trim trailer.2)) := by
  obtain ⟨-, subject, writable⟩ := writable_of_built plain built whole
  have nonempty : fields.pairs.map trailerBytes ≠ [] := by simp [CommitFields.pairs]
  have shorter : ∀ {byte}, byte ∉ utf8 fields.subject → byte ∉ trimEnd (utf8 fields.subject) :=
    fun absent member => absent ((List.rdropWhile_prefix isBlank _).subset member)
  rw [stored_buildCommitMessage documented titled plain built whole]
  exact documented.parses _ _ titled ⟨shorter subject.1, shorter subject.2⟩ nonempty writable

end Asked

end DataOlympus.Publish
