import DataOlympus.Select.Surplus
import DataOlympus.Text.Match
import DataOlympus.Text.Splitlines
import Mathlib.Algebra.BigOperators.Group.Finset.Basic

/-!
# Writing rules on added lines

A write is checked on the lines it adds: those that occur more often afterwards than before.
The scan counts the lines it has passed, so the findings are those of the difference of two
multisets of lines.
-/

namespace DataOlympus

open Lines Select

/-- A rule on raw lines: its name, and where `finditer` finds its pattern in a line. -/
structure RawRule where
  name : Text
  finditer : Text → List (Nat × Nat)

/-- `Finding`. -/
structure WritingFinding where
  line : Nat
  rule : Text
  excerpt : Text
  deriving DecidableEq

/-- `CURLY`. -/
def curly : List (Char × Char) :=
  [('’', '\''), ('‘', '\''), ('“', '"'), ('”', '"')]

/-- A typographic quote is folded. -/
def foldQuote (c : Char) : Char :=
  (curly.lookup c).getD c

/-- `normalise`. -/
def normalise (text : Text) : Text :=
  text.map foldQuote

/-- `_EXCERPT_RADIUS`. -/
def excerptRadius : Nat := 30

section Scan

variable (rules : List RawRule) (allow : Text → Bool)

/-- The matches of the rules in a line, unless it ends in the allow marker. -/
def lineMatches (line : Text) : List (RawRule × Nat × Nat) :=
  if allow line then []
  else rules.flatMap fun rule => (rule.finditer line).map fun span => (rule, span)

/-- The finding of a match in the line of this number. -/
def findingOf (number : Nat) (line : Text) (found : RawRule × Nat × Nat) : WritingFinding where
  line := number
  rule := found.1.name
  excerpt := strip ((line.take (found.2.2 + excerptRadius)).drop (found.2.1 - excerptRadius))

/-- The loop of `added_line_findings`, at the line of this number. -/
def scanLines (before : Text → Nat) : (Text → Nat) → Nat → List Text → List WritingFinding
  | _, _, [] => []
  | seen, number, line :: rest =>
      let passed := Function.update seen line (seen line + 1)
      if passed line ≤ before line then scanLines before passed (number + 1) rest
      else
        (lineMatches rules allow line).map (findingOf number line) ++
          scanLines before passed (number + 1) rest

/-- `added_line_findings(preimage, postimage)`. -/
def addedLineFindings (preimage postimage : Text) : List WritingFinding :=
  scanLines rules allow (copies (splitlines (normalise preimage))) (fun _ => 0) 1
    (splitlines (normalise postimage))

/-- The lines that are compared. -/
def comparedLines (text : Text) : List Text :=
  splitlines (normalise text)

/-- The lines that a write adds. -/
def addedLines (preimage postimage : Text) : List Text :=
  surplus (copies (comparedLines preimage)) (fun _ => 0) (comparedLines postimage)

/-- The text of the line a finding is about, and the rule. -/
def WritingFinding.subject (lines : List Text) (finding : WritingFinding) : Text × Text :=
  (lines.getD (finding.line - 1) [], finding.rule)

/-- The lines and the rules of the findings. -/
def findingSubjects (preimage postimage : Text) : List (Text × Text) :=
  (addedLineFindings rules allow preimage postimage).map
    (WritingFinding.subject (comparedLines postimage))

/-- The subjects of the findings in one line. -/
def lineSubjects (line : Text) : List (Text × Text) :=
  (lineMatches rules allow line).map fun found => (line, found.1.name)

/-- The loop finds the matches of the surplus lines. -/
theorem subjects_scanLines (before seen : Text → Nat) (earlier lines : List Text) :
    (scanLines rules allow before seen (earlier.length + 1) lines).map
        (WritingFinding.subject (earlier ++ lines)) =
      (surplus before seen lines).flatMap (lineSubjects rules allow) := by
  induction lines generalizing seen earlier with
  | nil => rfl
  | cons line rest ih =>
      have later := ih (Function.update seen line (seen line + 1)) (earlier ++ [line])
      rw [List.append_assoc, List.singleton_append, List.length_append,
        List.length_singleton] at later
      have here : (lineMatches rules allow line).map
          (WritingFinding.subject (earlier ++ line :: rest) ∘
            findingOf (earlier.length + 1) line) = lineSubjects rules allow line := by
        apply List.map_congr_left
        intro found _
        simp [WritingFinding.subject, findingOf]
      rw [scanLines, surplus, Function.update_self]
      split
      · exact later
      · rw [List.map_append, List.map_map, here, later, List.flatMap_cons]

theorem findingSubjects_eq (preimage postimage : Text) :
    findingSubjects rules allow preimage postimage =
      (addedLines preimage postimage).flatMap (lineSubjects rules allow) :=
  subjects_scanLines rules allow _ _ [] (comparedLines postimage)

end Scan

/-- A character that is folded ends no line, and neither does what it becomes. -/
theorem foldQuote_eq_or (c : Char) : foldQuote c = c ∨
    isLineBreak c = false ∧ isLineBreak (foldQuote c) = false := by
  unfold foldQuote
  cases found : curly.lookup c with
  | none => exact .inl rfl
  | some folded =>
      have plain : ∀ pair ∈ curly, isLineBreak pair.1 = false ∧ isLineBreak pair.2 = false := by
        decide
      obtain ⟨first, last, split, -⟩ := List.lookup_eq_some_iff.mp found
      apply Or.inr
      apply plain (c, folded)
      rw [split]
      exact List.mem_append_right _ List.mem_cons_self

/-- Folding quotes works line by line. -/
theorem comparedLines_eq (text : Text) : comparedLines text = (splitlines text).map normalise := by
  apply splitlines_map
  · intro c plain
    rcases foldQuote_eq_or c with same | ⟨-, folded⟩
    · rwa [same]
    · exact folded
  · intro c ends
    rcases foldQuote_eq_or c with same | ⟨plain, -⟩
    · exact same
    · rw [plain] at ends
      cases ends

/-- The number of findings is a sum over the distinct lines of a write, of the copies it adds
and the matches in each.  Which lines are found for which rule does not depend on the order of
the lines, and a write whose lines were all there before has no finding. -/
theorem findings_are_those_of_added_lines (rules : List RawRule) (allow : Text → Bool)
    (preimage postimage : Text) :
    (addedLineFindings rules allow preimage postimage).length =
        ∑ line ∈ (comparedLines postimage).toFinset,
          (copies (comparedLines postimage) line - copies (comparedLines preimage) line) *
            (lineMatches rules allow line).length ∧
      (∀ preimage' postimage', (splitlines preimage').Perm (splitlines preimage) →
        (splitlines postimage').Perm (splitlines postimage) →
        (findingSubjects rules allow preimage' postimage').Perm
          (findingSubjects rules allow preimage postimage)) ∧
      ((splitlines postimage).Subperm (splitlines preimage) →
        addedLineFindings rules allow preimage postimage = []) := by
  have length : (addedLineFindings rules allow preimage postimage).length =
      ((addedLines preimage postimage).flatMap (lineSubjects rules allow)).length := by
    rw [← findingSubjects_eq, findingSubjects, List.length_map]
  refine ⟨?_, ?_, ?_⟩
  · rw [length, addedLines, length_flatMap_surplus]
    simp only [lineSubjects, List.length_map]
  · intro preimage' postimage' before after
    rw [findingSubjects_eq, findingSubjects_eq]
    apply List.Perm.flatMap_right
    apply surplus_perm
    · rw [comparedLines_eq, comparedLines_eq]
      exact before.map normalise
    · rw [comparedLines_eq, comparedLines_eq]
      exact after.map normalise
  · intro part
    apply List.eq_nil_of_length_eq_zero
    have none : addedLines preimage postimage = [] := by
      apply surplus_eq_nil
      rw [comparedLines_eq, comparedLines_eq]
      obtain ⟨kept, permuted, sublist⟩ := part
      exact ⟨kept.map normalise, permuted.map normalise, sublist.map normalise⟩
    rw [length, none, List.flatMap_nil, List.length_nil]

/-- The first of the raw rules. -/
def emDash : RawRule where
  name := "em-dash".toList
  finditer line := (line.findIdxs (· = '—')).map fun start => (start, start + 1)

/-- A line with a dash is added to the one that was there, and the lines change places. -/
theorem added_dash_is_found :
    (addedLineFindings [emDash] (fun _ => false) "a—b\nc\n".toList
        "c\na—b\na—b".toList).length =
      ∑ line ∈ (comparedLines "c\na—b\na—b".toList).toFinset,
        (copies (comparedLines "c\na—b\na—b".toList) line -
            copies (comparedLines "a—b\nc\n".toList) line) *
          (lineMatches [emDash] (fun _ => false) line).length ∧
      addedLineFindings [emDash] (fun _ => false) "a—b\nc\n".toList "c\na—b\na—b".toList =
        [⟨3, "em-dash".toList, "a—b".toList⟩] ∧
      addedLineFindings [emDash] (fun _ => false) "a—b\nc\n".toList "c\na—b".toList = [] := by
  obtain ⟨length, -, -⟩ := findings_are_those_of_added_lines [emDash] (fun _ => false)
    "a—b\nc\n".toList "c\na—b\na—b".toList
  obtain ⟨-, -, part⟩ := findings_are_those_of_added_lines [emDash] (fun _ => false)
    "a—b\nc\n".toList "c\na—b".toList
  exact ⟨length, by decide, part (by decide)⟩

/-! ## The gate -/

/-- `Mode`. -/
inductive WritingMode where
  | enforce
  | warn
  | off
  deriving DecidableEq

/-- `WritingRulesPolicy`. -/
structure WritingRulesPolicy where
  mode : WritingMode
  excludePaths : List Text

/-- `excludes`. -/
def WritingRulesPolicy.excludes (policy : WritingRulesPolicy) (targetPath : Text) : Bool :=
  policy.excludePaths.any (fnmatch targetPath)

/-- `Finding.render`. -/
def WritingFinding.render (finding : WritingFinding) : Text :=
  "line ".toList ++ Nat.toDigits 10 finding.line ++ ": ".toList ++ finding.rule ++
    ": ".toList ++ finding.excerpt

/-- A rejection with the status `rejected_writing_rule`. -/
structure WritingRejection where
  targetPath : Text
  reason : Text
  findings : List Text

/-- `_writing_rule_gate`, where reading the preimage may fail. -/
def writingRuleGate (rules : List RawRule) (allow : Text → Bool)
    (policy : Option WritingRulesPolicy) (targetPath : Text) (preimage : Except Text Text)
    (postimage : Text) : Except WritingRejection (List Text) :=
  match policy with
  | none => .ok []
  | some policy =>
      if policy.mode = .off ∨ policy.excludes targetPath then .ok []
      else
        match preimage with
        | .error raised =>
            let reason := "writing-rule check failed: ".toList ++ raised
            if policy.mode = .enforce then .error ⟨targetPath, reason, []⟩ else .ok [reason]
        | .ok preimage =>
            let findings :=
              (addedLineFindings rules allow preimage postimage).map WritingFinding.render
            if findings.isEmpty then .ok []
            else if policy.mode = .enforce then
              .error ⟨targetPath, Nat.toDigits 10 findings.length ++
                " writing-rule finding(s) on added lines; rewrite them, or end a genuine ".toList
                ++ "quotation with <!-- prose-lint: allow -->".toList, findings⟩
            else .ok findings

/-- A write is rejected only in the enforcing mode, if the target cannot be read or an added
line has a finding. -/
theorem writingRuleGate_rejects_iff {rules : List RawRule} {allow : Text → Bool}
    {policy : WritingRulesPolicy} {targetPath postimage : Text} {preimage : Except Text Text} :
    (∃ rejection, writingRuleGate rules allow (some policy) targetPath preimage postimage =
      .error rejection) ↔
      policy.mode = .enforce ∧ policy.excludes targetPath = false ∧
        ∀ text, preimage = .ok text → addedLineFindings rules allow text postimage ≠ [] := by
  unfold writingRuleGate
  dsimp only
  cases mode : policy.mode with
  | off => simp
  | warn =>
      cases policy.excludes targetPath <;> cases preimage <;> simp
      split <;> simp
  | enforce =>
      cases policy.excludes targetPath with
      | true => simp
      | false =>
          cases preimage with
          | error raised => simp
          | ok text =>
              cases found : addedLineFindings rules allow text postimage <;> simp [found]

end DataOlympus
