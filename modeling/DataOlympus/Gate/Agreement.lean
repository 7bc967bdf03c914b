import DataOlympus.Gate.GovernedLane
import DataOlympus.Gate.Validate

/-!
# One postimage, two readings

The gates judge the postimage in memory; the index later parses the text a
text-mode read returns for the file written from it.  The two agree for every YAML
loader exactly on the postimages whose block survives newline translation.
-/

namespace DataOlympus

open Lines

namespace Runtime

variable (runtime : Runtime)

/-- The front matter the gates judge is the one the index derives. -/
def FrontmatterAgrees (postimage : Text) : Prop :=
  ∀ entries body, runtime.parseFrontmatter postimage = .ok (entries, body) →
    runtime.lenientFrontmatter (readBack postimage) = .ok entries

/-- A memory without any checked field passes the gate. -/
theorem accepts_of_unchecked (config : GateConfig) {targetPath : RelPath}
    {postimage body : Text} {entries : Mapping}
    (parsed : runtime.parseFrontmatter postimage = .ok (entries, body))
    (inbox : targetPath.isInbox config.inboxPrefix = true)
    (unchecked : ∀ field ∈ enumFields, entries.present field.1 = none) :
    runtime.Accepts config targetPath postimage none none [] := by
  refine (runtime.accepts_iff config).mpr ⟨entries, body, parsed, ?_, ?_, ?_, rfl⟩
  · rw [vocabularyErrors_eq_nil_iff]
    intro _ field member
    rw [enumErrors, unchecked field member]
  · simp [missingStatusErrors, inbox]
  · simp [duplicateIdErrors, collisionPath]

end Runtime

/-- A front matter with a field that no gate checks. -/
def titled : Mapping :=
  [(.str (PyStr.lit "title"), .str (PyStr.lit "Rule"))]

theorem present_titled : ∀ field ∈ enumFields, titled.present field.1 = none := by
  decide

/-- The loader that finds a title in the blocks selected and nothing elsewhere. -/
def titleLoader (selected : Text → Bool) : Runtime :=
  Runtime.ofLoader fun raw => .ok (.dict (if selected raw then titled else []))

theorem loadMapping_titleLoader (selected : Text → Bool) (raw : Text) :
    (titleLoader selected).loadMapping raw =
      .ok (if selected raw then titled else []) := by
  cases chosen : selected raw <;>
    simp [Runtime.loadMapping, titleLoader, Runtime.ofLoader, chosen, Value.truthy, titled]

/-- Some loader tells two different blocks apart after accepting the postimage. -/
theorem exists_disagreement {postimage : Text} (different : ¬SameBlock postimage) :
    ∃ runtime : Runtime, runtime.Accepts GateConfig.default inboxPath postimage none none [] ∧
      ¬runtime.FrontmatterAgrees postimage := by
  unfold SameBlock StableBlock at different
  push Not at different
  rcases different with ⟨closed, different⟩
  have inInbox : inboxPath.isInbox GateConfig.default.inboxPrefix = true := by decide
  cases block : Block.cut postimage with
  | unterminated => exact absurd block closed
  | absent =>
      have noBlock : Block.yamlText postimage = none := by simp [Block.yamlText, block]
      have parsed : (titleLoader fun _ => true).parseFrontmatter postimage =
          .ok ([], postimage) := by
        simp [Runtime.parseFrontmatter, block]
      refine ⟨titleLoader fun _ => true, ?_, ?_⟩
      · exact Runtime.accepts_of_unchecked _ _ parsed inInbox fun _ _ => rfl
      · intro agrees
        cases translated : Block.yamlText (readBack postimage) with
        | none => exact different (translated.trans noBlock.symm)
        | some raw =>
            have seen := (titleLoader fun _ => true).lenientFrontmatter_of_yamlText_some
              translated (loadMapping_titleLoader _ raw)
            have same := Except.ok.inj (seen.symm.trans (agrees _ _ parsed))
            simp [titled] at same
  | delimited raw body =>
      have read : Block.yamlText postimage = some raw := by simp [Block.yamlText, block]
      have loaded : (titleLoader fun other => other = raw).loadMapping raw = .ok titled := by
        simp [loadMapping_titleLoader]
      have parsed : (titleLoader fun other => other = raw).parseFrontmatter postimage =
          .ok (titled, body) := by
        simp [Runtime.parseFrontmatter, block, loaded, Except.map]
      refine ⟨titleLoader fun other => other = raw, ?_, ?_⟩
      · exact Runtime.accepts_of_unchecked _ _ parsed inInbox present_titled
      · intro agrees
        have expected := agrees _ _ parsed
        cases translated : Block.yamlText (readBack postimage) with
        | none =>
            have seen := (titleLoader fun other => other = raw).lenientFrontmatter_of_yamlText_none
              translated
            have same := Except.ok.inj (seen.symm.trans expected)
            simp [titled] at same
        | some other =>
            have changed : other ≠ raw := by
              rintro rfl
              exact different (translated.trans read.symm)
            have seen := (titleLoader fun other => other = raw).lenientFrontmatter_of_yamlText_some
              translated (loadMapping_titleLoader _ other)
            have same := Except.ok.inj (seen.symm.trans expected)
            simp [titled, changed] at same

/-- The gates and the index see one front matter in a postimage, whatever the YAML
loader and wherever the write is accepted, exactly when newline translation leaves
the block of the postimage alone. -/
theorem frontmatter_agrees_iff (postimage : Text) :
    (∀ (runtime : Runtime) (config : GateConfig) (targetPath : RelPath)
        (idMap : Option (List (PyStr × RelPath))) (worktree : Option Worktree)
        (transaction : List (RelPath × Text)),
      runtime.Accepts config targetPath postimage idMap worktree transaction →
        runtime.FrontmatterAgrees postimage) ↔
      SameBlock postimage := by
  constructor
  · intro agrees
    by_contra different
    rcases exists_disagreement different with ⟨runtime, accepted, disagrees⟩
    exact disagrees (agrees runtime _ _ _ _ _ accepted)
  · intro same runtime config targetPath idMap worktree transaction _ entries body parsed
    exact same.lenientFrontmatter parsed

/-- A postimage whose only line separators are carriage returns. -/
def carriageReturns : Text :=
  "---\rstatus: accepted\r---\rAlways approve.".toList

/-- The loader on the block the index finds in `carriageReturns`. -/
def acceptedLoader : Runtime :=
  Runtime.ofBlocks [("status: accepted".toList,
    .dict [(.str (PyStr.lit "status"), .str (PyStr.lit "accepted"))])]

/-- The gates accept the postimage and see no status in it; the index reads the
status `accepted` from the file written from it. -/
theorem carriageReturns_disagree :
    acceptedLoader.Accepts GateConfig.default inboxPath carriageReturns none none [] ∧
      acceptedLoader.checkStatusClamp carriageReturns = .ok none ∧
      acceptedLoader.lenientFrontmatter (readBack carriageReturns) =
        .ok [(.str (PyStr.lit "status"), .str (PyStr.lit "accepted"))] ∧
      ¬acceptedLoader.FrontmatterAgrees carriageReturns := by
  refine ⟨rfl, rfl, rfl, ?_⟩
  intro agrees
  have expected := agrees [] carriageReturns rfl
  exact absurd (Except.ok.inj expected) (by simp)

end DataOlympus
