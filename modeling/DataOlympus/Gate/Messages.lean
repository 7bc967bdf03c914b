import DataOlympus.Gate.Validate

/-!
# What the messages of the gate quote

The messages of `validate_postimage` quote values of the front matter: an enumerated field
that is out of vocabulary, an id that is taken, a target that does not resolve, and what the
loader says about a broken block.  A message can be encoded exactly if what it quotes can.
-/

namespace DataOlympus

open Lines

namespace Runtime

variable (runtime : Runtime) (config : GateConfig)

/-- What the gate would quote of a front matter can be encoded. -/
structure Quotable (entries : Mapping) (targetPath : RelPath)
    (idMap : Option (List (PyStr × RelPath))) (worktree : Option Worktree) : Prop where
  /-- An enumerated field that is a string. -/
  enums : targetPath.isReserved = false → ∀ field ∈ enumFields, ∀ s,
    entries.present field.1 = some (.str s) → s.encodable = true
  /-- The id, where another path has it. -/
  id : collisionPath (effectiveDocId entries targetPath) targetPath idMap worktree ≠ none →
    (effectiveDocId entries targetPath).encodable = true
  /-- A new target that does not resolve, unless it is redacted. -/
  targets : targetPath.isReserved = false → ∀ tree snapshot ids, worktree = some tree →
    tree.snapshot = some snapshot →
    runtime.resultMembership snapshot targetPath entries [] = .ok ids →
    ∀ field ∈ relationshipFields,
    ∀ edge ∈ (relationshipErrors config field entries ((snapshot.lookup targetPath).getD [])).2,
      edge.2 ∉ ids → config.scanSecrets edge.2 = none → edge.2.encodable = true

/-- What the gate would quote of a postimage can be encoded. -/
def QuotesEncodable (targetPath : RelPath) (postimage : Text)
    (idMap : Option (List (PyStr × RelPath))) (worktree : Option Worktree) : Prop :=
  match runtime.parseFrontmatter postimage with
  | .error (.valueError message) => message.encodable = true
  | .error _ => True
  | .ok (entries, _) => runtime.Quotable config entries targetPath idMap worktree

variable {runtime config}

/-- Every message can be encoded. -/
def Encodable (errors : List ValidationError) : Prop :=
  ∀ error ∈ errors, error.message.encodable = true

theorem encodable_append_iff {first second : List ValidationError} :
    Encodable (first ++ second) ↔ Encodable first ∧ Encodable second :=
  List.forall_mem_append

theorem encodable_nil : Encodable [] :=
  List.forall_mem_nil _

theorem encodable_sortedText (names : List String) : (sortedText names).encodable = true := by
  unfold sortedText
  rw [PyStr.encodable_append, PyStr.encodable_append, PyStr.encodable_join (PyStr.encodable_lit _)]
  simp

/-- Only a string has a text that cannot be encoded. -/
theorem encodable_str {value : Value} {shown : PyStr} (text : runtime.str value = .ok shown)
    (strings : ∀ s, value = .str s → s.encodable = true) : shown.encodable = true := by
  unfold str at text
  split at text
  · cases text
    exact PyStr.encodable_lit _
  · cases text
    exact PyStr.encodable_lit _
  · cases text
    exact PyStr.encodable_lit _
  · cases text
    exact strings _ rfl
  · split at text
    · cases text
      exact PyStr.encodable_ofText _
    · cases text

/-- The message about an enumerated field. -/
theorem encodable_enumErrors_iff {entries : Mapping} {field : String} {allowed : List String}
    {errors : List ValidationError} (found : runtime.enumErrors entries field allowed = .ok errors) :
    Encodable errors ↔ ∀ s, entries.present field = some (.str s) → s.encodable = true := by
  unfold enumErrors at found
  cases here : entries.present field with
  | none =>
      rw [here] at found
      cases found
      exact iff_of_true encodable_nil nofun
  | some value =>
      simp only [here] at found
      split_ifs at found with unhashable known
      · cases found
        apply iff_of_true encodable_nil
        rintro s ⟨⟩
        obtain ⟨name, -, isName⟩ := List.any_eq_true.mp known
        rw [of_decide_eq_true isName]
        exact PyStr.encodable_lit name
      · obtain ⟨shown, text, rest⟩ := Except.bind_eq_ok_iff.mp found
        cases rest
        simp only [Encodable, List.mem_singleton, forall_eq, PyStr.encodable_append,
          PyStr.encodable_lit, encodable_sortedText, Bool.true_and, Bool.and_true,
          Option.some.injEq]
        constructor
        · rintro shownOk s rfl
          cases text
          exact shownOk
        · exact encodable_str text

/-- The message about an id. -/
theorem encodable_duplicateIdErrors_iff {entries : Mapping} {targetPath : RelPath}
    {idMap : Option (List (PyStr × RelPath))} {worktree : Option Worktree} :
    Encodable (duplicateIdErrors entries targetPath idMap worktree) ↔
      (collisionPath (effectiveDocId entries targetPath) targetPath idMap worktree ≠ none →
        (effectiveDocId entries targetPath).encodable = true) := by
  simp only [duplicateIdErrors, effectiveDocId_ne_nil, Bool.false_eq_true, if_false]
  cases collisionPath (effectiveDocId entries targetPath) targetPath idMap worktree with
  | none => exact iff_of_true encodable_nil fun absent => absurd rfl absent
  | some other => simp [Encodable]

/-- The message about a new document. -/
theorem encodable_missingStatusErrors (config : GateConfig) (entries : Mapping)
    (targetPath : RelPath) (idMap : Option (List (PyStr × RelPath)))
    (worktree : Option Worktree) :
    Encodable (missingStatusErrors config entries targetPath idMap worktree) := by
  unfold missingStatusErrors
  split
  · simp [Encodable]
  · exact encodable_nil

/-- The message about a malformed field. -/
theorem encodable_relationshipErrors (field : RelationshipField) (entries preimage : Mapping) :
    Encodable (relationshipErrors config field entries preimage).1 := by
  unfold relationshipErrors
  split
  · exact encodable_nil
  · dsimp only
    split
    · split
      · exact encodable_nil
      · cases field.listOrScalar <;> simp [Encodable]
    · exact encodable_nil

theorem encodable_safeTarget_iff {target : PyStr} :
    (safeTarget config target).encodable = true ↔
      (config.scanSecrets target = none → target.encodable = true) := by
  unfold safeTarget
  cases config.scanSecrets target <;> simp

/-- The messages about the enumerated fields. -/
theorem encodable_vocabularyErrors_iff {entries : Mapping} {targetPath : RelPath}
    {errors : List ValidationError}
    (found : runtime.vocabularyErrors entries targetPath = .ok errors) :
    Encodable errors ↔ (targetPath.isReserved = false → ∀ field ∈ enumFields, ∀ s,
      entries.present field.1 = some (.str s) → s.encodable = true) := by
  unfold vocabularyErrors at found
  cases reserved : targetPath.isReserved with
  | true =>
      rw [reserved, if_pos rfl] at found
      cases found
      exact iff_of_true encodable_nil nofun
  | false =>
      rw [reserved, if_neg Bool.false_ne_true] at found
      obtain ⟨rounds, loop, rfl⟩ := Except.map_eq_ok_iff.mp found
      constructor
      · intro encodable _ field member
        obtain ⟨some_errors, roundIn, round⟩ := Except.mem_mapM_of_mem loop member
        apply (encodable_enumErrors_iff round).mp
        intro error errorIn
        exact encodable error (List.mem_flatten.mpr ⟨some_errors, roundIn, errorIn⟩)
      · intro strings error errorIn
        obtain ⟨some_errors, roundIn, here⟩ := List.mem_flatten.mp errorIn
        obtain ⟨field, member, round⟩ := Except.exists_of_mem_mapM loop roundIn
        exact (encodable_enumErrors_iff round).mpr (strings rfl field member) error here

/-- The messages about targets that do not resolve. -/
theorem encodable_supersessionErrors_iff {entries : Mapping} {targetPath : RelPath}
    {snapshot : Snapshot} {errors : List ValidationError}
    (found : runtime.supersessionErrors config entries targetPath (some snapshot) [] =
      .ok errors) :
    Encodable errors ↔ ∀ ids, runtime.resultMembership snapshot targetPath entries [] = .ok ids →
      ∀ field ∈ relationshipFields,
      ∀ edge ∈ (relationshipErrors config field entries ((snapshot.lookup targetPath).getD [])).2,
        edge.2 ∉ ids → config.scanSecrets edge.2 = none → edge.2.encodable = true := by
  have shapes : Encodable ((relationshipFields.map fun field =>
      relationshipErrors config field entries
        ((snapshot.lookup targetPath).getD [])).flatMap Prod.fst) := by
    intro error member
    obtain ⟨pair, pairIn, here⟩ := List.mem_flatMap.mp member
    obtain ⟨field, -, rfl⟩ := List.mem_map.mp pairIn
    exact encodable_relationshipErrors field entries _ error here
  unfold supersessionErrors at found
  split at found
  · rename_i none
    cases found
    apply iff_of_true encodable_nil
    intro ids _ field member edge edgeIn
    have absent := List.filter_eq_nil_iff.mp none field member
    unfold relationshipErrors at edgeIn
    split at edgeIn
    · cases edgeIn
    · rename_i value present
      rw [present] at absent
      exact absurd rfl absent
  · dsimp only at found
    split at found
    · rename_i nothing
      cases found
      apply iff_of_true shapes
      intro ids _ field member edge edgeIn
      have nothingNew := List.flatMap_eq_nil_iff.mp (List.isEmpty_iff.mp nothing) _
        (List.mem_map.mpr ⟨field, member, rfl⟩)
      rw [nothingNew] at edgeIn
      cases edgeIn
    · obtain ⟨ids, expected, rest⟩ := Except.bind_eq_ok_iff.mp found
      cases rest
      rw [encodable_append_iff, and_iff_right shapes]
      constructor
      · intro encodable others same field member edge edgeIn unresolved clean
        cases expected.symm.trans same
        have round : relationshipErrors config field entries
            ((snapshot.lookup targetPath).getD []) ∈ relationshipFields.map fun field =>
              relationshipErrors config field entries ((snapshot.lookup targetPath).getD []) :=
          List.mem_map.mpr ⟨field, member, rfl⟩
        have added := List.mem_flatMap.mpr ⟨_, round, edgeIn⟩
        have message := encodable _ (List.mem_map_of_mem
          (List.mem_filter.mpr ⟨added, by simpa using unresolved⟩))
        simp only [PyStr.encodable_append, PyStr.encodable_lit, Bool.true_and,
          Bool.and_true] at message
        exact encodable_safeTarget_iff.mp message clean
      · intro quotes error errorIn
        obtain ⟨edge, kept, rfl⟩ := List.mem_map.mp errorIn
        obtain ⟨added, unresolved⟩ := List.mem_filter.mp kept
        obtain ⟨pair, pairIn, edgeIn⟩ := List.mem_flatMap.mp added
        obtain ⟨field, member, rfl⟩ := List.mem_map.mp pairIn
        simp only [PyStr.encodable_append, PyStr.encodable_lit, Bool.true_and, Bool.and_true]
        exact encodable_safeTarget_iff.mpr
          (quotes ids expected field member edge edgeIn (of_decide_eq_true unresolved))

/-- The messages about relationships. -/
theorem encodable_relationErrors_iff {entries : Mapping} {targetPath : RelPath}
    {worktree : Option Worktree} {errors : List ValidationError}
    (found : runtime.relationErrors config entries targetPath worktree [] = .ok errors) :
    Encodable errors ↔ (targetPath.isReserved = false → ∀ tree snapshot ids,
      worktree = some tree → tree.snapshot = some snapshot →
      runtime.resultMembership snapshot targetPath entries [] = .ok ids →
      ∀ field ∈ relationshipFields,
      ∀ edge ∈ (relationshipErrors config field entries ((snapshot.lookup targetPath).getD [])).2,
        edge.2 ∉ ids → config.scanSecrets edge.2 = none → edge.2.encodable = true) := by
  unfold relationErrors at found
  cases worktree with
  | none =>
      cases found
      exact iff_of_true encodable_nil nofun
  | some tree =>
      dsimp only at found
      cases reserved : targetPath.isReserved with
      | true =>
          rw [reserved, if_pos rfl] at found
          cases found
          exact iff_of_true encodable_nil nofun
      | false =>
          rw [reserved, if_neg Bool.false_ne_true] at found
          cases read : tree.snapshot with
          | none =>
              rw [read] at found
              apply iff_of_true
              · unfold supersessionErrors at found
                split at found
                · cases found
                  exact encodable_nil
                · cases found
                  simp [Encodable]
              · rintro - tree snapshot ids ⟨⟩ here
                rw [read] at here
                cases here
          | some snapshot =>
              rw [read] at found
              rw [encodable_supersessionErrors_iff found]
              constructor
              · rintro quotes - tree other ids ⟨⟩ here expected
                cases read.symm.trans here
                exact quotes ids expected
              · intro quotes ids expected
                exact quotes rfl tree snapshot ids rfl read expected

/-- The messages of the gate can be encoded exactly if what they quote can. -/
theorem encodable_validatePostimage_iff {targetPath : RelPath} {postimage : Text}
    {idMap : Option (List (PyStr × RelPath))} {worktree : Option Worktree}
    {errors : List ValidationError}
    (found : runtime.validatePostimage config targetPath postimage idMap worktree [] =
      .ok errors) :
    Encodable errors ↔ runtime.QuotesEncodable config targetPath postimage idMap worktree := by
  unfold validatePostimage at found
  unfold QuotesEncodable
  cases parsed : runtime.parseFrontmatter postimage with
  | error raised =>
      cases raised with
      | valueError message =>
          rw [parsed] at found
          cases found
          simp [Encodable]
      | unhashable =>
          rw [parsed] at found
          cases found
      | loader message =>
          rw [parsed] at found
          cases found
  | ok result =>
      obtain ⟨entries, body⟩ := result
      simp only [parsed] at found
      obtain ⟨vocabulary, vocabularyOk, rest⟩ := Except.bind_eq_ok_iff.mp found
      obtain ⟨relations, relationsOk, rest⟩ := Except.bind_eq_ok_iff.mp rest
      cases rest
      rw [encodable_append_iff, encodable_append_iff, encodable_append_iff,
        encodable_vocabularyErrors_iff vocabularyOk, encodable_duplicateIdErrors_iff,
        encodable_relationErrors_iff relationsOk,
        and_iff_left (encodable_missingStatusErrors config entries targetPath idMap worktree)]
      constructor
      · rintro ⟨⟨enums, id⟩, targets⟩
        exact ⟨enums, id, targets⟩
      · rintro ⟨enums, id, targets⟩
        exact ⟨⟨enums, id⟩, targets⟩

end Runtime

end DataOlympus
