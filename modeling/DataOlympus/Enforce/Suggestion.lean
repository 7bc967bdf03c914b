import DataOlympus.Enforce.Coverage
import Mathlib.Algebra.Order.BigOperators.Group.List
import Mathlib.Algebra.Order.Ring.Nat
import Mathlib.Data.List.Dedup

/-!
# The suggested consult

A denial suggests an intent.  Whether a consult with that intent clears the gate turns on
reading the rendered signals back from a text that may be cut.
-/

namespace DataOlympus

open Lines Python Transition

/-! ## Reading a rendered part back -/

/-- The first piece of a glued text leads. -/
theorem exists_intercalate_cons (separator piece : Text) (pieces : List Text) :
    ∃ last, separator.intercalate (piece :: pieces) = piece ++ last := by
  cases pieces with
  | nil => exact ⟨[], by simp [List.intercalate]⟩
  | cons next rest =>
      rw [List.intercalate_cons_of_ne_nil (List.cons_ne_nil next rest), List.append_assoc]
      exact ⟨_, rfl⟩

/-- The length of a glued text. -/
theorem length_intercalate_le (separator : Text) (pieces : List Text) :
    (separator.intercalate pieces).length ≤
      (pieces.map fun piece => piece.length + separator.length).sum - separator.length := by
  induction pieces with
  | nil => exact Nat.zero_le _
  | cons head pieces ih =>
      cases pieces with
      | nil => simp [List.intercalate]
      | cons next rest =>
          rw [List.intercalate_cons_of_ne_nil (List.cons_ne_nil next rest), List.map_cons,
            List.sum_cons]
          rw [List.map_cons, List.sum_cons] at ih ⊢
          simp only [List.length_append]
          omega

/-- A path that some quote character can surround. -/
def quotable (path : Text) : Bool :=
  ['"', '\'', '\x60'].any fun c => c ∉ path

/-- The quote character of a path that is quotable does not occur in it. -/
theorem exists_quote {value : Text} (surroundable : quotable value = true) :
    ∃ q, isQuote q = true ∧ q ∉ value ∧ quote value = q :: (value ++ [q]) := by
  obtain ⟨c, listed, absent⟩ := List.any_eq_true.mp surroundable
  obtain ⟨q, found⟩ : ∃ q, ['"', '\'', '\x60'].find? (fun c => c ∉ value) = some q :=
    Option.isSome_iff_exists.mp (List.find?_isSome.mpr ⟨c, listed, absent⟩)
  have quoting : ∀ d ∈ ['"', '\'', '\x60'], isQuote d = true := by
    intro d member
    simp only [List.mem_cons, List.not_mem_nil, or_false] at member
    obtain rfl | rfl | rfl := member <;> rfl
  refine ⟨q, quoting q (List.mem_of_find?_eq_some found), ?_, ?_⟩
  · have chosen := List.find?_some found
    exact of_decide_eq_true chosen
  · simp only [quote, found]
    rfl

/-- Quoting surrounds with one character. -/
theorem exists_quote_eq (value : Text) : ∃ q, quote value = q :: (value ++ [q]) :=
  ⟨_, rfl⟩

section Parts

variable {unicode : Unicode} {classifier : Classifier} {actionPath : Option Text}
  {uncovered : List Signal} {signal : Signal} {part : Text}
  {parts : List Text}

/-- The loop collects the part of every signal. -/
theorem mem_addParts : part ∈ addParts classifier actionPath parts uncovered ↔
    part ∈ parts ∨ ∃ signal ∈ uncovered, suggestPart classifier actionPath signal = part := by
  induction uncovered generalizing parts with
  | nil => simp [addParts]
  | cons signal rest ih =>
      simp only [addParts, List.exists_mem_cons_iff]
      split
      · rename_i listed
        rw [ih]
        constructor
        · rintro (before | later)
          · exact .inl before
          · exact .inr (.inr later)
        · rintro (before | rfl | later)
          · exact .inl before
          · exact .inl listed
          · exact .inr later
      · rw [ih, List.mem_append, List.mem_singleton, or_assoc, eq_comm (a := part)]

/-- It collects no part twice. -/
theorem nodup_addParts (once : parts.Nodup) :
    (addParts classifier actionPath parts uncovered).Nodup := by
  induction uncovered generalizing parts with
  | nil => exact once
  | cons signal rest ih =>
      simp only [addParts]
      split
      · exact ih once
      · rename_i fresh
        apply ih
        apply once.append (List.nodup_singleton _)
        intro old present last
        cases List.mem_singleton.mp last
        exact fresh present

theorem mem_orderedParts : part ∈ orderedParts classifier actionPath uncovered ↔
    ∃ signal ∈ uncovered, suggestPart classifier actionPath signal = part := by
  have permuted : (orderedParts classifier actionPath uncovered).Perm
      (addParts classifier actionPath [] uncovered) :=
    List.filter_append_perm _ _
  rw [permuted.mem_iff, mem_addParts]
  simp

/-- The only part that begins as an edit leads. -/
theorem exists_orderedParts (carried : signal ∈ uncovered)
    (edits : "edit ".toList.isPrefixOf (suggestPart classifier actionPath signal) = true)
    (only : ∀ other ∈ uncovered,
      "edit ".toList.isPrefixOf (suggestPart classifier actionPath other) = true →
        suggestPart classifier actionPath other = suggestPart classifier actionPath signal) :
    ∃ rest, orderedParts classifier actionPath uncovered =
      suggestPart classifier actionPath signal :: rest := by
  have leading : suggestPart classifier actionPath signal ∈
      (addParts classifier actionPath [] uncovered).filter fun part =>
        "edit ".toList.isPrefixOf part :=
    List.mem_filter.mpr ⟨mem_addParts.mpr (.inr ⟨signal, carried, rfl⟩), edits⟩
  unfold orderedParts
  cases found : (addParts classifier actionPath [] uncovered).filter fun part =>
      "edit ".toList.isPrefixOf part with
  | nil =>
      rw [found] at leading
      exact absurd leading List.not_mem_nil
  | cons first rest =>
      obtain ⟨member, starts⟩ := List.mem_filter.mp (found ▸ List.mem_cons_self :
        first ∈ (addParts classifier actionPath [] uncovered).filter fun part =>
          "edit ".toList.isPrefixOf part)
      obtain ⟨other, listed, rfl⟩ := (mem_addParts.mp member).resolve_left List.not_mem_nil
      simp only [found, only other listed starts, List.cons_append]
      exact ⟨_, rfl⟩

/-- The characters of the parts and of what separates them. -/
def renderedWidth (classifier : Classifier) (actionPath : Option Text) (uncovered : List Signal) :
    Nat :=
  (uncovered.dedup.map fun signal => (suggestPart classifier actionPath signal).length + 2).sum - 2

theorem length_suggestIntent_le :
    (suggestIntent classifier actionPath uncovered).length ≤
      renderedWidth classifier actionPath uncovered := by
  apply (length_intercalate_le _ _).trans
  apply Nat.sub_le_sub_right
  have permuted : (orderedParts classifier actionPath uncovered).Perm
      (addParts classifier actionPath [] uncovered) :=
    List.filter_append_perm _ _
  have among : (addParts classifier actionPath [] uncovered).Subperm
      (uncovered.dedup.map (suggestPart classifier actionPath)) := by
    apply List.subperm_of_subset (nodup_addParts List.nodup_nil)
    intro part member
    obtain ⟨signal, listed, rfl⟩ := (mem_addParts.mp member).resolve_left List.not_mem_nil
    exact List.mem_map_of_mem (List.mem_dedup.mpr listed)
  obtain ⟨parts, same, some_of⟩ := permuted.subperm.trans among
  have widths : ((orderedParts classifier actionPath uncovered).map fun part =>
      part.length + 2).sum = (parts.map fun part => part.length + 2).sum :=
    (same.symm.map _).sum_eq
  calc ((orderedParts classifier actionPath uncovered).map fun part => part.length + 2).sum
      = (parts.map fun part => part.length + 2).sum := widths
    _ ≤ ((uncovered.dedup.map (suggestPart classifier actionPath)).map
          fun part => part.length + 2).sum :=
        (some_of.map _).sum_le_sum fun _ _ => Nat.zero_le _
    _ = _ := by rw [List.map_map]; rfl

end Parts

/-! ## The signals that are read back -/

section ReadBack

variable {unicode : Unicode} {extras : GovernedExtras} {actionPath : Option Text}
  {uncovered : List Signal} {signal : Signal} {word first last : Text}

theorem separator_ascii {c : Char} (member : c ∈ "; ".toList) :
    c.toNat < 128 ∧ c.toLower = c ∧ c.isAlphanum = false ∧ c ≠ '_' := by
  have either : c = ';' ∨ c = ' ' := by simpa using member
  obtain rfl | rfl := either <;> decide

theorem lowered_separator : unicode.Lowered "; ".toList := by
  apply Unicode.lowered_of_ascii
  intro c member
  obtain ⟨small, lower, -, -⟩ := separator_ascii member
  exact ⟨small, lower⟩

theorem isWord_separator {c : Char} (member : c ∈ "; ".toList) : unicode.isWord c = false := by
  obtain ⟨small, -, plain, different⟩ := separator_ascii member
  rw [Unicode.isWord, unicode.alnum_ascii c small, plain, decide_eq_false different]
  rfl

/-- A word with word edges is found between separators. -/
theorem searchWord_rendered (lowered : unicode.Lowered word)
    (edges : hasWordEdges unicode.isWord word = true)
    (before : first = [] ∨ ∃ start, first = start ++ "; ".toList)
    (after : last = [] ∨ ∃ rest, last = "; ".toList ++ rest) :
    searchWord unicode.isWord word none (unicode.lower (first ++ (word ++ last))) = true := by
  have ending : ∀ text, ((unicode.lowerFrom text last).head?.any unicode.isWord) = false := by
    intro text
    obtain rfl | ⟨rest, rfl⟩ := after
    · rfl
    · rw [Unicode.lowerFrom_append_of_lowered lowered_separator]
      exact isWord_separator (by decide)
  obtain rfl | ⟨start, rfl⟩ := before
  · rw [List.nil_append, Unicode.lower, Unicode.lowerFrom_append_of_lowered lowered]
    change searchWord unicode.isWord word none ([] ++ (word ++ _)) = true
    exact searchWord_between edges rfl (ending _)
  · obtain ⟨lowerStart, split⟩ := Unicode.exists_lowerFrom_append unicode [] start
      ("; ".toList ++ (word ++ last))
    rw [Unicode.lower, List.append_assoc, split,
      Unicode.lowerFrom_append_of_lowered lowered_separator,
      Unicode.lowerFrom_append_of_lowered lowered, ← List.append_assoc]
    apply searchWord_between edges _ (ending _)
    rw [List.getLast?_append]
    exact isWord_separator (by decide)

/-- A keyword with word edges is read back. -/
theorem keyword_read_back {classifier : Classifier} (carried : .keyword word ∈ uncovered)
    (listed : word ∈ classifier.keywords) (lowered : unicode.Lowered word)
    (edges : hasWordEdges unicode.isWord word = true) :
    .keyword word ∈ classifier.coverage unicode
      (suggestIntent classifier actionPath uncovered) := by
  obtain ⟨first, last, glued, before, after⟩ := exists_intercalate "; ".toList
    (mem_orderedParts.mpr ⟨.keyword word, carried, rfl⟩ :
      word ∈ orderedParts classifier actionPath uncovered)
  apply Classifier.mem_coverage.mpr
  left
  apply Classifier.mem_keywordSignals.mpr
  refine ⟨word, listed, ?_, rfl⟩
  rw [suggestIntent, glued]
  exact searchWord_rendered lowered edges before after

/-- A command fragment is read back. -/
theorem command_read_back {classifier : Classifier} {pattern : Text}
    (carried : .command (strip pattern) ∈ uncovered) (listed : pattern ∈ classifier.commandPatterns)
    (lowered : ∀ fragment ∈ classifier.commandPatterns, unicode.Lowered fragment) :
    .command (strip pattern) ∈ classifier.coverage unicode
      (suggestIntent classifier actionPath uncovered) := by
  obtain ⟨fragment, configured, same, found⟩ := Classifier.exists_commandPattern listed
  apply Classifier.mem_coverage.mpr
  right
  left
  apply Classifier.mem_commandSignals.mpr
  refine ⟨fragment, configured, ?_, by rw [same]⟩
  by_cases nonempty : fragment = []
  · subst fragment
    exact List.nil_infix
  · obtain ⟨q, quoted⟩ := exists_quote_eq fragment
    have kept : (some fragment).filter (fun pattern : Text => !pattern.isEmpty) = some fragment := by
      simp [nonempty]
    have part : suggestPart classifier actionPath (.command (strip pattern)) =
        "run ".toList ++ q :: (fragment ++ [q]) := by
      simp only [suggestPart, found, kept, Option.getD_some, quoted]
    obtain ⟨first, last, glued, -, -⟩ := exists_intercalate "; ".toList
      (mem_orderedParts.mpr ⟨_, carried, part⟩)
    rw [suggestIntent, glued]
    have held : first ++ ("run ".toList ++ q :: (fragment ++ [q]) ++ last) =
        (first ++ "run ".toList ++ [q]) ++ (fragment ++ q :: last) := by
      simp
    rw [held]
    exact Unicode.infix_lower (lowered fragment configured) _ _

/-- A quotable path is read back: it leads the suggestion, and no keyword stands with it. -/
theorem path_read_back {classifier : Classifier} {path glob : Text} (named : path ≠ [])
    (carried : .path glob ∈ uncovered) (matched : classifier.pathSignal path = some (.path glob))
    (wordless : ∀ word, .keyword word ∉ uncovered) (surroundable : quotable path = true) :
    .path glob ∈ classifier.coverage unicode
      (suggestIntent classifier (some path) uncovered) := by
  obtain ⟨q, quoting, absent, quoted⟩ := exists_quote surroundable
  have kept : (some path).filter (fun path : Text => !path.isEmpty) = some path := by
    simp [named]
  have part_eq : ∀ glob, suggestPart classifier (some path) (.path glob) =
      "edit ".toList ++ q :: (path ++ [q]) := by
    intro glob
    simp only [suggestPart, kept, quoted]
  obtain ⟨last, leads⟩ : ∃ last, suggestIntent classifier (some path) uncovered =
      "edit ".toList ++ q :: (path ++ q :: last) := by
    have only : ∀ other ∈ uncovered,
        "edit ".toList.isPrefixOf (suggestPart classifier (some path) other) = true →
          suggestPart classifier (some path) other =
            suggestPart classifier (some path) (.path glob) := by
      intro other listed starts
      cases other with
      | keyword word => exact absurd listed (wordless word)
      | command fragment => exact absurd starts Bool.false_ne_true
      | path other => rw [part_eq, part_eq]
    have edits : "edit ".toList.isPrefixOf
        (suggestPart classifier (some path) (.path glob)) = true := by
      rw [part_eq]
      rfl
    obtain ⟨rest, ordered⟩ := exists_orderedParts carried edits only
    obtain ⟨last, glued⟩ := exists_intercalate_cons "; ".toList
      (suggestPart classifier (some path) (.path glob)) rest
    rw [suggestIntent, ordered, glued, part_eq]
    exact ⟨last, by simp⟩
  apply Classifier.mem_coverage.mpr
  right
  right
  refine ⟨path, ?_, matched⟩
  rw [leads]
  exact List.mem_append_right _ (mem_quotedSpans (by decide) quoting named absent)

end ReadBack

/-! ## The gate after the consult -/

section Retry

variable {unicode : Unicode} {extras : GovernedExtras} {action : GateAction}
  {uncovered : List Signal} {signal : Signal}

/-- The suggestion covers what it was made for, where keywords have word edges and the path
can be quoted. -/
theorem suggestion_read_back
    (among : ∀ signal ∈ uncovered, signal ∈ action.signals unicode (.fromConfig unicode extras))
    (edges : ∀ word, .keyword word ∈ uncovered → hasWordEdges unicode.isWord word = true)
    (surroundable : ∀ glob, .path glob ∈ uncovered → ∀ path ∈ action.path, quotable path = true)
    (carried : signal ∈ uncovered) :
    signal ∈ (Classifier.fromConfig unicode extras).coverage unicode
      (suggestIntent (.fromConfig unicode extras) action.path uncovered) := by
  have patterns : ∀ fragment ∈ (Classifier.fromConfig unicode extras).commandPatterns,
      unicode.Lowered fragment := fun _ => Classifier.lowered_of_mem_commandPatterns
  have command_case : ∀ signal, signal ∈ uncovered →
      signal ∈ (Classifier.fromConfig unicode extras).commandSignals unicode action.diff →
        signal ∈ (Classifier.fromConfig unicode extras).coverage unicode
          (suggestIntent (.fromConfig unicode extras) action.path uncovered) := by
    intro signal carried command
    obtain ⟨pattern, listed, -, rfl⟩ := Classifier.mem_commandSignals.mp command
    exact command_read_back carried listed patterns
  cases unnamed : action.path.filter fun path => !path.isEmpty with
  | none =>
      obtain spoken | command :=
        (Classifier.mem_classify_pathless unnamed).mp (among signal carried)
      · obtain ⟨word, listed, -, rfl⟩ := Classifier.mem_keywordSignals.mp spoken
        exact keyword_read_back carried listed (Classifier.lowered_of_mem_keywords listed)
          (edges word carried)
      · exact command_case signal carried command
  | some path =>
      obtain ⟨path_eq, named⟩ := Option.filter_eq_some_iff.mp unnamed
      have nonempty : path ≠ [] := by simpa using named
      have kinds : ∀ signal ∈ uncovered,
          signal ∈ (Classifier.fromConfig unicode extras).commandSignals unicode action.diff ∨
            (Classifier.fromConfig unicode extras).pathSignal path = some signal := by
        intro signal carried
        have classified := among signal carried
        rw [GateAction.signals, path_eq] at classified
        exact (Classifier.mem_classify_path nonempty).mp classified
      obtain command | matched := kinds signal carried
      · exact command_case signal carried command
      · obtain ⟨glob, -, rfl⟩ := Classifier.exists_path_of_pathSignal matched
        rw [path_eq]
        apply path_read_back nonempty carried matched _ (surroundable glob carried path path_eq)
        intro word listed
        obtain command | other := kinds _ listed
        · obtain ⟨_, _, _, wrong⟩ := Classifier.mem_commandSignals.mp command
          cases wrong
        · obtain ⟨_, _, wrong⟩ := Classifier.exists_path_of_pathSignal other
          cases wrong

variable {classifier : Classifier} {search : Text → List Text} {state : LedgerState}
  {key : ConsultKey} {intent trigger : Text} {blockedAt consultedAt retriedAt ttl : Time}

/-- After an explicit consult the gate asks for the signals that it or earlier consults
cover. -/
theorem retry_allows_iff (sound : state.Sound) (explicit : Trigger.ofText trigger = .explicit)
    (onward : state.clock ≤ consultedAt) (later : consultedAt ≤ retriedAt)
    (within : retriedAt - consultedAt ≤ ttl) (retained : ttl ≤ state.config.retentionSec)
    (room : ((state.entries.touchedSince consultedAt).filter fun pair => pair ≠ key).length <
      state.config.maxEntries)
    (governed : action.Governed unicode classifier) :
    (gateCheck unicode classifier (recordConsult unicode classifier search state.entries
      state.config key intent consultedAt trigger) .intent key action retriedAt ttl).allows = true ↔
      ∀ signal ∈ action.signals unicode classifier,
        signal.coveredBy (classifier.coverage unicode (intent.take maxConsultIntentChars)) = true ∨
          signal.coveredBy (state.entries.freshSignals key retriedAt ttl) = true := by
  rw [gateCheck_intent_allows governed]
  simp only [recordConsult, explicit]
  generalize classifier.coverage unicode (intent.take maxConsultIntentChars) = coverage
  generalize (if (classifier.classify unicode (intent.take maxConsultIntentChars) none []).isEmpty
    then [] else search (intent.take maxConsultIntentChars)) = ruleIds
  have dated : (state.entries.touch key ruleIds consultedAt .explicit coverage).Dated
      consultedAt := by
    have asked : state.clock ≤ (⟨key, consultedAt, .explicit, coverage⟩ : Consult).now := onward
    exact (sound.entries.touch asked).toDated
  have fresh : ∀ signal, signal ∈ (state.entries.record state.config key ruleIds consultedAt
      .explicit coverage).freshSignals key retriedAt ttl ↔
        signal ∈ coverage ∨ signal ∈ state.entries.freshSignals key retriedAt ttl :=
    fun signal => LedgerEntries.mem_freshSignals_record dated room later within retained
  apply forall₂_congr
  intro signal _
  rw [Signal.coveredBy_iff, Signal.coveredBy_iff, Signal.coveredBy_iff]
  simp only [fresh, or_and_right, exists_or]

/-- A signal covers itself. -/
theorem Signal.coveredBy_of_mem {coverage : List Signal} (member : signal ∈ coverage) :
    signal.coveredBy coverage = true := by
  unfold Signal.coveredBy
  rw [Bool.or_eq_true]
  left
  exact decide_eq_true (List.mem_map_of_mem member)

/-- The gate denies an action, the agent consults as the denial suggests, and the action is
retried within the TTL.  Meanwhile the ledger keeps what it had: earlier consults that cover
a signal of the action stay fresh, and the capacity drops no pair that consults now. -/
structure Retried (unicode : Unicode) (classifier : Classifier) (state : LedgerState)
    (key : ConsultKey) (action : GateAction) (ttl blockedAt consultedAt retriedAt : Time)
    (uncovered : List Signal) (intent : Text) : Prop where
  reached : ∃ config clock ops, Run LedgerStep (LedgerState.start config clock) ops state
  blocked : (gateCheck unicode classifier state.entries .intent key action blockedAt ttl).reason =
    .uncovered uncovered intent
  onward : state.clock ≤ blockedAt
  asked : blockedAt ≤ consultedAt
  later : consultedAt ≤ retriedAt
  within : retriedAt - consultedAt ≤ ttl
  retained : ttl ≤ state.config.retentionSec
  room : ((state.entries.touchedSince consultedAt).filter fun pair => pair ≠ key).length <
    state.config.maxEntries
  lasting : ∀ signal ∈ action.signals unicode classifier,
    signal.coveredBy (state.entries.freshSignals key blockedAt ttl) = true →
      signal.coveredBy (state.entries.freshSignals key retriedAt ttl) = true

theorem Retried.sound {uncovered : List Signal}
    (retried : Retried unicode classifier state key action ttl blockedAt consultedAt retriedAt
      uncovered intent) : state.Sound := by
  obtain ⟨config, clock, ops, run⟩ := retried.reached
  exact run.invariant ledgerStep_preserves_sound (LedgerState.sound_start config clock)

/-- The suggested consult clears the gate where its text can be read back. -/
theorem retry_allows (explicit : Trigger.ofText trigger = .explicit)
    (retried : Retried unicode (.fromConfig unicode extras) state key action ttl blockedAt
      consultedAt retriedAt uncovered intent)
    (edges : ∀ word, .keyword word ∈ uncovered → hasWordEdges unicode.isWord word = true)
    (surroundable : ∀ glob, .path glob ∈ uncovered → ∀ path ∈ action.path, quotable path = true)
    (fits : renderedWidth (.fromConfig unicode extras) action.path uncovered ≤
      maxConsultIntentChars) :
    (gateCheck unicode (.fromConfig unicode extras) (recordConsult unicode
      (.fromConfig unicode extras) search state.entries state.config key intent consultedAt
      trigger) .intent key action retriedAt ttl).allows = true := by
  have sound := retried.sound
  obtain ⟨-, blocked, onward, asked, later, within, retained, room, lasting⟩ := retried
  obtain ⟨rfl, rfl⟩ := gateCheck_uncovered blocked
  have governed : action.Governed unicode (.fromConfig unicode extras) := by
    intro ungoverned
    simp only [gateCheck, ungoverned] at blocked
    cases blocked
  apply (retry_allows_iff sound explicit (onward.trans asked) later within retained room governed).mpr
  intro signal carried
  rw [List.take_of_length_le (length_suggestIntent_le.trans fits)]
  cases before : signal.coveredBy (state.entries.freshSignals key blockedAt ttl) with
  | true => exact .inr (lasting signal carried before)
  | false =>
      left
      apply Signal.coveredBy_of_mem
      apply suggestion_read_back _ edges surroundable (mem_uncoveredSignals.mpr ⟨carried, before⟩)
      intro other listed
      exact (mem_uncoveredSignals.mp listed).1

end Retry

/-! ## Keywords that are not read back -/

section Unreadable

variable {unicode : Unicode} {extras : GovernedExtras} {classifier : Classifier}
  {action : GateAction} {actionPath : Option Text} {uncovered : List Signal}
  {parts : List Text} {word : Text} {entries : LedgerEntries} {key : ConsultKey} {now ttl : Time}

/-- Only the same keyword covers a keyword. -/
theorem keyword_coveredBy_iff {coverage : List Signal} :
    (Signal.keyword word).coveredBy coverage = true ↔ .keyword word ∈ coverage := by
  have same_family : ∀ signal : Signal, signal.family = .keyword word → signal = .keyword word := by
    intro signal
    unfold Signal.family
    split
    · rintro ⟨⟩
    · exact id
  unfold Signal.coveredBy
  simp only [Signal.family, signalFamilyCoverage, List.any_nil, Bool.or_false, decide_eq_true_eq,
    List.mem_map]
  constructor
  · rintro ⟨signal, member, family⟩
    exact same_family signal family ▸ member
  · intro member
    exact ⟨_, member, rfl⟩

/-- A keyword alone is suggested as it is. -/
theorem suggestIntent_keyword (carried : .keyword word ∈ uncovered)
    (alone : ∀ signal ∈ uncovered, signal = .keyword word) :
    suggestIntent classifier actionPath uncovered = word := by
  have once : addParts classifier actionPath [] uncovered = [word] := by
    apply List.perm_singleton.mp
    apply (List.perm_ext_iff_of_nodup (nodup_addParts List.nodup_nil)
      (List.nodup_singleton word)).mpr
    intro part
    rw [mem_addParts, List.mem_singleton]
    constructor
    · rintro (none | ⟨signal, member, rfl⟩)
      · exact absurd none List.not_mem_nil
      · rw [alone signal member]
        rfl
    · rintro rfl
      exact .inr ⟨_, carried, rfl⟩
  have ordered : orderedParts classifier actionPath uncovered = [word] := by
    apply List.perm_singleton.mp
    rw [← once]
    exact List.filter_append_perm _ _
  rw [suggestIntent, ordered]
  exact List.append_nil word

/-- The consult that names a keyword covers it exactly if the keyword has word edges and is
not cut. -/
theorem keyword_mem_coverage_iff
    (listed : word ∈ (Classifier.fromConfig unicode extras).keywords) {count : Nat} :
    .keyword word ∈ (Classifier.fromConfig unicode extras).coverage unicode (word.take count) ↔
      hasWordEdges unicode.isWord word = true ∧ word.length ≤ count := by
  have lowered := (Classifier.lowered_of_mem_keywords listed).take count
  rw [← searchWord_take_self, Classifier.mem_coverage, Unicode.lower_of_lowered lowered]
  constructor
  · rintro (spoken | command | ⟨token, -, matched⟩)
    · obtain ⟨other, -, found, same⟩ := Classifier.mem_keywordSignals.mp spoken
      cases same
      exact found
    · obtain ⟨_, _, _, wrong⟩ := Classifier.mem_commandSignals.mp command
      cases wrong
    · obtain ⟨_, _, wrong⟩ := Classifier.exists_path_of_pathSignal matched
      cases wrong
  · intro found
    exact .inl (Classifier.mem_keywordSignals.mpr ⟨word, listed, found, rfl⟩)

theorem keyword_mem_classify {intent diff : Text}
    (carried : .keyword word ∈ classifier.classify unicode intent actionPath diff) :
    word ∈ classifier.keywords := by
  have of_spoken : ∀ text, .keyword word ∈ classifier.keywordSignals unicode text →
      word ∈ classifier.keywords := by
    intro text spoken
    obtain ⟨other, listed, -, same⟩ := Classifier.mem_keywordSignals.mp spoken
    cases same
    exact listed
  have not_command : .keyword word ∉ classifier.commandSignals unicode diff := by
    intro command
    obtain ⟨_, _, _, wrong⟩ := Classifier.mem_commandSignals.mp command
    cases wrong
  unfold Classifier.classify at carried
  split at carried
  · simp only [List.mem_append, not_command, or_false, Option.mem_toList] at carried
    obtain spoken | matched := carried
    · exact of_spoken _ spoken
    · obtain ⟨_, _, wrong⟩ := Classifier.exists_path_of_pathSignal matched
      cases wrong
  · rw [List.mem_append] at carried
    exact of_spoken _ (carried.resolve_right not_command)

/-- A denial for a signal that is not covered. -/
theorem gateCheck_blocks {signal : Signal} (carried : signal ∈ action.signals unicode classifier)
    (uncovered : signal.coveredBy (entries.freshSignals key now ttl) = false) :
    (gateCheck unicode classifier entries .intent key action now ttl).reason =
      .uncovered (uncoveredSignals (action.signals unicode classifier)
          (entries.freshSignals key now ttl))
        (suggestIntent classifier action.path (uncoveredSignals
          (action.signals unicode classifier) (entries.freshSignals key now ttl))) := by
  have some_signal : (action.signals unicode classifier).isEmpty = false :=
    List.isEmpty_eq_false_iff.mpr (List.ne_nil_of_mem carried)
  have some_uncovered : (uncoveredSignals (action.signals unicode classifier)
      (entries.freshSignals key now ttl)).isEmpty = false :=
    List.isEmpty_eq_false_iff.mpr
      (List.ne_nil_of_mem (mem_uncoveredSignals.mpr ⟨carried, uncovered⟩))
  simp only [gateCheck, some_signal, some_uncovered, Bool.false_eq_true, if_false]

/-- After the first consult on record its signals are fresh. -/
theorem mem_freshSignals_first {config : LedgerConfig} {signal : Signal} {signals : List Signal}
    (room : 0 < config.maxEntries) (nonnegative : 0 ≤ ttl) (retained : ttl ≤ config.retentionSec) :
    signal ∈ (LedgerEntries.record .empty config key [] now .explicit signals).freshSignals
      key now ttl ↔ signal ∈ signals := by
  have asked : now ≤ (⟨key, now, .explicit, signals⟩ : Consult).now := le_rfl
  have backed : LedgerEntries.Backed .empty [] now := .empty
  have dated : (LedgerEntries.touch .empty key [] now .explicit signals).Dated now :=
    (backed.touch asked).toDated
  have within : now - now ≤ ttl := by
    rw [Int.sub_self]
    exact nonnegative
  rw [LedgerEntries.mem_freshSignals_record dated room le_rfl within retained]
  exact or_iff_left List.not_mem_nil

/-- An action whose keyword cannot be read back stays blocked by the consult that the gate
suggests, once its other signals are covered. -/
theorem keyword_stays_blocked (search : Text → List Text) (key : ConsultKey) (now : Time)
    {trigger : Text} (explicit : Trigger.ofText trigger = .explicit)
    (carried : .keyword word ∈ action.signals unicode (.fromConfig unicode extras))
    (unreadable : ¬(hasWordEdges unicode.isWord word = true ∧
      word.length ≤ maxConsultIntentChars)) {config : LedgerConfig} (room : 0 < config.maxEntries)
    (nonnegative : 0 ≤ ttl) (retained : ttl ≤ config.retentionSec) :
    ∃ state uncovered intent,
      Retried unicode (.fromConfig unicode extras) state key action ttl now now now uncovered
        intent ∧
      (gateCheck unicode (.fromConfig unicode extras) (recordConsult unicode
        (.fromConfig unicode extras) search state.entries state.config key intent now trigger)
        .intent key action now ttl).allows = false := by
  let others := (action.signals unicode (.fromConfig unicode extras)).filter
    fun signal => signal ≠ .keyword word
  let consult : Consult := ⟨key, now, .explicit, others⟩
  let state := (LedgerState.start config now).record [] consult true
  have taken : Run LedgerStep (LedgerState.start config now) [.record [] consult true] state :=
    Run.single (LedgerStep.record _ [] consult true le_rfl)
  have sound : state.Sound :=
    taken.invariant ledgerStep_preserves_sound (LedgerState.sound_start config now)
  have within : now - now ≤ ttl := by
    rw [Int.sub_self]
    exact nonnegative
  have fresh : ∀ signal, signal ∈ state.entries.freshSignals key now ttl ↔ signal ∈ others :=
    fun signal => mem_freshSignals_first room nonnegative retained
  have not_fresh : (Signal.keyword word).coveredBy (state.entries.freshSignals key now ttl) =
      false := by
    rw [← Bool.not_eq_true, keyword_coveredBy_iff, fresh]
    intro member
    exact absurd rfl (of_decide_eq_true (List.mem_filter.mp member).2)
  have blocked := gateCheck_blocks carried not_fresh
  have alone : ∀ signal ∈ uncoveredSignals (action.signals unicode (.fromConfig unicode extras))
      (state.entries.freshSignals key now ttl), signal = .keyword word := by
    intro signal listed
    obtain ⟨member, uncovered⟩ := mem_uncoveredSignals.mp listed
    by_contra different
    have covered := Signal.coveredBy_of_mem ((fresh signal).mpr
      (List.mem_filter.mpr ⟨member, decide_eq_true different⟩))
    rw [covered] at uncovered
    cases uncovered
  have alone_since : ((state.entries.touchedSince now).filter fun pair => pair ≠ key).length <
      config.maxEntries := by
    have none_other : (state.entries.touchedSince now).filter (fun pair => pair ≠ key) = [] := by
      apply List.filter_eq_nil_iff.mpr
      intro pair since
      obtain ⟨entry, member, -⟩ := LedgerEntries.mem_touchedSince.mp since
      obtain ⟨before, touched, -, -⟩ :=
        LedgerEntries.mem_prune.mp (LedgerEntries.mem_of_mem_enforceCap member)
      obtain ⟨same, -⟩ | ⟨-, none⟩ := LedgerEntries.mem_touch.mp touched
      · simpa using same
      · exact absurd none List.not_mem_nil
    rw [none_other]
    exact room
  have onward : state.clock ≤ now := le_rfl
  refine ⟨state, _, _, ⟨⟨config, now, _, taken⟩, blocked, onward, le_rfl, le_rfl, within, retained,
    alone_since, fun _ _ => id⟩, ?_⟩
  rw [suggestIntent_keyword (mem_uncoveredSignals.mpr ⟨carried, not_fresh⟩) alone,
    ← Bool.not_eq_true]
  intro allowed
  have covered := (retry_allows_iff sound explicit onward le_rfl within retained alone_since
    (List.ne_nil_of_mem carried)).mp allowed _ carried
  rw [keyword_coveredBy_iff, not_fresh, keyword_mem_coverage_iff (keyword_mem_classify carried)]
    at covered
  exact covered.elim unreadable (by simp)

end Unreadable

/-- A consult with the suggested intent clears the gate where the uncovered keywords begin and
end with word characters, some quote character can surround the path, and the parts fit in
the intent.  Conversely, an action that every suggested consult clears has no other keywords. -/
theorem suggested_consult_clears_gate (unicode : Unicode) (extras : GovernedExtras)
    (search : Text → List Text) {trigger : Text} (explicit : Trigger.ofText trigger = .explicit)
    (action : GateAction) :
    (∀ state key ttl blockedAt consultedAt retriedAt uncovered intent,
      Retried unicode (.fromConfig unicode extras) state key action ttl blockedAt consultedAt
        retriedAt uncovered intent →
      (∀ word, .keyword word ∈ uncovered → hasWordEdges unicode.isWord word = true) →
      (∀ glob, .path glob ∈ uncovered → ∀ path ∈ action.path, quotable path = true) →
      renderedWidth (.fromConfig unicode extras) action.path uncovered ≤ maxConsultIntentChars →
        (gateCheck unicode (.fromConfig unicode extras) (recordConsult unicode
          (.fromConfig unicode extras) search state.entries state.config key intent consultedAt
          trigger) .intent key action retriedAt ttl).allows = true) ∧
    ((∀ state key ttl blockedAt consultedAt retriedAt uncovered intent,
      Retried unicode (.fromConfig unicode extras) state key action ttl blockedAt consultedAt
        retriedAt uncovered intent →
        (gateCheck unicode (.fromConfig unicode extras) (recordConsult unicode
          (.fromConfig unicode extras) search state.entries state.config key intent consultedAt
          trigger) .intent key action retriedAt ttl).allows = true) →
      ∀ word, .keyword word ∈ action.signals unicode (.fromConfig unicode extras) →
        hasWordEdges unicode.isWord word = true ∧ word.length ≤ maxConsultIntentChars) := by
  constructor
  · intro state key ttl blockedAt consultedAt retriedAt uncovered intent retried edges surroundable
      fits
    exact retry_allows explicit retried edges surroundable fits
  · intro clears word carried
    by_contra unreadable
    have room : 0 < (⟨true, 0, 1⟩ : LedgerConfig).maxEntries := Nat.one_pos
    obtain ⟨state, uncovered, intent, retried, denied⟩ :=
      keyword_stays_blocked search ([], []) 0 explicit carried unreadable room le_rfl le_rfl
    rw [clears _ _ _ _ _ _ _ _ retried] at denied
    cases denied

section Examples

/-- A fresh ledger. -/
def emptyLedger : LedgerState :=
  .start ⟨true, 300, 50000⟩ 0

theorem suggested_consult_clears_gate_pip :
    (gateCheck .ascii shippedClassifier (recordConsult .ascii shippedClassifier (fun _ => [])
      emptyLedger.entries emptyLedger.config ("s".toList, "w".toList)
      "run \"pip install\"".toList 1 "explicit".toList) .intent ("s".toList, "w".toList)
      ⟨"Bash".toList, none, "pip install x".toList⟩ 2 300).allows = true :=
  (suggested_consult_clears_gate .ascii ⟨[], [], []⟩ (fun _ => []) rfl
    ⟨"Bash".toList, none, "pip install x".toList⟩).1 emptyLedger ("s".toList, "w".toList) 300 0 1 2
    [.command "pip install".toList] "run \"pip install\"".toList
    ⟨⟨_, _, [], .refl⟩, by decide, by decide, by decide, by decide, by decide, by decide, by decide, by decide⟩
    (by simp) (by simp) (by decide)

/-- A keyword that ends in signs stays blocked, and so does a path with every quote
character. -/
theorem signs_and_quotes_stay_blocked :
    (let classifier := Classifier.fromConfig .ascii ⟨["c++".toList], [], []⟩
    let action : GateAction := ⟨"Bash".toList, none, "g++ -std=c++11 x.cc".toList⟩
    Retried .ascii classifier emptyLedger ("s".toList, "w".toList) action 300 0 1 2
        [.keyword "c++".toList] "c++".toList ∧
      (gateCheck .ascii classifier (recordConsult .ascii classifier (fun _ => [])
        emptyLedger.entries emptyLedger.config ("s".toList, "w".toList) "c++".toList 1
        "explicit".toList) .intent ("s".toList, "w".toList) action 2 300).allows = false) ∧
    (let action : GateAction := ⟨"Edit".toList, some "requirements'\"`.txt".toList, []⟩
    let intent := "edit \"requirements'\"`.txt\"".toList
    Retried .ascii shippedClassifier emptyLedger ("s".toList, "w".toList) action 300 0 1 2
        [.path "requirements*.txt".toList] intent ∧
      (gateCheck .ascii shippedClassifier (recordConsult .ascii shippedClassifier (fun _ => [])
        emptyLedger.entries emptyLedger.config ("s".toList, "w".toList) intent 1
        "explicit".toList) .intent ("s".toList, "w".toList) action 2 300).allows = false) := by
  constructor
  · refine ⟨⟨⟨_, _, [], .refl⟩, ?_, ?_, ?_, ?_, ?_, ?_, ?_, ?_⟩, ?_⟩ <;> decide
  · refine ⟨⟨⟨_, _, [], .refl⟩, ?_, ?_, ?_, ?_, ?_, ?_, ?_, ?_⟩, ?_⟩ <;> decide

end Examples

end DataOlympus
