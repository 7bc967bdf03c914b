import DataOlympus.Text.Lines

/-!
# The comma form of extra patterns

An operator may name extra secret patterns in one setting, separated by commas.  The scanner
splits at a comma only outside of braces and character classes, and skips what a backslash
escapes.  Patterns that leave the scanner as they found it are split apart where they were
joined.
-/

namespace DataOlympus

open Lines

/-- The variables of `_split_comma_form`. -/
structure CommaScan where
  pieces : List Text
  buf : Text
  braceDepth : Nat
  /-- `class_body_start`, if `in_class`. -/
  classBody : Option Nat

namespace CommaScan

/-- Before the loop. -/
def start : CommaScan :=
  ⟨[], [], 0, none⟩

/-- `buf.append(…)`. -/
def append (scan : CommaScan) (text : Text) : CommaScan :=
  { scan with buf := scan.buf ++ text }

/-- The step for the character at `i`, which no backslash escapes. -/
def step (scan : CommaScan) (i : Nat) (ch : Char) (next : Option Char) : CommaScan :=
  match scan.classBody with
  | some bodyStart =>
      if ch = ']' ∧ bodyStart < i then { scan.append [ch] with classBody := none }
      else scan.append [ch]
  | none =>
      if ch = '[' then
        { scan.append [ch] with
          classBody := some (if next = some '^' then i + 1 + 1 else i + 1) }
      else if ch = '\x7b' then { scan.append [ch] with braceDepth := scan.braceDepth + 1 }
      else if ch = '\x7d' ∧ 0 < scan.braceDepth then
        { scan.append [ch] with braceDepth := scan.braceDepth - 1 }
      else if ch = ',' ∧ scan.braceDepth = 0 then
        { scan with pieces := scan.pieces ++ [scan.buf], buf := [] }
      else scan.append [ch]

/-- The loop from the character at `i` on. -/
def run (scan : CommaScan) (i : Nat) : Text → CommaScan
  | [] => scan
  | '\\' :: escaped :: rest => (scan.append ['\\', escaped]).run (i + 2) rest
  | ch :: rest => (scan.step i ch rest.head?).run (i + 1) rest

end CommaScan

/-- The pieces before they are trimmed. -/
def commaPieces (raw : Text) : List Text :=
  let scan := CommaScan.start.run 0 raw
  scan.pieces ++ [scan.buf]

/-- `[p.strip() for p in pieces if p.strip()]`. -/
def trimmed (pieces : List Text) : List Text :=
  (pieces.map strip).filter (· ≠ [])

/-- `_split_comma_form(raw)`. -/
def splitCommaForm (raw : Text) : List Text :=
  trimmed (commaPieces raw)

/-! ## Balanced patterns -/

/-- The text ends with a backslash that escapes nothing. -/
def dangles : Text → Bool
  | [] => false
  | ['\\'] => true
  | '\\' :: _ :: rest => dangles rest
  | _ :: rest => dangles rest

/-- The scanner leaves a pattern outside of braces and classes, and no escape is open. -/
structure Balanced (pattern : Text) : Prop where
  braces : (CommaScan.start.run 0 pattern).braceDepth = 0
  classes : (CommaScan.start.run 0 pattern).classBody = none
  escapes : dangles pattern = false

/-- No comma of the pattern is outside of braces, classes and escapes. -/
def Whole (pattern : Text) : Prop :=
  (CommaScan.start.run 0 pattern).pieces = []

namespace CommaScan

/-- The same scan behind other pieces and at another place. -/
def moved (scan : CommaScan) (before : List Text) (k : Nat) : CommaScan :=
  { scan with
    pieces := before ++ scan.pieces
    classBody := scan.classBody.map (· + k) }

theorem moved_append (scan : CommaScan) (before : List Text) (k : Nat) (text : Text) :
    (scan.moved before k).append text = (scan.append text).moved before k :=
  rfl

theorem step_moved (scan : CommaScan) (before : List Text) (k i : Nat) (ch : Char)
    (next : Option Char) :
    (scan.moved before k).step (i + k) ch next = (scan.step i ch next).moved before k := by
  obtain ⟨pieces, buf, depth, body⟩ := scan
  cases body with
  | some bodyStart =>
      unfold step moved
      dsimp only [Option.map_some]
      by_cases closes : ch = ']' ∧ bodyStart < i
      · rw [if_pos closes, if_pos ⟨closes.1, Nat.add_lt_add_right closes.2 k⟩]
        rfl
      · rw [if_neg closes, if_neg fun later => closes ⟨later.1, Nat.lt_of_add_lt_add_right later.2⟩]
        rfl
  | none =>
      unfold step moved
      dsimp only [Option.map_none]
      split
      · split
        · simp only [append, Option.map_some, Nat.add_right_comm]
        · simp only [append, Option.map_some, Nat.add_right_comm]
      · split
        · rfl
        · split
          · rfl
          · split
            · simp only [List.append_assoc, Option.map_none]
            · rfl

/-- A run does not look at the pieces before it or at the place where it begins. -/
theorem run_moved (scan : CommaScan) (before : List Text) (k i : Nat) (text : Text) :
    (scan.moved before k).run (i + k) text = (scan.run i text).moved before k := by
  induction scan, i, text using run.induct with
  | case1 scan i => rfl
  | case2 scan i escaped rest ih =>
      rw [run, run, moved_append, Nat.add_right_comm, ih]
  | case3 scan i ch rest simple ih =>
      rw [run.eq_3 _ _ _ _ simple, run.eq_3 _ _ _ _ simple, step_moved, Nat.add_right_comm, ih]

/-- Only the body of a class depends on the character behind its bracket. -/
theorem step_next (scan : CommaScan) (i : Nat) (ch : Char) (next other : Option Char)
    (closed : (scan.step i ch next).classBody = none) :
    scan.step i ch other = scan.step i ch next := by
  unfold step at closed ⊢
  cases body : scan.classBody with
  | some bodyStart => rfl
  | none =>
      rw [body] at closed
      dsimp only at closed ⊢
      by_cases opens : ch = '['
      · rw [if_pos opens] at closed
        cases closed
      · rw [if_neg opens, if_neg opens]

theorem dangles_cons {ch : Char} (plain : ch ≠ '\\') (rest : Text) :
    dangles (ch :: rest) = dangles rest := by
  exact dangles.eq_4 ch rest (fun same _ => plain same) fun _ _ same _ => plain same

theorem run_cons {ch : Char} (plain : ch ≠ '\\') (scan : CommaScan) (i : Nat) (rest : Text) :
    scan.run i (ch :: rest) = (scan.step i ch rest.head?).run (i + 1) rest :=
  run.eq_3 scan i ch rest fun _ _ same => absurd same plain

/-- A run goes on behind a text that leaves no escape and no class open. -/
theorem run_append (scan : CommaScan) (i : Nat) (first rest : Text)
    (escapes : dangles first = false) (classes : (scan.run i first).classBody = none) :
    scan.run i (first ++ rest) = (scan.run i first).run (i + first.length) rest := by
  induction scan, i, first using run.induct with
  | case1 scan i => rfl
  | case2 scan i escaped later ih =>
      have more := ih escapes classes
      rw [List.cons_append, List.cons_append, run, run, more, List.length_cons, List.length_cons,
        Nat.add_assoc, Nat.add_comm 2]
  | case3 scan i ch later simple ih =>
      have plain : ch ≠ '\\' := by
        rintro rfl
        cases later with
        | nil => cases escapes
        | cons escaped later => exact simple escaped later rfl rfl
      rw [dangles_cons plain] at escapes
      rw [run_cons plain] at classes
      rw [List.cons_append, run_cons plain, run_cons plain, List.length_cons,
        ← Nat.add_assoc, Nat.add_right_comm]
      cases later with
      | nil =>
          rw [List.nil_append, step_next scan i ch [].head? rest.head? classes]
          rfl
      | cons second later => exact ih escapes classes

/-- What was collected before a step is not lost by it. -/
theorem intercalate_append (scan : CommaScan) (text : Text) :
    [','].intercalate ((scan.append text).pieces ++ [(scan.append text).buf]) =
      [','].intercalate (scan.pieces ++ [scan.buf]) ++ text := by
  unfold append
  dsimp only
  induction scan.pieces with
  | nil => simp
  | cons piece pieces ih =>
      rw [List.cons_append, List.cons_append, List.intercalate_cons_of_ne_nil (by simp),
        List.intercalate_cons_of_ne_nil (by simp), ih, List.append_assoc, List.append_assoc,
        List.append_assoc]

theorem intercalate_step (scan : CommaScan) (i : Nat) (ch : Char) (next : Option Char) :
    [','].intercalate ((scan.step i ch next).pieces ++ [(scan.step i ch next).buf]) =
      [','].intercalate (scan.pieces ++ [scan.buf]) ++ [ch] := by
  have kept := scan.intercalate_append [ch]
  unfold step
  split
  · split
    · exact kept
    · exact kept
  · split
    · exact kept
    · split
      · exact kept
      · split
        · exact kept
        · split
          · rename_i comma
            obtain ⟨rfl, -⟩ := comma
            dsimp only
            induction scan.pieces with
            | nil => simp
            | cons piece pieces ih =>
                rw [List.cons_append, List.cons_append, List.intercalate_cons_of_ne_nil (by simp),
                  List.intercalate_cons_of_ne_nil (by simp), ih, List.append_assoc,
                  List.append_assoc, List.append_assoc]
          · exact kept

/-- The pieces, and what is collected, are the text without the commas between them. -/
theorem intercalate_run (scan : CommaScan) (i : Nat) (text : Text) :
    [','].intercalate ((scan.run i text).pieces ++ [(scan.run i text).buf]) =
      [','].intercalate (scan.pieces ++ [scan.buf]) ++ text := by
  induction scan, i, text using run.induct with
  | case1 scan i => exact (List.append_nil _).symm
  | case2 scan i escaped rest ih =>
      rw [run, ih, intercalate_append, List.append_assoc]
      rfl
  | case3 scan i ch rest simple ih =>
      rw [run.eq_3 _ _ _ _ simple, ih, intercalate_step, List.append_assoc]
      rfl

end CommaScan

/-- The pieces are the text without the commas between them. -/
theorem intercalate_commaPieces (raw : Text) : [','].intercalate (commaPieces raw) = raw := by
  rw [commaPieces, CommaScan.intercalate_run]
  rfl

theorem commaPieces_of_whole {pattern : Text} (whole : Whole pattern) :
    commaPieces pattern = [pattern] := by
  have joined := intercalate_commaPieces pattern
  rw [commaPieces, whole] at joined ⊢
  rw [List.nil_append, List.intercalate_singleton] at joined
  rw [List.nil_append, joined]

/-- A balanced pattern is split from what is joined to it. -/
theorem commaPieces_append {pattern : Text} (balanced : Balanced pattern) (rest : Text) :
    commaPieces (pattern ++ ',' :: rest) = commaPieces pattern ++ commaPieces rest := by
  obtain ⟨braces, classes, escapes⟩ := balanced
  have behind := CommaScan.run_append .start 0 pattern (',' :: rest) escapes classes
  cases scanned : CommaScan.start.run 0 pattern with
  | mk pieces buf depth body =>
      rw [scanned] at braces classes behind
      cases braces
      cases classes
      have comma : CommaScan.step ⟨pieces, buf, 0, none⟩ (0 + pattern.length) ',' rest.head? =
          CommaScan.start.moved (pieces ++ [buf]) (pattern.length + 1) := by
        simp [CommaScan.step, CommaScan.moved, CommaScan.start]
      have moved := CommaScan.run_moved .start (pieces ++ [buf]) (pattern.length + 1) 0 rest
      rw [CommaScan.run_cons (by decide), comma, Nat.zero_add] at behind
      rw [Nat.zero_add] at moved
      rw [commaPieces, commaPieces, commaPieces, behind, moved, scanned, CommaScan.moved]
      dsimp only
      rw [List.append_assoc]

/-- Balanced patterns are split where they were joined. -/
theorem commaPieces_intercalate {patterns : List Text} (nonempty : patterns ≠ [])
    (balanced : ∀ pattern ∈ patterns, Balanced pattern) :
    commaPieces ([','].intercalate patterns) = patterns.flatMap commaPieces := by
  induction patterns with
  | nil => exact absurd rfl nonempty
  | cons pattern patterns ih =>
      cases patterns with
      | nil => simp
      | cons second later =>
          have ofRest := ih (List.cons_ne_nil second later) fun other member =>
            balanced other (List.mem_cons_of_mem _ member)
          have first := commaPieces_append (balanced pattern List.mem_cons_self)
            ([','].intercalate (second :: later))
          rw [List.intercalate_cons_cons, List.append_assoc, List.singleton_append, first, ofRest]
          rfl

/-- The joined text of balanced patterns is split into what each of them is split into, which is
the pattern if none of its commas is outside of braces and classes. -/
theorem split_of_joined_patterns (patterns : List Text)
    (balanced : ∀ pattern ∈ patterns, Balanced pattern) :
    splitCommaForm ([','].intercalate patterns) = patterns.flatMap splitCommaForm ∧
      ((∀ pattern ∈ patterns, Whole pattern) →
        splitCommaForm ([','].intercalate patterns) = trimmed patterns) := by
  cases patterns with
  | nil => exact ⟨rfl, fun _ => rfl⟩
  | cons pattern later =>
      have pieces := commaPieces_intercalate (List.cons_ne_nil pattern later) balanced
      constructor
      · rw [splitCommaForm, pieces, trimmed, List.map_flatMap, List.filter_flatMap]
        rfl
      · intro whole
        have single : (pattern :: later).flatMap commaPieces =
            (pattern :: later).flatMap fun other => [other] :=
          List.flatMap_congr fun other member => commaPieces_of_whole (whole other member)
        rw [splitCommaForm, pieces, single, List.flatMap_singleton']

/-- Commas in a class, in a quantifier and behind a backslash stay. -/
theorem guarded_commas_stay :
    splitCommaForm ([','].intercalate ["[]a,]+\x7b2,4\x7d".toList, "x\\,y".toList]) =
      ["[]a,]+\x7b2,4\x7d".toList, "x\\,y".toList] := by
  obtain ⟨-, whole⟩ := split_of_joined_patterns ["[]a,]+\x7b2,4\x7d".toList, "x\\,y".toList]
    (List.forall_mem_cons.mpr ⟨⟨rfl, rfl, rfl⟩, List.forall_mem_singleton.mpr ⟨rfl, rfl, rfl⟩⟩)
  exact whole (List.forall_mem_cons.mpr ⟨rfl, List.forall_mem_singleton.mpr rfl⟩)

/-- A comma in a group splits the pattern. -/
theorem comma_in_a_group_splits :
    Balanced "(a,b)".toList ∧ splitCommaForm ([','].intercalate ["(a,b)".toList]) =
      ["(a".toList, "b)".toList] ∧ trimmed ["(a,b)".toList] = ["(a,b)".toList] :=
  ⟨⟨rfl, rfl, rfl⟩, by decide, by decide⟩

end DataOlympus
