import DataOlympus.Select.Disjoint
import DataOlympus.Text.Lines

/-!
# Backtracking patterns

A pattern lists the ways in which it matches at a place by their priority, and the first of
them is its match there.  The matches of a text are read from the left and do not overlap.
-/

namespace DataOlympus.Lines

/-- A place in a text, and what the groups have captured on the way there. -/
structure Cursor where
  /-- What lies before, the last character first. -/
  before : Text
  rest : Text
  groups : List (String × Text)

namespace Cursor

/-- The place some characters further on. -/
def pass (count : Nat) (cursor : Cursor) : Cursor :=
  { cursor with
    before := (cursor.rest.take count).reverse ++ cursor.before
    rest := cursor.rest.drop count }

@[simp]
theorem length_pass (count : Nat) (cursor : Cursor) :
    (cursor.pass count).rest.length = cursor.rest.length - count :=
  List.length_drop

end Cursor

inductive Pattern where
  | empty
  /-- One character. -/
  | char (accepts : Char → Bool)
  /-- `^`, at the start of the text. -/
  | start
  /-- `$`, at the end of the text or before a line feed there. -/
  | finish
  /-- `\b`. -/
  | boundary (isWord : Char → Bool)
  /-- `(?<!…)` with one character. -/
  | notBehind (accepts : Char → Bool)
  /-- `(?!…)` with one character. -/
  | notAhead (accepts : Char → Bool)
  /-- Characters repeated as often as possible. -/
  | repeated (accepts : Char → Bool) (least : Nat) (most : Option Nat)
  | seq (first second : Pattern)
  | either (first second : Pattern)
  | group (name : String) (inside : Pattern)
  /-- What the group has captured. -/
  | back (name : String)

/-- A match between two places of a text. -/
structure Match where
  start : Nat
  stop : Nat
  groups : List (String × Text)
  deriving DecidableEq

/-- `m.group(name)` of a group that took part. -/
def Match.group (found : Match) (name : String) : Text :=
  (found.groups.lookup name).getD []

namespace Pattern

/-- How many characters a repetition can take. -/
def available (accepts : Char → Bool) (most : Option Nat) (rest : Text) : Nat :=
  match most with
  | none => (rest.takeWhile accepts).length
  | some bound => min bound (rest.takeWhile accepts).length

/-- The ways in which a pattern matches at a place, by their priority. -/
def runs : Pattern → Cursor → List Cursor
  | .empty, cursor => [cursor]
  | .char accepts, cursor => if cursor.rest.head?.any accepts then [cursor.pass 1] else []
  | .start, cursor => if cursor.before.isEmpty then [cursor] else []
  | .finish, cursor => if cursor.rest = [] ∨ cursor.rest = ['\n'] then [cursor] else []
  | .boundary isWord, cursor =>
      if cursor.before.head?.any isWord != cursor.rest.head?.any isWord then [cursor] else []
  | .notBehind accepts, cursor => if cursor.before.head?.any accepts then [] else [cursor]
  | .notAhead accepts, cursor => if cursor.rest.head?.any accepts then [] else [cursor]
  | .repeated accepts least most, cursor =>
      let count := available accepts most cursor.rest
      (List.range' least (count + 1 - least)).reverse.map fun taken => cursor.pass taken
  | .seq first second, cursor => (first.runs cursor).flatMap second.runs
  | .either first second, cursor => first.runs cursor ++ second.runs cursor
  | .group name inside, cursor =>
      (inside.runs cursor).map fun after => { after with
        groups := (name, cursor.rest.take (cursor.rest.length - after.rest.length)) ::
          after.groups }
  | .back name, cursor =>
      match cursor.groups.lookup name with
      | none => []
      | some captured =>
          if captured.isPrefixOf cursor.rest then [cursor.pass captured.length] else []

/-- The characters of a text. -/
def literal (text : String) : Pattern :=
  text.toList.foldr (fun c later => .seq (.char fun d => d = c) later) .empty

/-- One of several patterns. -/
def oneOf : List Pattern → Pattern
  | [] => .empty
  | [pattern] => pattern
  | pattern :: others => .either pattern (oneOf others)

/-- Several patterns behind one another. -/
def sequence (patterns : List Pattern) : Pattern :=
  patterns.foldr .seq .empty

/-- A pattern or nothing. -/
def optional (pattern : Pattern) : Pattern :=
  .either pattern .empty

/-- The fewest characters of a match. -/
def minLength : Pattern → Nat
  | .char _ => 1
  | .repeated _ least _ => least
  | .seq first second => first.minLength + second.minLength
  | .either first second => min first.minLength second.minLength
  | .group _ inside => inside.minLength
  | _ => 0

variable (pattern : Pattern)

/-- The match between these parts of a text. -/
def matchBetween (before rest : Text) : Option Match :=
  (pattern.runs ⟨before, rest, []⟩).head?.map fun after =>
    ⟨before.length, before.length + (rest.length - after.rest.length), after.groups⟩

/-- The match that begins at a place. -/
def matchAt (text : Text) (place : Nat) : Option Match :=
  if place ≤ text.length then pattern.matchBetween (text.take place).reverse (text.drop place)
  else none

/-- The matches from the left, with so many characters left of the last one.  A match of the
empty text leaves the same characters to the next. -/
def matchesFrom (skipped : Nat) (before : Text) : Text → List Match
  | [] => if skipped = 0 then (pattern.matchBetween before []).toList else []
  | c :: rest =>
      if skipped = 0 then
        match pattern.matchBetween before (c :: rest) with
        | some found =>
            found :: matchesFrom (found.stop - found.start - 1) (c :: before) rest
        | none => matchesFrom 0 (c :: before) rest
      else matchesFrom (skipped - 1) (c :: before) rest

/-- `pattern.finditer(text)` for a pattern that does not match the empty text. -/
def finditer (text : Text) : List Match :=
  pattern.matchesFrom 0 [] text

/-- The text with its matches replaced, with so many characters left of the last one. -/
def subFrom (template : Match → Text) (skipped : Nat) (before : Text) : Text → Text
  | [] =>
      if skipped = 0 then (pattern.matchBetween before []).elim [] template else []
  | c :: rest =>
      if skipped = 0 then
        match pattern.matchBetween before (c :: rest) with
        | some found =>
            template found ++
              subFrom template (found.stop - found.start - 1) (c :: before) rest
        | none => c :: subFrom template 0 (c :: before) rest
      else subFrom template (skipped - 1) (c :: before) rest

/-- `pattern.sub(template, text)` for a pattern that does not match the empty text. -/
def sub (template : Match → Text) (text : Text) : Text :=
  pattern.subFrom template 0 [] text

variable {pattern}

/-! ## Lengths -/

theorem available_le {accepts : Char → Bool} {most : Option Nat} {rest : Text} :
    available accepts most rest ≤ rest.length := by
  have all : (rest.takeWhile accepts).length ≤ rest.length :=
    (List.takeWhile_prefix accepts).length_le
  cases most with
  | none => exact all
  | some bound => exact (Nat.min_le_right _ _).trans all

/-- A match takes at least the fewest characters of the pattern. -/
theorem length_add_minLength_le {cursor after : Cursor} (run : after ∈ pattern.runs cursor) :
    after.rest.length + pattern.minLength ≤ cursor.rest.length := by
  induction pattern generalizing cursor after with
  | empty =>
      cases List.mem_singleton.mp run
      exact Nat.le_refl _
  | char accepts =>
      rw [runs] at run
      split at run
      · rename_i accepted
        cases List.mem_singleton.mp run
        cases rest : cursor.rest with
        | nil => simp [rest] at accepted
        | cons c later => simp [minLength, rest]
      · cases run
  | start | finish | boundary | notBehind | notAhead =>
      rw [runs] at run
      split at run
      all_goals first | (cases List.mem_singleton.mp run; exact Nat.le_refl _) | cases run
  | repeated accepts least most =>
      obtain ⟨taken, inside, rfl⟩ := List.mem_map.mp run
      have bounds := List.mem_range'_1.mp (List.mem_reverse.mp inside)
      have within := @available_le accepts most cursor.rest
      rw [Cursor.length_pass, minLength]
      omega
  | seq first second ihFirst ihSecond =>
      obtain ⟨between, before, behind⟩ := List.mem_flatMap.mp run
      have length := ihFirst before
      have length' := ihSecond behind
      rw [minLength]
      omega
  | either first second ihFirst ihSecond =>
      rw [minLength]
      rcases List.mem_append.mp run with left | right
      · have length := ihFirst left
        omega
      · have length := ihSecond right
        omega
  | group name inside ih =>
      obtain ⟨inner, here, rfl⟩ := List.mem_map.mp run
      have length := ih here
      exact length
  | back name =>
      rw [runs] at run
      split at run
      · cases run
      · split at run
        · cases List.mem_singleton.mp run
          rw [Cursor.length_pass]
          exact Nat.sub_le _ _
        · cases run

/-- The places of a match. -/
theorem matchBetween_bounds {before rest : Text} {found : Match}
    (done : pattern.matchBetween before rest = some found) :
    found.start = before.length ∧ found.start + pattern.minLength ≤ found.stop ∧
      found.stop ≤ before.length + rest.length := by
  obtain ⟨after, first, rfl⟩ := Option.map_eq_some_iff.mp done
  have length := length_add_minLength_le (List.mem_of_head? first)
  refine ⟨rfl, ?_, ?_⟩
  · dsimp only at length ⊢
    omega
  · dsimp only
    omega

theorem matchAt_bounds {text : Text} {place : Nat} {found : Match}
    (done : pattern.matchAt text place = some found) :
    found.start = place ∧ place + pattern.minLength ≤ found.stop ∧
      found.stop ≤ text.length := by
  rw [matchAt] at done
  split at done
  · rename_i inside
    have bounds := matchBetween_bounds done
    simp only [List.length_reverse, List.length_take, List.length_drop] at bounds
    omega
  · cases done

/-- Between two parts of a text stands the place behind the first one. -/
theorem matchAt_append (before rest : Text) :
    pattern.matchAt (before.reverse ++ rest) before.length =
      pattern.matchBetween before rest := by
  have length : before.reverse.length = before.length := List.length_reverse
  rw [matchAt, if_pos (by simp), ← length, List.take_left, List.drop_left,
    List.reverse_reverse]

/-! ## Matches from the left -/

/-- Where the match that begins at a place ends. -/
def ends (pattern : Pattern) (text : Text) (place : Nat) : Option Nat :=
  (pattern.matchAt text place).map Match.stop

open Select

/-- The matches are the leftmost disjoint ones. -/
theorem mem_matchesFrom_iff (visible : 0 < pattern.minLength) {text : Text} {skipped : Nat}
    {before rest : Text} {found : Match} (whole : before.reverse ++ rest = text)
    (inside : skipped ≤ rest.length) :
    found ∈ pattern.matchesFrom skipped before rest ↔
      Chosen (pattern.ends text) (before.length + skipped) found.start ∧
        pattern.matchAt text found.start = some found := by
  induction rest generalizing skipped before with
  | nil =>
      have atEnd : skipped = 0 := by simpa using inside
      subst atEnd
      have nothing : ∀ {place}, before.length ≤ place → pattern.matchAt text place = none := by
        intro place behind
        cases here : pattern.matchAt text place with
        | none => rfl
        | some other =>
            have bounds := matchAt_bounds here
            rw [← whole, List.append_nil, List.length_reverse] at bounds
            omega
      have absent : pattern.matchBetween before [] = none := by
        rw [← matchAt_append before [], whole]
        exact nothing (Nat.le_refl _)
      rw [matchesFrom, if_pos rfl, absent]
      constructor
      · intro member
        cases member
      · rintro ⟨chosen, here⟩
        rw [nothing (by simpa using (chosen_iff.mp chosen).1)] at here
        cases here
  | cons c rest ih =>
      have next : (c :: before).reverse ++ rest = text := by
        rw [← whole, List.reverse_cons, List.append_assoc]
        rfl
      have longer : (c :: before).length = before.length + 1 := List.length_cons
      rw [matchesFrom]
      split
      · rename_i rested
        subst rested
        rw [Nat.add_zero]
        have here := @matchAt_append pattern before (c :: rest)
        rw [whole] at here
        cases reached : pattern.matchBetween before (c :: rest) with
        | none =>
            have absent : pattern.ends text before.length = none := by
              rw [ends, here, reached]
              rfl
            dsimp only
            rw [ih next (Nat.zero_le _), longer, Nat.add_zero, chosen_of_none absent]
        | some first =>
            have bounds := matchBetween_bounds reached
            rw [List.length_cons] at bounds
            have present : pattern.ends text before.length = some first.stop := by
              rw [ends, here, reached]
              rfl
            dsimp only
            rw [List.mem_cons, ih next (by omega), longer,
              chosen_of_some present (by omega)]
            have behind : before.length + 1 + (first.stop - first.start - 1) = first.stop := by
              omega
            rw [behind]
            constructor
            · rintro (rfl | ⟨chosen, done⟩)
              · refine ⟨.inl bounds.1, ?_⟩
                rw [bounds.1, here, reached]
              · exact ⟨.inr chosen, done⟩
            · rintro ⟨same | chosen, done⟩
              · left
                rw [same, here, reached] at done
                exact (Option.some.inj done).symm
              · exact .inr ⟨chosen, done⟩
      · rename_i further
        rw [List.length_cons] at inside
        rw [ih next (by omega), longer]
        have same : before.length + 1 + (skipped - 1) = before.length + skipped := by
          omega
        rw [same]

theorem mem_finditer_iff (visible : 0 < pattern.minLength) {text : Text} {found : Match} :
    found ∈ pattern.finditer text ↔
      Chosen (pattern.ends text) 0 found.start ∧
        pattern.matchAt text found.start = some found :=
  mem_matchesFrom_iff visible rfl (Nat.zero_le _)

/-- There is a match exactly if the pattern matches anywhere. -/
theorem finditer_ne_nil_iff (visible : 0 < pattern.minLength) {text : Text} :
    pattern.finditer text ≠ [] ↔ ∃ place, (pattern.matchAt text place).isSome = true := by
  have spans : ∀ place, (pattern.ends text place).isSome =
      (pattern.matchAt text place).isSome := fun place => Option.isSome_map
  constructor
  · intro some_match
    obtain ⟨found, member⟩ := List.exists_mem_of_ne_nil _ some_match
    obtain ⟨-, here⟩ := (mem_finditer_iff visible).mp member
    exact ⟨found.start, by rw [here]; rfl⟩
  · rintro ⟨place, here⟩
    rw [← spans] at here
    obtain ⟨first, chosen⟩ := exists_chosen_iff.mpr ⟨place, here⟩
    have present := (chosen_iff.mp chosen).2.1
    rw [spans] at present
    obtain ⟨found, done⟩ := Option.isSome_iff_exists.mp present
    have same := (matchAt_bounds done).1
    apply List.ne_nil_of_mem (a := found)
    apply (mem_finditer_iff visible).mpr
    rw [same]
    exact ⟨chosen, done⟩

end Pattern

end DataOlympus.Lines
