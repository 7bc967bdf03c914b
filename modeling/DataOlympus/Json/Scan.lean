import Mathlib.Data.List.Basic

/-!
# Where a reader of JSON stands

A reader of JSON knows at each character how many brackets are open and whether it stands
inside a string.  A text with a backslash outside of strings or an unknown escape, or which ends
before everything is closed, is no JSON.  This leaf module supplies the scan, and what becomes
of it behind open brackets or inside a string.
-/

namespace DataOlympus.Json

/-- Outside of strings, inside a string, or behind a backslash inside a string, with a number
of open brackets. -/
inductive Place where
  | outside (depth : Nat)
  | inside (depth : Nat)
  | escaped (depth : Nat)
  deriving DecidableEq

/-- The characters that may stand behind a backslash. -/
def escapes : List Char :=
  "\"\\/bfnrtu".toList

/-- One bracket less. -/
def close : Nat → Option Place
  | 0 => none
  | depth + 1 => some (.outside depth)

/-- What a character does outside of strings. -/
def stepOutside (depth : Nat) (c : Char) : Option Place :=
  if c = '"' then some (.inside depth)
  else if c = '{' ∨ c = '[' then some (.outside (depth + 1))
  else if c = '}' ∨ c = ']' then close depth
  else if c = '\\' then none
  else some (.outside depth)

/-- What a character does inside a string. -/
def stepInside (depth : Nat) (c : Char) : Option Place :=
  if c = '"' then some (.outside depth)
  else if c = '\\' then some (.escaped depth)
  else some (.inside depth)

/-- What a character does. -/
def step : Place → Char → Option Place
  | .outside depth, c => stepOutside depth c
  | .inside depth, c => stepInside depth c
  | .escaped depth, c => if c ∈ escapes then some (.inside depth) else none

/-- The place behind a text. -/
def scan (place : Place) : List Char → Option Place
  | [] => some place
  | c :: rest => (step place c).bind fun next => scan next rest

/-- Everything that the text opens is closed. -/
def Closed (text : List Char) : Prop :=
  scan (.outside 0) text = some (.outside 0)

/-- What a text of JSON is at least: closed, and with nothing but white space behind an
object. -/
structure Document (text : List Char) : Prop where
  closed : Closed text
  single : ∀ body rest, text = '{' :: body ++ rest → Closed ('{' :: body) →
    ∀ c ∈ rest, c ∈ [' ', '\t', '\n', '\r']

theorem scan_append (place : Place) (first second : List Char) :
    scan place (first ++ second) = (scan place first).bind fun next => scan next second := by
  induction first generalizing place with
  | nil => rfl
  | cons c rest ih =>
      rw [List.cons_append, scan, scan, Option.bind_assoc]
      congr 1
      funext next
      exact ih next

/-- What is scanned to a place is scanned to some place on the way. -/
theorem exists_of_scan_append {place reached : Place} {first second : List Char}
    (scanned : scan place (first ++ second) = some reached) :
    ∃ next, scan place first = some next ∧ scan next second = some reached := by
  rw [scan_append] at scanned
  exact Option.bind_eq_some_iff.mp scanned

theorem scan_of_append {place next reached : Place} {first second : List Char}
    (before : scan place first = some next) (after : scan next second = some reached) :
    scan place (first ++ second) = some reached := by
  rw [scan_append, before, Option.bind_some, after]

/-! ## More open brackets -/

/-- The same place behind more open brackets. -/
def Place.lift (more : Nat) : Place → Place
  | outside depth => outside (depth + more)
  | inside depth => inside (depth + more)
  | escaped depth => escaped (depth + more)

theorem close_lift {depth : Nat} {reached : Place} (closed : close depth = some reached)
    (more : Nat) : close (depth + more) = some (reached.lift more) := by
  cases depth with
  | zero => cases closed
  | succ depth =>
      cases closed
      rw [Nat.add_right_comm]
      rfl

theorem step_lift {place reached : Place} {c : Char} (stepped : step place c = some reached)
    (more : Nat) : step (place.lift more) c = some (reached.lift more) := by
  cases place with
  | outside depth =>
      change stepOutside depth c = some reached at stepped
      change stepOutside (depth + more) c = _
      unfold stepOutside at stepped ⊢
      split_ifs at stepped ⊢
      · cases stepped
        rfl
      · cases stepped
        rw [Nat.add_right_comm]
        rfl
      · exact close_lift stepped more
      · cases stepped
        rfl
  | inside depth =>
      change stepInside depth c = some reached at stepped
      change stepInside (depth + more) c = _
      unfold stepInside at stepped ⊢
      split_ifs at stepped ⊢
      all_goals
        cases stepped
        rfl
  | escaped depth =>
      change (if c ∈ escapes then some (Place.inside depth) else none) = some reached at stepped
      change (if c ∈ escapes then some (Place.inside (depth + more)) else none) = _
      split_ifs at stepped ⊢
      cases stepped
      rfl

/-- Open brackets in front of a text do not disturb its scan. -/
theorem scan_lift {place reached : Place} {text : List Char}
    (scanned : scan place text = some reached) (more : Nat) :
    scan (place.lift more) text = some (reached.lift more) := by
  induction text generalizing place with
  | nil =>
      cases scanned
      rfl
  | cons c rest ih =>
      obtain ⟨next, stepped, scannedRest⟩ := Option.bind_eq_some_iff.mp scanned
      rw [scan, step_lift stepped more, Option.bind_some]
      exact ih scannedRest

/-- A closed text between open brackets. -/
theorem Closed.scan {text : List Char} (closed : Closed text) (depth : Nat) :
    scan (.outside depth) text = some (.outside depth) := by
  have lifted := scan_lift closed depth
  simpa [Place.lift] using lifted

/-! ## Inside a string -/

/-- Outside of strings a quote opens one, and a backslash is illegal. -/
theorem stepOutside_cases {depth : Nat} {c : Char} {reached : Place}
    (stepped : stepOutside depth c = some reached) :
    (c = '"' ∧ reached = .inside depth) ∨
      (c ≠ '"' ∧ c ≠ '\\' ∧ ∃ next, reached = .outside next) := by
  unfold stepOutside at stepped
  split_ifs at stepped with quote opens closes backslash
  · cases stepped
    exact .inl ⟨quote, rfl⟩
  · cases stepped
    refine .inr ⟨quote, ?_, _, rfl⟩
    rintro rfl
    exact absurd opens (by decide)
  · refine .inr ⟨quote, ?_, ?_⟩
    · rintro rfl
      exact absurd closes (by decide)
    · cases depth with
      | zero => cases stepped
      | succ depth =>
          cases stepped
          exact ⟨_, rfl⟩
  · cases stepped
    exact .inr ⟨quote, backslash, _, rfl⟩

/-- Inside a string a quote ends it, and a backslash escapes. -/
theorem stepInside_cases {depth : Nat} {c : Char} {reached : Place}
    (stepped : stepInside depth c = some reached) :
    (c = '"' ∧ reached = .outside depth) ∨ (c = '\\' ∧ reached = .escaped depth) ∨
      (c ≠ '"' ∧ reached = .inside depth) := by
  unfold stepInside at stepped
  split_ifs at stepped with quote backslash
  · cases stepped
    exact .inl ⟨quote, rfl⟩
  · cases stepped
    exact .inr (.inl ⟨backslash, rfl⟩)
  · cases stepped
    exact .inr (.inr ⟨quote, rfl⟩)

/-- One place is inside a string and the other is outside. -/
inductive Opposes : Place → Place → Prop
  | outside (first second : Nat) : Opposes (.outside first) (.inside second)
  | inside (first second : Nat) : Opposes (.inside first) (.outside second)

theorem Opposes.symm {place other : Place} (opposes : Opposes place other) :
    Opposes other place := by
  cases opposes with
  | outside first second => exact .inside second first
  | inside first second => exact .outside second first

/-- A quote is one for both places, and a backslash is illegal at one of them. -/
theorem opposes_step {first second : Nat} {c : Char} {reached other : Place}
    (stepped : stepOutside first c = some reached) (opposite : stepInside second c = some other) :
    Opposes reached other := by
  rcases stepOutside_cases stepped with ⟨quote, rfl⟩ | ⟨noQuote, noBackslash, next, rfl⟩
  · rcases stepInside_cases opposite with ⟨-, rfl⟩ | ⟨backslash, -⟩ | ⟨noQuote, -⟩
    · exact .inside _ _
    · exact absurd (quote.symm.trans backslash) (by decide)
    · exact absurd quote noQuote
  · rcases stepInside_cases opposite with ⟨quote, -⟩ | ⟨backslash, -⟩ | ⟨-, rfl⟩
    · exact absurd quote noQuote
    · exact absurd backslash noBackslash
    · exact .outside _ _

/-- A text that is scanned from both places leads to such places again. -/
theorem opposes_scan {place other reached otherReached : Place} {text : List Char}
    (opposes : Opposes place other) (scanned : scan place text = some reached)
    (otherScanned : scan other text = some otherReached) : Opposes reached otherReached := by
  induction text generalizing place other with
  | nil =>
      cases scanned
      cases otherScanned
      exact opposes
  | cons c rest ih =>
      obtain ⟨next, stepped, scannedRest⟩ := Option.bind_eq_some_iff.mp scanned
      obtain ⟨otherNext, otherStepped, otherRest⟩ := Option.bind_eq_some_iff.mp otherScanned
      refine ih ?_ scannedRest otherRest
      cases opposes with
      | outside first second => exact opposes_step stepped otherStepped
      | inside first second => exact (opposes_step otherStepped stepped).symm

/-! ## Texts behind each other -/

/-- Behind a text that leaves something open, a text that begins with a bracket closes
nothing. -/
theorem not_closed_append {first rest : List Char} (left : ¬Closed first)
    (closed : Closed ('{' :: rest)) : ¬Closed (first ++ '{' :: rest) := by
  intro glued
  obtain ⟨place, before, after⟩ := exists_of_scan_append glued
  cases place with
  | outside depth =>
      have lifted := closed.scan depth
      rw [after] at lifted
      cases lifted
      exact left before
  | inside depth => nomatch opposes_scan (.inside depth 0) after closed
  | escaped depth => cases after

/-- Behind an object an open bracket is no document. -/
theorem not_document_append {body rest : List Char} (whole : Closed ('{' :: body)) :
    ¬Document ('{' :: body ++ '{' :: rest) := by
  intro document
  have blank := document.single body _ rfl whole '{' List.mem_cons_self
  exact absurd blank (by decide)

/-- The beginnings of a text in brackets are not closed. -/
theorem not_closed_of_begun {body first rest : List Char} (closed : Closed body)
    (nonempty : first ≠ []) (proper : rest ≠ [])
    (whole : first ++ rest = '{' :: body ++ ['}']) : ¬Closed first := by
  intro here
  cases first with
  | nil => exact nonempty rfl
  | cons c begun =>
      obtain ⟨ended, last, rfl⟩ := (List.eq_nil_or_concat rest).resolve_left proper
      rw [List.concat_eq_append, List.cons_append, List.cons_append, ← List.append_assoc] at whole
      obtain ⟨rfl, behind⟩ := List.cons.inj whole
      obtain ⟨rfl, -⟩ := List.append_inj' behind rfl
      obtain ⟨place, before, -⟩ := exists_of_scan_append closed
      have lifted := scan_lift before 1
      change (some (Place.outside 1)).bind (fun next => scan next begun) = _ at here
      rw [Option.bind_some] at here
      rw [show Place.lift 1 (.outside 0) = .outside 1 from rfl, here] at lifted
      cases place with
      | outside depth => cases lifted
      | inside depth => cases lifted
      | escaped depth => cases lifted

end DataOlympus.Json
