import DataOlympus.Version.SemVer

/-!
# Python package versions

The normal form of a public version without an epoch, and the order of versions: by the
release with zeros filled in, then development releases before prereleases before the
release before its post releases.
-/

namespace DataOlympus.Version

open Lines

/-- The letters of a prerelease. -/
inductive Phase where
  | a
  | b
  | rc
  deriving DecidableEq

structure Pep440 where
  release : List Nat
  pre : Option (Phase × Nat) := none
  post : Option Nat := none
  dev : Option Nat := none
  deriving DecidableEq

namespace Pep440

/-- The number of a segment behind its word. -/
def readSegment (word text : Text) : Option Nat :=
  if word <+: text then readNumber (text.drop word.length) else none

/-- A last segment with the word is taken off. -/
def takeSegment (word : Text) (segments : List Text) : List Text × Option Nat :=
  match (segments.getLast?).bind (readSegment word) with
  | some n => (segments.dropLast, some n)
  | none => (segments, none)

/-- A number that a prerelease may follow. -/
def readLast (text : Text) : Option (Nat × Option (Phase × Nat)) :=
  let behind := text.dropWhile Char.isDigit
  (readNumber (text.takeWhile Char.isDigit)).bind fun n =>
    if behind.isEmpty then some (n, none)
    else
      match readSegment ['a'] behind, readSegment ['b'] behind, readSegment ['r', 'c'] behind with
      | some m, _, _ => some (n, some (.a, m))
      | none, some m, _ => some (n, some (.b, m))
      | none, none, some m => some (n, some (.rc, m))
      | none, none, none => none

/-- The release and the prerelease. -/
def readRelease : List Text → Option (List Nat × Option (Phase × Nat))
  | [] => none
  | [last] => (readLast last).map fun (n, pre) => ([n], pre)
  | first :: rest => (readNumber first).bind fun n => (readRelease rest).map fun (numbers, pre) =>
      (n :: numbers, pre)

/-- The version of a text. -/
def read (text : Text) : Option Pep440 :=
  let (segments, dev) := takeSegment "dev".toList (text.splitOn '.')
  let (segments, post) := takeSegment "post".toList segments
  (readRelease segments).map fun (release, pre) => ⟨release, pre, post, dev⟩

/-- Releases of different lengths are compared as if zeros followed. -/
def compareRelease : List Nat → List Nat → Ordering
  | [], others => if others.all (· = 0) then .eq else .lt
  | m :: rest, [] => if (m :: rest).all (· = 0) then .eq else .gt
  | m :: rest, n :: others => (Ord.compare m n).then (compareRelease rest others)

/-- A development release alone comes before the prereleases, and these before the rest. -/
def preKey (version : Pep440) : Nat × Nat :=
  match version.pre, version.post, version.dev with
  | some (.a, n), _, _ => (1, n)
  | some (.b, n), _, _ => (2, n)
  | some (.rc, n), _, _ => (3, n)
  | none, none, some _ => (0, 0)
  | none, _, _ => (4, 0)

def postKey (version : Pep440) : Nat × Nat :=
  match version.post with
  | none => (0, 0)
  | some n => (1, n)

def devKey (version : Pep440) : Nat × Nat :=
  match version.dev with
  | some n => (0, n)
  | none => (1, 0)

def comparePair (first second : Nat × Nat) : Ordering :=
  (Ord.compare first.1 second.1).then (Ord.compare first.2 second.2)

def compare (first second : Pep440) : Ordering :=
  (compareRelease first.release second.release).then <|
    (comparePair first.preKey second.preKey).then <|
      (comparePair first.postKey second.postKey).then (comparePair first.devKey second.devKey)

/-- Both texts are versions, and the first is the lower one. -/
def Precedes (first second : Text) : Prop :=
  ∃ old new, read first = some old ∧ read second = some new ∧ compare old new = .lt

example : (read "1.2.dev3".toList).bind (fun old => (read "1.2.0a1.post2".toList).map
    (compare old)) = some .lt := by decide

/-! ## Reading -/

variable {text : Text} {major minor patch n : Nat}

theorem readSegment_append (word : Text) (n : Nat) :
    readSegment word (word ++ number n) = some n := by
  rw [readSegment, if_pos (List.prefix_append word _), List.drop_left, readNumber_number]

/-- A segment that begins with a digit is no word. -/
theorem readSegment_of_digits {word rest : Text} {c : Char} (digit : c.isDigit = true)
    (letters : ∀ first ∈ word.head?, first.isDigit = false) (nonempty : word ≠ []) :
    readSegment word (c :: rest) = none := by
  apply if_neg
  intro leads
  cases word with
  | nil => exact nonempty rfl
  | cons first word =>
      obtain ⟨rfl, _⟩ := List.cons_prefix_cons.mp leads
      rw [letters first rfl] at digit
      cases digit

theorem takeSegment_of_digits {word last : Text} {segments : List Text} {c : Char} {rest : Text}
    (begins : last = c :: rest) (digit : c.isDigit = true)
    (letters : ∀ first ∈ word.head?, first.isDigit = false) (nonempty : word ≠ []) :
    takeSegment word (segments ++ [last]) = (segments ++ [last], none) := by
  rw [takeSegment, List.getLast?_concat, Option.bind_some, begins,
    readSegment_of_digits digit letters nonempty]

theorem exists_cons_of_readNumber (read : readNumber text = some n) :
    ∃ c rest, text = c :: rest ∧ c.isDigit = true := by
  have digits := isDigit_of_readNumber read
  cases text with
  | nil => cases read
  | cons c rest => exact ⟨c, rest, rfl, digits c List.mem_cons_self⟩

theorem takeWhile_isDigit (digits : ∀ c ∈ text, c.isDigit = true) (rest : Text) :
    (text ++ rest).takeWhile Char.isDigit = text ++ rest.takeWhile Char.isDigit ∧
      (text ++ rest).dropWhile Char.isDigit = rest.dropWhile Char.isDigit :=
  ⟨List.takeWhile_append_of_pos digits, List.dropWhile_append_of_pos digits⟩

/-- The release behind the words, when no word ends the text. -/
theorem read_of_splitOn {a b last : Text} {a' b' : Nat} {rest : Text} {c : Char}
    (cut : text.splitOn '.' = [a, b, last]) (first : readNumber a = some a')
    (second : readNumber b = some b') (begins : last = c :: rest) (digit : c.isDigit = true) :
    read text = (readLast last).map fun (n, pre) => { release := [a', b', n], pre := pre } := by
  have no_dev : takeSegment "dev".toList [a, b, last] = ([a, b, last], none) :=
    @takeSegment_of_digits "dev".toList last [a, b] c rest begins digit (by rintro _ ⟨⟩; rfl)
      (by decide)
  have no_post : takeSegment "post".toList [a, b, last] = ([a, b, last], none) :=
    @takeSegment_of_digits "post".toList last [a, b] c rest begins digit (by rintro _ ⟨⟩; rfl)
      (by decide)
  unfold read
  rw [cut, no_dev]
  dsimp only
  rw [no_post]
  dsimp only [readRelease]
  rw [first, second]
  cases readLast last with
  | none => rfl
  | some found => rfl

/-- A release candidate. -/
theorem read_rc (core : SemVer.readCore text = some (major, minor, patch)) (n : Nat) :
    read (text ++ ("rc".toList ++ number n)) =
      some { release := [major, minor, patch], pre := some (.rc, n) } := by
  obtain ⟨a, b, c, rfl, first, second, third⟩ := SemVer.readCore_eq_some_iff.mp core
  obtain ⟨digit, rest, begins, isDigit⟩ := exists_cons_of_readNumber third
  have no_dot : '.' ∉ c ++ ("rc".toList ++ number n) := by
    rw [List.mem_append, List.mem_append, not_or, not_or]
    refine ⟨dot_not_mem_of_readNumber third, by decide, ?_⟩
    exact dot_not_mem_of_readNumber (readNumber_number n)
  have cut : (a ++ '.' :: (b ++ '.' :: (c ++ ("rc".toList ++ number n)))).splitOn '.' =
      [a, b, c ++ ("rc".toList ++ number n)] := by
    rw [List.splitOn_append_cons_self_of_not_mem (dot_not_mem_of_readNumber first),
      List.splitOn_append_cons_self_of_not_mem (dot_not_mem_of_readNumber second),
      List.splitOn_eq_singleton no_dot]
  have parts := takeWhile_isDigit (isDigit_of_readNumber third) ("rc".toList ++ number n)
  have last : readLast (c ++ ("rc".toList ++ number n)) = some (patch, some (.rc, n)) := by
    have stops : ("rc".toList ++ number n).takeWhile Char.isDigit = [] ∧
        ("rc".toList ++ number n).dropWhile Char.isDigit = "rc".toList ++ number n := ⟨rfl, rfl⟩
    have no_a : readSegment ['a'] ("rc".toList ++ number n) = none := rfl
    have no_b : readSegment ['b'] ("rc".toList ++ number n) = none := rfl
    have rc : readSegment ['r', 'c'] ("rc".toList ++ number n) = some n := readSegment_append _ n
    unfold readLast
    rw [parts.1, parts.2, stops.1, stops.2, List.append_nil, third]
    dsimp only [Option.bind_some]
    rw [no_a, no_b, rc]
    rfl
  rw [List.append_assoc, List.cons_append, List.append_assoc, List.cons_append,
    read_of_splitOn cut first second (by rw [begins]; rfl) isDigit, last]
  rfl

/-- A development release. -/
theorem read_dev (core : SemVer.readCore text = some (major, minor, patch)) (n : Nat) :
    read (text ++ (".dev".toList ++ number n)) =
      some { release := [major, minor, patch], dev := some n } := by
  obtain ⟨a, b, c, rfl, first, second, third⟩ := SemVer.readCore_eq_some_iff.mp core
  obtain ⟨digit, rest, begins, isDigit⟩ := exists_cons_of_readNumber third
  have no_dot : '.' ∉ "dev".toList ++ number n := by
    rw [List.mem_append, not_or]
    exact ⟨by decide, dot_not_mem_of_readNumber (readNumber_number n)⟩
  have cut : (a ++ '.' :: (b ++ '.' :: (c ++ '.' :: ("dev".toList ++ number n)))).splitOn '.' =
      [a, b, c] ++ ["dev".toList ++ number n] := by
    rw [List.splitOn_append_cons_self_of_not_mem (dot_not_mem_of_readNumber first),
      List.splitOn_append_cons_self_of_not_mem (dot_not_mem_of_readNumber second),
      List.splitOn_append_cons_self_of_not_mem (dot_not_mem_of_readNumber third),
      List.splitOn_eq_singleton no_dot]
    rfl
  have dev : takeSegment "dev".toList ([a, b, c] ++ ["dev".toList ++ number n]) =
      ([a, b, c], some n) := by
    rw [takeSegment, List.getLast?_concat, Option.bind_some, readSegment_append]
    rfl
  have no_post : takeSegment "post".toList [a, b, c] = ([a, b, c], none) :=
    @takeSegment_of_digits "post".toList c [a, b] digit rest begins isDigit (by rintro _ ⟨⟩; rfl)
      (by decide)
  have last : readLast c = some (patch, none) := by
    have parts := takeWhile_isDigit (isDigit_of_readNumber third) []
    rw [List.append_nil, List.takeWhile_nil, List.append_nil, List.dropWhile_nil] at parts
    rw [readLast, parts.1, parts.2, third]
    rfl
  have written : a ++ '.' :: (b ++ '.' :: c) ++ (".dev".toList ++ number n) =
      a ++ '.' :: (b ++ '.' :: (c ++ '.' :: ("dev".toList ++ number n))) := by
    simp
  unfold read
  rw [written, cut, dev]
  dsimp only
  rw [no_post]
  dsimp only [readRelease]
  rw [first, second, last]
  rfl

/-! ## Order -/

theorem compareRelease_self (release : List Nat) : compareRelease release release = .eq := by
  induction release with
  | nil => rfl
  | cons n rest ih =>
      rw [compareRelease, ih, Nat.compare_eq_eq.mpr rfl]
      rfl

/-- Versions with different numbers. -/
theorem compare_of_coreLt {first second : Pep440} {old new : Nat × Nat × Nat}
    (release : first.release = [old.1, old.2.1, old.2.2])
    (other : second.release = [new.1, new.2.1, new.2.2]) (less : SemVer.CoreLt old new) :
    compare first second = .lt := by
  have releases : compareRelease first.release second.release = .lt := by
    rw [release, other]
    simp only [compareRelease, Ordering.then_eq_lt, Nat.compare_eq_lt, Nat.compare_eq_eq]
    obtain major | ⟨major, minor | ⟨minor, patch⟩⟩ := less
    · exact .inl major
    · exact .inr ⟨major, .inl minor⟩
    · exact .inr ⟨major, .inr ⟨minor, .inl patch⟩⟩
  rw [compare, releases]
  rfl

theorem compare_rc {release : List Nat} {m n : Nat} (less : m < n) :
    compare { release := release, pre := some (.rc, m) }
      { release := release, pre := some (.rc, n) } = .lt := by
  have phase : comparePair (3, m) (3, n) = .lt := by
    rw [comparePair, Nat.compare_eq_lt.mpr less]
    rfl
  rw [compare, compareRelease_self]
  change (comparePair (3, m) (3, n)).then _ = .lt
  rw [phase]
  rfl

theorem compare_dev {release : List Nat} {m n : Nat} (less : m < n) :
    compare { release := release, dev := some m } { release := release, dev := some n } = .lt := by
  have last : comparePair (0, m) (0, n) = .lt := by
    rw [comparePair, Nat.compare_eq_lt.mpr less]
    rfl
  rw [compare, compareRelease_self]
  exact last

end Pep440

end DataOlympus.Version
