import DataOlympus.Python.JsonRead

/-!
# What is read is closed

A text that `json.loads` reads is one value: its brackets and strings are closed, and nothing but
white space stands behind it.
-/

namespace DataOlympus

open Json Lines

/-- What was read of a text leaves a reader where it was. -/
def Consumes (text rest : Text) : Prop :=
  ∃ used, text = used ++ rest ∧ ∀ depth, scan (.outside depth) used = some (.outside depth)

/-- What was read of a text leaves a reader inside its string. -/
def ConsumesInside (text rest : Text) : Prop :=
  ∃ used, text = used ++ rest ∧ ∀ depth, scan (.inside depth) used = some (.inside depth)

namespace Consumes

theorem refl (text : Text) : Consumes text text :=
  ⟨[], rfl, fun _ => rfl⟩

theorem trans {first second third : Text} (left : Consumes first second)
    (right : Consumes second third) : Consumes first third := by
  obtain ⟨used, rfl, scanned⟩ := left
  obtain ⟨more, rfl, scannedMore⟩ := right
  exact ⟨used ++ more, (List.append_assoc _ _ _).symm,
    fun depth => scan_of_append (scanned depth) (scannedMore depth)⟩

theorem cons {c : Char} (still : ∀ depth, step (.outside depth) c = some (.outside depth))
    (rest : Text) : Consumes (c :: rest) rest := by
  refine ⟨[c], rfl, ?_⟩
  intro depth
  rw [scan, still]
  rfl

/-- Single characters that leave a reader where it was. -/
theorem takeWhile {among : Char → Bool} (still : ∀ c, among c = true →
      ∀ depth, step (.outside depth) c = some (.outside depth)) (text : Text) :
    Consumes text (text.dropWhile among) := by
  induction text with
  | nil => exact refl _
  | cons c rest ih =>
      by_cases here : among c = true
      · rw [List.dropWhile_cons_of_pos here]
        exact (cons (still c here) rest).trans ih
      · rw [List.dropWhile_cons_of_neg here]
        exact refl _

theorem skipBlank (text : Text) : Consumes text (skipBlank text) := by
  apply takeWhile
  intro c blank depth
  simp only [isJsonBlank, Bool.or_eq_true, decide_eq_true_eq] at blank
  rcases blank with ((rfl | rfl) | rfl) | rfl <;> rfl

end Consumes

theorem ConsumesInside.trans {first second third : Text} (left : ConsumesInside first second)
    (right : ConsumesInside second third) : ConsumesInside first third := by
  obtain ⟨used, rfl, scanned⟩ := left
  obtain ⟨more, rfl, scannedMore⟩ := right
  exact ⟨used ++ more, (List.append_assoc _ _ _).symm,
    fun depth => scan_of_append (scanned depth) (scannedMore depth)⟩

theorem ConsumesInside.cons {c : Char} (noQuote : c ≠ '"') (noBackslash : c ≠ '\\')
    (rest : Text) : ConsumesInside (c :: rest) rest := by
  refine ⟨[c], rfl, ?_⟩
  intro depth
  change (stepInside depth c).bind _ = _
  rw [stepInside, if_neg noQuote, if_neg noBackslash]
  rfl

theorem consumesInside_hex {c : Char} {n : Nat} (digit : hexValue c = some n) (rest : Text) :
    ConsumesInside (c :: rest) rest := by
  apply ConsumesInside.cons
  · rintro rfl
    cases digit
  · rintro rfl
    cases digit

theorem mem_escapes_of_unescaped {c d : Char} (known : unescaped c = some d) : c ∈ escapes := by
  unfold unescaped at known
  have member : c ∈ ['"', '\\', '/', 'b', 'f', 'n', 'r', 't', 'u'] := by
    split_ifs at known
    all_goals simp [*]
  exact member

/-- An escape is one inside its string. -/
theorem consumesInside_readEscape {text rest : Text} {point : CodePoint}
    (read : readEscape text = some (point, rest)) : ConsumesInside ('\\' :: text) rest := by
  have escape : ∀ c behind, c ∈ escapes → ConsumesInside ('\\' :: c :: behind) behind := by
    intro c behind known
    refine ⟨['\\', c], rfl, ?_⟩
    intro depth
    change (if c ∈ escapes then some (Place.inside depth) else none).bind _ = _
    rw [if_pos known]
    rfl
  cases text with
  | nil => cases read
  | cons c behind =>
      unfold readEscape at read
      dsimp only at read
      split at read
      · rename_i unicode
        split at read
        · simp only [Option.bind_eq_some_iff, Option.map_eq_some_iff, Prod.mk.injEq] at read
          obtain ⟨a, first, b, second, e, third, d, fourth, -, rfl⟩ := read
          rw [unicode]
          exact ((((escape 'u' _ (by decide)).trans (consumesInside_hex first _)).trans
            (consumesInside_hex second _)).trans (consumesInside_hex third _)).trans
              (consumesInside_hex fourth _)
        · cases read
      · obtain ⟨d, known, same⟩ := Option.map_eq_some_iff.mp read
        cases same
        exact escape c rest (mem_escapes_of_unescaped known)

theorem consumesInside_readPoint {text rest : Text} {point : CodePoint}
    (read : readPoint text = some (point, rest)) (noQuote : text.head? ≠ some '"') :
    ConsumesInside text rest := by
  cases text with
  | nil => cases read
  | cons c behind =>
      rw [readPoint] at read
      split_ifs at read with backslash
      · rw [backslash]
        exact consumesInside_readEscape read
      · cases read
        exact .cons (fun same => noQuote (congrArg some same)) backslash _

/-- A string ends with its quote. -/
theorem exists_used_readPoints {fuel : Nat} {text rest : Text} {points : PyStr}
    (read : readPoints fuel text = some (points, rest)) :
    ∃ used, text = used ++ rest ∧ ∀ depth, scan (.inside depth) used = some (.outside depth) := by
  induction fuel generalizing text points with
  | zero => cases read
  | succ fuel ih =>
      rw [readPoints] at read
      split at read
      · rename_i quote
        cases read
        cases text with
        | nil => cases quote
        | cons c behind =>
            cases quote
            exact ⟨['"'], rfl, fun _ => rfl⟩
      · rename_i noQuote
        obtain ⟨⟨point, behind⟩, first, others⟩ := Option.bind_eq_some_iff.mp read
        obtain ⟨⟨more, last⟩, later, same⟩ := Option.map_eq_some_iff.mp others
        cases same
        obtain ⟨used, rfl, scanned⟩ := consumesInside_readPoint first noQuote
        obtain ⟨further, rfl, ended⟩ := ih later
        exact ⟨used ++ further, (List.append_assoc _ _ _).symm,
          fun depth => scan_of_append (scanned depth) (ended depth)⟩

theorem consumes_readString {text rest : Text} {s : PyStr}
    (read : readString text = some (s, rest)) : Consumes ('"' :: text) rest := by
  obtain ⟨⟨points, behind⟩, found, same⟩ := Option.map_eq_some_iff.mp read
  cases same
  obtain ⟨used, rfl, scanned⟩ := exists_used_readPoints found
  refine ⟨'"' :: used, rfl, ?_⟩
  intro depth
  change scan (.inside depth) used = _
  exact scanned depth

section Members

variable {α : Type} {member : Text → Option (α × Text)} {closing : Char}

/-- Members are read up to their bracket. -/
theorem consumes_readMembers
    (consumes : ∀ {text item rest}, member text = some (item, rest) → Consumes text rest)
    {fuel : Nat} {text rest : Text} {items : List α}
    (read : readMembers member closing fuel text = some (items, rest)) :
    Consumes text (closing :: rest) := by
  induction fuel generalizing text items with
  | zero => cases read
  | succ fuel ih =>
      rw [readMembers] at read
      obtain ⟨⟨first, behind⟩, found, others⟩ := Option.bind_eq_some_iff.mp read
      have begun := (consumes found).trans (.skipBlank behind)
      dsimp only at others
      cases next : skipBlank behind with
      | nil =>
          rw [next] at others
          cases others
      | cons c further =>
          rw [next] at others begun
          dsimp only at others
          split_ifs at others with comma ends
          · obtain ⟨⟨more, last⟩, later, same⟩ := Option.map_eq_some_iff.mp others
            cases same
            rw [comma] at begun
            exact (begun.trans (.cons (fun _ => rfl) further)).trans (ih later)
          · cases others
            rw [ends] at begun
            exact begun

theorem consumes_readBracketed
    (consumes : ∀ {text item rest}, member text = some (item, rest) → Consumes text rest)
    {text rest : Text} {items : List α}
    (read : readBracketed member closing text = some (items, rest)) :
    Consumes text (closing :: rest) := by
  have blanks := Consumes.skipBlank text
  unfold readBracketed at read
  cases next : skipBlank text with
  | nil =>
      rw [next] at read
      cases read
  | cons c behind =>
      rw [next] at read blanks
      dsimp only at read
      split_ifs at read with ends
      · cases read
        rw [ends] at blanks
        exact blanks
      · exact blanks.trans (consumes_readMembers consumes read)

end Members

theorem consumes_readEntry {value : Text → Option (Value × Text)}
    (consumes : ∀ {text item rest}, value text = some (item, rest) → Consumes text rest)
    {text rest : Text} {entry : PyStr × Value}
    (read : readEntry value text = some (entry, rest)) : Consumes text rest := by
  have blanks := Consumes.skipBlank text
  unfold readEntry at read
  cases next : skipBlank text with
  | nil =>
      rw [next] at read
      cases read
  | cons c behind =>
      rw [next] at read blanks
      dsimp only at read
      split_ifs at read with quote
      obtain ⟨⟨key, more⟩, named, others⟩ := Option.bind_eq_some_iff.mp read
      rw [quote] at blanks
      have begun := (blanks.trans (consumes_readString named)).trans (.skipBlank more)
      dsimp only at others
      cases further : skipBlank more with
      | nil =>
          rw [further] at others
          cases others
      | cons c last =>
          rw [further] at others begun
          dsimp only at others
          split_ifs at others with colon
          obtain ⟨⟨found, ended⟩, shown, same⟩ := Option.map_eq_some_iff.mp others
          cases same
          rw [colon] at begun
          exact (begun.trans (.cons (fun _ => rfl) last)).trans (consumes shown)

/-- The text between two brackets. -/
theorem Consumes.bracketed {opening closing : Char} {text rest : Text}
    (inner : Consumes text (closing :: rest))
    (opens : ∀ depth, step (.outside depth) opening = some (.outside (depth + 1)))
    (closes : ∀ depth, step (.outside (depth + 1)) closing = some (.outside depth)) :
    Consumes (opening :: text) rest := by
  obtain ⟨used, rfl, scanned⟩ := inner
  refine ⟨opening :: used ++ [closing], by simp, ?_⟩
  intro depth
  rw [List.cons_append, scan, opens, Option.bind_some]
  apply scan_of_append (scanned (depth + 1))
  rw [scan, closes]
  rfl

namespace JsonModule

variable {json : JsonModule}

/-- What is read leaves a reader where it was. -/
theorem consumes_readValue {fuel : Nat} {text rest : Text} {value : Value}
    (read : json.readValue fuel text = some (value, rest)) : Consumes text rest := by
  induction fuel generalizing text rest value with
  | zero => cases read
  | succ fuel ih =>
      have blanks := Consumes.skipBlank text
      rw [readValue] at read
      cases next : skipBlank text with
      | nil =>
          rw [next] at read
          cases read
      | cons c behind =>
          rw [next] at read blanks
          dsimp only at read
          apply blanks.trans
          split_ifs at read with quote list dict
          · obtain ⟨⟨s, last⟩, found, same⟩ := Option.map_eq_some_iff.mp read
            cases same
            rw [quote]
            exact consumes_readString found
          · obtain ⟨⟨items, last⟩, found, same⟩ := Option.map_eq_some_iff.mp read
            cases same
            rw [list]
            exact (consumes_readBracketed ih found).bracketed (fun _ => rfl) (fun _ => rfl)
          · obtain ⟨⟨items, last⟩, found, same⟩ := Option.map_eq_some_iff.mp read
            cases same
            rw [dict]
            exact (consumes_readBracketed (consumes_readEntry ih) found).bracketed
              (fun _ => rfl) (fun _ => rfl)
          · obtain ⟨atom, found, same⟩ := Option.map_eq_some_iff.mp read
            cases same
            exact .takeWhile (fun c => step_numeral) _

/-- An object is read up to its bracket. -/
theorem exists_inner_readValue {fuel : Nat} {body rest : Text} {value : Value}
    (read : json.readValue fuel ('{' :: body) = some (value, rest)) :
    Consumes body ('}' :: rest) := by
  cases fuel with
  | zero => cases read
  | succ fuel =>
      obtain ⟨⟨entries, last⟩, found, same⟩ := Option.map_eq_some_iff.mp read
      cases same
      exact consumes_readBracketed (consumes_readEntry consumes_readValue) found

/-- What is read is one value, with its brackets and strings closed. -/
theorem document_of_loads {text : Text} {value : Value} (read : json.loads text = some value) :
    Document text := by
  obtain ⟨⟨found, rest⟩, first, last⟩ := Option.bind_eq_some_iff.mp read
  dsimp only at last
  split_ifs at last with nothing
  have blank : ∀ c ∈ rest, c ∈ [' ', '\t', '\n', '\r'] := by
    intro c member
    have space := List.dropWhile_eq_nil_iff.mp nothing c member
    simp only [isJsonBlank, Bool.or_eq_true, decide_eq_true_eq] at space
    simpa [or_assoc] using space
  constructor
  · have whole := (consumes_readValue first).trans (.skipBlank rest)
    rw [nothing] at whole
    obtain ⟨used, rfl, scanned⟩ := whole
    rw [List.append_nil]
    exact scanned 0
  · rintro body behind rfl closed
    obtain ⟨inner, same, scanned⟩ := exists_inner_readValue first
    have split : body ++ behind = (inner ++ ['}']) ++ rest := by simpa using same
    rcases List.append_eq_append_iff.mp split with ⟨more, inside, rfl⟩ | ⟨more, -, rfl⟩
    · cases more with
      | nil => exact blank
      | cons c more =>
          have whole : '{' :: body ++ c :: more = '{' :: inner ++ ['}'] :=
            congrArg ('{' :: ·) inside.symm
          exact absurd closed (not_closed_of_begun (scanned 0) (List.cons_ne_nil _ _)
            (List.cons_ne_nil _ _) whole)
    · intro c member
      exact blank c (List.mem_append_right more member)

end JsonModule

end DataOlympus
