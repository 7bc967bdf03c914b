import DataOlympus.Python.JsonRead

/-!
# JSON in ASCII

`json.dumps(value, indent=2)` escapes what is no ASCII character, the characters beyond the
basic plane by two surrogates, and puts every member on a line of its own.  Strings, lists of
strings and objects of these are read back.
-/

namespace DataOlympus

open Json Lines

/-! ## Strings -/

/-- A code point by its four digits. -/
def unicodeEscape (n : Nat) : Text :=
  ['\\', 'u', hexDigit (n / 0x1000 % 16), hexDigit (n / 0x100 % 16), hexDigit (n / 16 % 16),
    hexDigit (n % 16)]

/-- A character as `json.dumps` prints it in ASCII. -/
def escapeAscii (c : Char) : Text :=
  if c.toNat < 0x7f then (CodePoint.scalar c).escape
  else if c.toNat < 0x10000 then unicodeEscape c.toNat
  else unicodeEscape (0xd800 + (c.toNat - 0x10000) / 0x400) ++
    unicodeEscape (0xdc00 + (c.toNat - 0x10000) % 0x400)

/-- A string as `json.dumps` prints it in ASCII. -/
def quotedAscii (text : Text) : Text :=
  '"' :: text.flatMap escapeAscii ++ ['"']

example : quotedAscii "é😀\n".toList = "\"\\u00e9\\ud83d\\ude00\\n\"".toList := by decide

/-- The elements that the escapes of a character stand for. -/
def halves (c : Char) : PyStr :=
  if c.toNat < 0x10000 then [.scalar c]
  else [.ofNat (0xd800 + (c.toNat - 0x10000) / 0x400),
    .ofNat (0xdc00 + (c.toNat - 0x10000) % 0x400)]

theorem toNat_valid (c : Char) : c.toNat < 0xd800 ∨ 0xdfff < c.toNat ∧ c.toNat < 0x110000 := by
  have valid := c.valid
  simp only [UInt32.isValidChar, Nat.isValidChar] at valid
  exact valid

theorem ofNat_surrogate {n : Nat} (small : n < 0x800) :
    CodePoint.ofNat (0xd800 + n) = .surrogate ⟨n, small⟩ := by
  have inside : 0xd800 ≤ 0xd800 + n ∧ 0xd800 + n < 0xe000 := by omega
  rw [CodePoint.ofNat, dif_pos inside]
  exact congrArg CodePoint.surrogate (Fin.ext (Nat.add_sub_cancel_left _ _))

theorem ofNat_scalar (c : Char) : CodePoint.ofNat c.toNat = .scalar c := by
  have outside : ¬(0xd800 ≤ c.toNat ∧ c.toNat < 0xe000) := by
    have valid := toNat_valid c
    omega
  rw [CodePoint.ofNat, dif_neg outside, Char.ofNat_toNat]

/-- The two surrogates of a character make it again. -/
theorem joinSurrogates_halves (text : Text) :
    joinSurrogates (text.flatMap halves) = PyStr.ofText text := by
  induction text with
  | nil => rfl
  | cons c rest ih =>
      rw [List.flatMap_cons, halves]
      split
      · rw [List.singleton_append, joinSurrogates]
        · exact congrArg (CodePoint.scalar c :: ·) ih
        · rintro high low more ⟨⟩
      · rename_i astral
        have valid := toNat_valid c
        have high : (c.toNat - 0x10000) / 0x400 < 0x400 := by omega
        have low : (c.toNat - 0x10000) % 0x400 < 0x400 := Nat.mod_lt _ (by decide)
        have second : 0xdc00 + (c.toNat - 0x10000) % 0x400 =
            0xd800 + (0x400 + (c.toNat - 0x10000) % 0x400) := by omega
        rw [second, ofNat_surrogate (by omega), ofNat_surrogate (by omega), List.cons_append,
          List.cons_append, List.nil_append, joinSurrogates,
          if_pos ⟨high, Nat.le_add_right _ _⟩, ih]
        have whole : 0x10000 + (c.toNat - 0x10000) / 0x400 * 0x400 +
            (0x400 + (c.toNat - 0x10000) % 0x400 - 0x400) = c.toNat := by omega
        change CodePoint.scalar (Char.ofNat (0x10000 + (c.toNat - 0x10000) / 0x400 * 0x400 +
          (0x400 + (c.toNat - 0x10000) % 0x400 - 0x400))) :: _ = _
        rw [whole, Char.ofNat_toNat]
        rfl

theorem readPoint_unicodeEscape {n : Nat} (small : n < 0x10000) (rest : Text) :
    readPoint (unicodeEscape n ++ rest) = some (.ofNat n, rest) ∧
      (unicodeEscape n ++ rest).head? ≠ some '"' := by
  refine ⟨?_, by simp [unicodeEscape]⟩
  have first := hexValue_hexDigit (Nat.mod_lt (n / 0x1000) (y := 16) (by decide))
  have second := hexValue_hexDigit (Nat.mod_lt (n / 0x100) (y := 16) (by decide))
  have third := hexValue_hexDigit (Nat.mod_lt (n / 16) (y := 16) (by decide))
  have fourth := hexValue_hexDigit (Nat.mod_lt n (y := 16) (by decide))
  have whole : ((n / 0x1000 % 16 * 16 + n / 0x100 % 16) * 16 + n / 16 % 16) * 16 + n % 16 = n := by
    omega
  change ((hexValue (hexDigit (n / 0x1000 % 16))).bind fun a =>
    (hexValue (hexDigit (n / 0x100 % 16))).bind fun b =>
      (hexValue (hexDigit (n / 16 % 16))).bind fun h =>
        (hexValue (hexDigit (n % 16))).map fun l =>
          (CodePoint.ofNat (((a * 16 + b) * 16 + h) * 16 + l), rest)) = _
  rw [first, second, third, fourth]
  change some (CodePoint.ofNat (((n / 0x1000 % 16 * 16 + n / 0x100 % 16) * 16 + n / 16 % 16) * 16 +
    n % 16), rest) = _
  rw [whole]

/-- The escapes of a character are read as its elements. -/
theorem readPoints_escapeAscii (c : Char) {fuel : Nat} {others : PyStr} {text rest : Text}
    (later : readPoints fuel text = some (others, rest)) :
    readPoints (fuel + (halves c).length) (escapeAscii c ++ text) =
      some (halves c ++ others, rest) := by
  have one : ∀ {fuel : Nat} {point : CodePoint} {written text rest : Text} {others : PyStr},
      readPoint (written ++ text) = some (point, text) →
        (written ++ text).head? ≠ some '"' → readPoints fuel text = some (others, rest) →
          readPoints (fuel + 1) (written ++ text) = some (point :: others, rest) := by
    intro fuel point written text rest others read noQuote later
    rw [readPoints, if_neg noQuote, read, Option.bind_some]
    dsimp only
    rw [later]
    rfl
  have valid := toNat_valid c
  by_cases ascii : c.toNat < 0x7f
  · obtain ⟨read, noQuote⟩ := readPoint_escape c text
    rw [escapeAscii, if_pos ascii, halves, if_pos (by omega)]
    exact one read noQuote later
  · by_cases basic : c.toNat < 0x10000
    · obtain ⟨read, noQuote⟩ := readPoint_unicodeEscape basic text
      rw [ofNat_scalar] at read
      rw [escapeAscii, if_neg ascii, if_pos basic, halves, if_pos basic]
      exact one read noQuote later
    · obtain ⟨readLow, noQuoteLow⟩ := readPoint_unicodeEscape
        (n := 0xdc00 + (c.toNat - 0x10000) % 0x400) (by omega) text
      obtain ⟨readHigh, noQuoteHigh⟩ := readPoint_unicodeEscape
        (n := 0xd800 + (c.toNat - 0x10000) / 0x400) (by omega)
        (unicodeEscape (0xdc00 + (c.toNat - 0x10000) % 0x400) ++ text)
      rw [escapeAscii, if_neg ascii, if_neg basic, halves, if_neg basic, List.append_assoc]
      exact one readHigh noQuoteHigh (one readLow noQuoteLow later)

theorem readPoints_ascii (text : Text) {fuel : Nat} (enough : (text.flatMap halves).length < fuel)
    (rest : Text) :
    readPoints fuel (text.flatMap escapeAscii ++ '"' :: rest) =
      some (text.flatMap halves, rest) := by
  induction text generalizing fuel with
  | nil =>
      cases fuel with
      | zero => cases enough
      | succ fuel => rfl
  | cons c others ih =>
      rw [List.flatMap_cons, List.length_append] at enough
      obtain ⟨more, rfl⟩ : ∃ more, fuel = more + (halves c).length :=
        ⟨fuel - (halves c).length, by omega⟩
      rw [List.flatMap_cons, List.flatMap_cons, List.append_assoc]
      exact readPoints_escapeAscii c (ih (by omega))

theorem length_halves_le (c : Char) : (halves c).length ≤ (escapeAscii c).length := by
  unfold halves escapeAscii unicodeEscape
  have positive := length_escape_pos c
  split_ifs <;> simp <;> omega

/-- A string printed in ASCII is read back. -/
theorem readString_ascii (text rest : Text) :
    readString (text.flatMap escapeAscii ++ '"' :: rest) = some (PyStr.ofText text, rest) := by
  have shorter : (text.flatMap halves).length ≤ (text.flatMap escapeAscii).length := by
    induction text with
    | nil => exact le_refl _
    | cons c others ih =>
        have first := length_halves_le c
        simp only [List.flatMap_cons, List.length_append]
        omega
  have enough : (text.flatMap halves).length <
      (text.flatMap escapeAscii ++ '"' :: rest).length + 1 := by
    rw [List.length_append]
    omega
  rw [readString, readPoints_ascii text enough, Option.map_some]
  dsimp only
  rw [joinSurrogates_halves]

/-- A character that is printed in ASCII is no line break. -/
theorem no_return_escapeAscii (c : Char) : '\r' ∉ escapeAscii c := by
  have digit : ∀ n, n < 16 → hexDigit n ≠ '\r' := by decide
  have unicode : ∀ n, '\r' ∉ unicodeEscape n := by
    intro n
    simp only [unicodeEscape, List.mem_cons, List.not_mem_nil, or_false, not_or]
    exact ⟨by decide, by decide, (digit _ (Nat.mod_lt _ (by decide))).symm,
      (digit _ (Nat.mod_lt _ (by decide))).symm, (digit _ (Nat.mod_lt _ (by decide))).symm,
      (digit _ (Nat.mod_lt _ (by decide))).symm⟩
  unfold escapeAscii
  split
  · unfold CodePoint.escape
    dsimp only
    split_ifs with quote backslash newline carriage tab bell feed control
    · decide
    · decide
    · decide
    · decide
    · decide
    · decide
    · decide
    · simp only [List.mem_cons, List.not_mem_nil, or_false, not_or]
      exact ⟨by decide, by decide, by decide, by decide, (digit _ (by omega)).symm,
        (digit _ (Nat.mod_lt _ (by decide))).symm⟩
    · exact fun member => carriage (List.mem_singleton.mp member).symm
  · split
    · exact unicode _
    · exact fun member => (List.mem_append.mp member).elim (unicode _) (unicode _)

theorem no_return_quotedAscii (text : Text) : '\r' ∉ quotedAscii text := by
  simp only [quotedAscii, List.cons_append, List.mem_cons, List.mem_append, List.mem_flatMap,
    List.not_mem_nil, or_false, not_or]
  have inside : ¬∃ c ∈ text, '\r' ∈ escapeAscii c := by
    rintro ⟨c, -, member⟩
    exact no_return_escapeAscii c member
  exact ⟨by decide, inside, by decide⟩

/-! ## Members on lines of their own -/

/-- White space. -/
def Blanks (gap : Text) : Prop :=
  ∀ c ∈ gap, isJsonBlank c = true

theorem skipBlank_blanks {gap : Text} (blanks : Blanks gap) {c : Char}
    (visible : isJsonBlank c = false) (rest : Text) : skipBlank (gap ++ c :: rest) = c :: rest := by
  rw [skipBlank, List.dropWhile_append_of_pos blanks,
    List.dropWhile_cons_of_neg (by rw [visible]; decide)]

/-- The members behind the first one, each behind a comma and white space. -/
def spaced {β : Type} (gap : Text) (print : β → Text) (more : List β) : Text :=
  more.flatMap fun item => ',' :: gap ++ print item

section Members

variable {α β : Type} {member : Text → Option (α × Text)} {print : β → Text}
  {value : β → α} {closing : Char} {gap tail : Text} {first : β} {more : List β}

/-- A member is read as its value behind white space, whatever follows. -/
def ReadsAnywhere (member : Text → Option (α × Text)) (print : β → Text) (value : β → α)
    (item : β) : Prop :=
  ∀ gap rest, Blanks gap → member (gap ++ print item ++ rest) = some (value item, rest)

theorem readMembers_spaced
    (reads : ∀ item ∈ first :: more, ReadsAnywhere member print value item)
    (visible : isJsonBlank closing = false) (different : closing ≠ ',') (inner : Blanks gap)
    (last : Blanks tail) {fuel : Nat} (enough : more.length < fuel) {before : Text}
    (leading : Blanks before) (rest : Text) :
    readMembers member closing fuel
        (before ++ print first ++ (spaced gap print more ++ (tail ++ closing :: rest))) =
      some ((first :: more).map value, rest) := by
  induction more generalizing first fuel before with
  | nil =>
      cases fuel with
      | zero => cases enough
      | succ fuel =>
          have here := reads first List.mem_cons_self before (tail ++ closing :: rest) leading
          change readMembers member closing (fuel + 1)
            (before ++ print first ++ (tail ++ closing :: rest)) = _
          rw [readMembers, here, Option.bind_some]
          dsimp only
          rw [skipBlank_blanks last visible]
          dsimp only
          rw [if_neg different, if_pos rfl]
          rfl
  | cons second more ih =>
      cases fuel with
      | zero => cases enough
      | succ fuel =>
          have text : spaced gap print (second :: more) ++ (tail ++ closing :: rest) =
              ',' :: (gap ++ print second ++
                (spaced gap print more ++ (tail ++ closing :: rest))) := by
            simp [spaced]
          have here := reads first List.mem_cons_self before
            (',' :: (gap ++ print second ++ (spaced gap print more ++ (tail ++ closing :: rest))))
            leading
          have later := ih (fun item found => reads item (List.mem_cons_of_mem _ found))
            (Nat.lt_of_succ_lt_succ enough) inner
          have shown := skipBlank_blanks (List.forall_mem_nil _) (c := ',') rfl
            (gap ++ print second ++ (spaced gap print more ++ (tail ++ closing :: rest)))
          rw [List.nil_append] at shown
          rw [text, readMembers, here, Option.bind_some]
          dsimp only
          rw [shown]
          dsimp only
          rw [if_pos rfl, later]
          rfl

theorem length_le_spaced (gap : Text) (print : β → Text) (more : List β) :
    more.length ≤ (spaced gap print more).length := by
  induction more with
  | nil => exact le_refl _
  | cons item more ih =>
      have text : spaced gap print (item :: more) =
          ',' :: (gap ++ print item ++ spaced gap print more) := by
        simp [spaced]
      rw [text, List.length_cons, List.length_cons, List.length_append]
      omega

/-- What stands in brackets, on lines of its own, is read back. -/
theorem readBracketed_spaced (more : List β)
    (reads : ∀ item ∈ first :: more, ReadsAnywhere member print value item)
    (visible : isJsonBlank closing = false) (different : closing ≠ ',') (inner : Blanks gap)
    (last : Blanks tail)
    (starts : ∃ c begun, print first = c :: begun ∧ isJsonBlank c = false ∧ c ≠ closing)
    (rest : Text) :
    readBracketed member closing
        (gap ++ print first ++ (spaced gap print more ++ (tail ++ closing :: rest))) =
      some ((first :: more).map value, rest) := by
  obtain ⟨c, begun, text, shown, opens⟩ := starts
  have skipped := skipBlank_blanks inner shown
    (begun ++ (spaced gap print more ++ (tail ++ closing :: rest)))
  have enough : more.length <
      (gap ++ print first ++ (spaced gap print more ++ (tail ++ closing :: rest))).length + 1 := by
    have shorter := length_le_spaced gap print more
    simp only [List.length_append]
    omega
  have read := readMembers_spaced reads visible different inner last enough
    (List.forall_mem_nil _) rest
  rw [List.nil_append] at read
  rw [List.append_assoc] at read ⊢
  rw [text, List.cons_append] at read ⊢
  rw [readBracketed, skipped]
  dsimp only
  rw [if_neg opens]
  exact read

end Members

/-! ## Lists of strings, and objects of strings and lists -/

/-- What `json.dumps(…, indent=2)` prints for a string or a list of strings that is a value of an
object. -/
inductive Shape where
  | text (content : Text)
  | texts (items : List Text)

namespace Shape

/-- The line break before a member at this depth. -/
def lineAt (depth : Nat) : Text :=
  '\n' :: List.replicate (2 * depth) ' '

/-- The printed value. -/
def print : Shape → Text
  | text content => quotedAscii content
  | texts [] => ['[', ']']
  | texts (first :: more) =>
      '[' :: lineAt 2 ++ quotedAscii first ++ spaced (lineAt 2) quotedAscii more ++ lineAt 1 ++
        [']']

/-- The value that is read back. -/
def value : Shape → Value
  | text content => .str (PyStr.ofText content)
  | texts items => .list (items.map fun item => .str (PyStr.ofText item))

/-- A printed field. -/
def printField (field : Text × Shape) : Text :=
  quotedAscii field.1 ++ ':' :: ' ' :: field.2.print

/-- An object with at least one field, as `json.dumps(fields, indent=2)` prints it. -/
def printObject (first : Text × Shape) (more : List (Text × Shape)) : Text :=
  '\x7b' :: lineAt 1 ++ printField first ++ spaced (lineAt 1) printField more ++ lineAt 0 ++
    ['\x7d']

example : printObject ("a".toList, .text "b".toList) [("c".toList, .texts ["d".toList])] =
    "\x7b\n  \"a\": \"b\",\n  \"c\": [\n    \"d\"\n  ]\n\x7d".toList := by decide

theorem blanks_lineAt (depth : Nat) : Blanks (lineAt depth) := by
  intro c member
  obtain rfl | spaces := List.mem_cons.mp member
  · rfl
  · rw [List.eq_of_mem_replicate spaces]
    rfl

variable {json : JsonModule} {fuel : Nat}

theorem readValue_quotedAscii (text : Text) :
    ReadsAnywhere (json.readValue (fuel + 1)) quotedAscii
      (fun text => .str (PyStr.ofText text)) text := by
  intro gap rest blanks
  have whole : gap ++ quotedAscii text ++ rest =
      gap ++ '"' :: (text.flatMap escapeAscii ++ '"' :: rest) := by
    simp [quotedAscii]
  rw [whole, JsonModule.readValue, skipBlank_blanks blanks rfl]
  dsimp only
  rw [if_pos rfl, readString_ascii]
  rfl

theorem starts_quotedAscii (text : Text) :
    ∃ c begun, quotedAscii text = c :: begun ∧ isJsonBlank c = false ∧ c ≠ ']' :=
  ⟨'"', _, rfl, rfl, by decide⟩

/-- A printed value is read back. -/
theorem readValue_print (shape : Shape) :
    ReadsAnywhere (json.readValue (fuel + 2)) print value shape := by
  intro gap rest blanks
  match shape with
  | text content => exact readValue_quotedAscii content gap rest blanks
  | texts [] =>
      have whole : gap ++ print (texts []) ++ rest = gap ++ '[' :: ']' :: rest := by
        simp [print]
      rw [whole, JsonModule.readValue, skipBlank_blanks blanks rfl]
      rfl
  | texts (first :: more) =>
      have whole : gap ++ print (texts (first :: more)) ++ rest =
          gap ++ '[' :: (lineAt 2 ++ quotedAscii first ++ (spaced (lineAt 2) quotedAscii more ++
            (lineAt 1 ++ ']' :: rest))) := by
        simp [print]
      have inside := readBracketed_spaced more
        (fun item _ => @readValue_quotedAscii json fuel item)
        rfl (by decide) (blanks_lineAt 2) (blanks_lineAt 1) (starts_quotedAscii first) rest
      rw [whole, JsonModule.readValue, skipBlank_blanks blanks rfl]
      dsimp only
      rw [if_neg (by decide), if_pos rfl, inside]
      rfl

/-- A printed field is read back. -/
theorem readEntry_printField (field : Text × Shape) :
    ReadsAnywhere (readEntry (json.readValue (fuel + 2))) printField
      (fun field => (PyStr.ofText field.1, field.2.value)) field := by
  intro gap rest blanks
  have whole : gap ++ printField field ++ rest = gap ++ '"' :: (field.1.flatMap escapeAscii ++
      '"' :: (':' :: ([' '] ++ field.2.print ++ rest))) := by
    simp [printField, quotedAscii]
  have colon := skipBlank_blanks (List.forall_mem_nil _) (c := ':') rfl
    ([' '] ++ field.2.print ++ rest)
  have found := @readValue_print json fuel field.2 [' '] rest
    (List.forall_mem_singleton.mpr rfl)
  rw [List.nil_append] at colon
  rw [whole, readEntry, skipBlank_blanks blanks rfl]
  dsimp only
  rw [if_pos rfl, readString_ascii, Option.bind_some]
  dsimp only
  rw [colon]
  dsimp only
  rw [if_pos rfl, found]
  rfl

/-- A printed object is read back, also before white space. -/
theorem loads_printObject (json : JsonModule) (first : Text × Shape)
    (more : List (Text × Shape)) {tail : Text} (blanks : Blanks tail) :
    json.loads (printObject first more ++ tail) =
      some (.dict (dictOf ((first :: more).map fun field =>
        (PyStr.ofText field.1, field.2.value)))) := by
  have whole : printObject first more ++ tail = '\x7b' :: (lineAt 1 ++ printField first ++
      (spaced (lineAt 1) printField more ++ (lineAt 0 ++ '\x7d' :: tail))) := by
    simp [printObject]
  have start : ∃ fuel, (printObject first more ++ tail).length + 1 = fuel + 3 := by
    rw [whole]
    simp only [List.length_cons, List.length_append]
    exact ⟨_, rfl⟩
  obtain ⟨fuel, enough⟩ := start
  have starts : ∃ c begun, printField first = c :: begun ∧ isJsonBlank c = false ∧
      c ≠ '\x7d' :=
    ⟨'"', _, rfl, rfl, by decide⟩
  have inside := readBracketed_spaced more
    (fun item _ => @readEntry_printField json fuel item)
    rfl (by decide) (blanks_lineAt 1) (blanks_lineAt 0) starts tail
  have opening := skipBlank_blanks (List.forall_mem_nil _) (c := '\x7b') rfl
    (lineAt 1 ++ printField first ++
      (spaced (lineAt 1) printField more ++ (lineAt 0 ++ '\x7d' :: tail)))
  have nothing : skipBlank tail = [] := List.dropWhile_eq_nil_iff.mpr blanks
  rw [List.nil_append] at opening
  rw [JsonModule.loads, enough, whole, JsonModule.readValue, opening]
  dsimp only
  rw [if_neg (by decide), if_neg (by decide), if_pos rfl, inside]
  change (if skipBlank tail = [] then _ else _) = _
  rw [if_pos nothing]

theorem no_return_lineAt (depth : Nat) : '\r' ∉ lineAt depth := by
  intro member
  obtain same | spaces := List.mem_cons.mp member
  · cases same
  · cases List.eq_of_mem_replicate spaces

theorem no_return_spaced {β : Type} {gap : Text} {print : β → Text} {more : List β}
    (between : '\r' ∉ gap) (printed : ∀ item ∈ more, '\r' ∉ print item) :
    '\r' ∉ spaced gap print more := by
  intro member
  obtain ⟨item, here, inside⟩ := List.mem_flatMap.mp member
  simp only [List.cons_append, List.mem_cons, List.mem_append] at inside
  obtain same | inGap | inItem := inside
  · cases same
  · exact between inGap
  · exact printed item here inItem

theorem no_return_print (shape : Shape) : '\r' ∉ shape.print := by
  match shape with
  | text content => exact no_return_quotedAscii content
  | texts [] => decide
  | texts (first :: more) =>
      have others := no_return_spaced (no_return_lineAt 2)
        (fun item (_ : item ∈ more) => no_return_quotedAscii item)
      have head := no_return_quotedAscii first
      have before := no_return_lineAt 2
      have after := no_return_lineAt 1
      simp [print, others, head, before, after]

/-- A printed object has no carriage return. -/
theorem no_return_printObject (first : Text × Shape) (more : List (Text × Shape)) :
    '\r' ∉ printObject first more := by
  have field : ∀ field : Text × Shape, '\r' ∉ printField field := by
    intro field
    have key := no_return_quotedAscii field.1
    have value := no_return_print field.2
    simp [printField, key, value]
  have others := no_return_spaced (no_return_lineAt 1) (fun item (_ : item ∈ more) => field item)
  have head := field first
  have before := no_return_lineAt 1
  have after := no_return_lineAt 0
  simp [printObject, others, head, before, after]

end Shape

end DataOlympus
