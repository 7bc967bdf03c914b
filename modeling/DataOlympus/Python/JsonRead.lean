import DataOlympus.Python.Json
import Mathlib.Data.List.Induction

/-!
# Reading JSON

`json.loads` as a function of the text.  What `json.dumps` prints is read back.
-/

namespace DataOlympus

open Json Lines

/-! ## The reader -/

/-- White space of JSON. -/
def isJsonBlank (c : Char) : Bool :=
  c = ' ' || c = '\t' || c = '\n' || c = '\r'

/-- The text behind white space. -/
def skipBlank (text : Text) : Text :=
  text.dropWhile isJsonBlank

/-- The value of a hexadecimal digit. -/
def hexValue (c : Char) : Option Nat :=
  if c.isDigit then some (c.toNat - 48)
  else if 'a' ≤ c ∧ c ≤ 'f' then some (c.toNat - 87)
  else if 'A' ≤ c ∧ c ≤ 'F' then some (c.toNat - 55)
  else none

/-- The code point of a four-digit number. -/
def CodePoint.ofNat (n : Nat) : CodePoint :=
  if h : 0xd800 ≤ n ∧ n < 0xe000 then .surrogate ⟨n - 0xd800, by omega⟩ else .scalar (Char.ofNat n)

/-- What a letter behind a backslash stands for. -/
def unescaped (c : Char) : Option Char :=
  if c = '"' then some '"'
  else if c = '\\' then some '\\'
  else if c = '/' then some '/'
  else if c = 'b' then some '\x08'
  else if c = 'f' then some '\x0c'
  else if c = 'n' then some '\n'
  else if c = 'r' then some '\r'
  else if c = 't' then some '\t'
  else none

/-- The rest of an escape. -/
def readEscape : Text → Option (CodePoint × Text)
  | [] => none
  | c :: rest =>
      if c = 'u' then
        match rest with
        | first :: second :: third :: fourth :: rest =>
            (hexValue first).bind fun a => (hexValue second).bind fun b =>
              (hexValue third).bind fun c => (hexValue fourth).map fun d =>
                (.ofNat (((a * 16 + b) * 16 + c) * 16 + d), rest)
        | _ => none
      else (unescaped c).map fun c => (.scalar c, rest)

/-- One element of a string. -/
def readPoint : Text → Option (CodePoint × Text)
  | [] => none
  | c :: rest =>
      if c = '\\' then readEscape rest
      else if c.toNat < 0x20 then none
      else some (.scalar c, rest)

/-- The elements up to the closing quote, for as many as there may be. -/
def readPoints : Nat → Text → Option (PyStr × Text)
  | 0, _ => none
  | fuel + 1, text =>
      if text.head? = some '"' then some ([], text.tail)
      else (readPoint text).bind fun (point, rest) =>
        (readPoints fuel rest).map fun (points, rest) => (point :: points, rest)

/-- Two escaped surrogates that make one character. -/
def joinSurrogates : PyStr → PyStr
  | .surrogate high :: .surrogate low :: rest =>
      if high.val < 0x400 ∧ 0x400 ≤ low.val then
        .scalar (Char.ofNat (0x10000 + high.val * 0x400 + (low.val - 0x400))) ::
          joinSurrogates rest
      else .surrogate high :: joinSurrogates (.surrogate low :: rest)
  | point :: rest => point :: joinSurrogates rest
  | [] => []

/-- A string behind its opening quote. -/
def readString (text : Text) : Option (PyStr × Text) :=
  (readPoints (text.length + 1) text).map fun (points, rest) => (joinSurrogates points, rest)

/-- A natural number as it is printed. -/
def readNat (digits : Text) : Option Nat :=
  let n := Nat.ofDigitChars 10 digits 0
  if Nat.toDigits 10 n = digits ∧ digits.length ≤ maxStrDigits then some n else none

/-- An integer. -/
def readInt : Text → Option Int
  | [] => none
  | c :: rest =>
      if c = '-' then (readNat rest).map fun n : Nat => -(n : Int)
      else (readNat (c :: rest)).map Int.ofNat

/-- The members of a list or a mapping up to the closing bracket, for as many as there may
be. -/
def readMembers {α : Type} (member : Text → Option (α × Text)) (closing : Char) :
    Nat → Text → Option (List α × Text)
  | 0, _ => none
  | fuel + 1, text =>
      (member text).bind fun (first, rest) =>
        match skipBlank rest with
        | [] => none
        | c :: rest =>
            if c = ',' then (readMembers member closing fuel rest).map fun (more, rest) =>
              (first :: more, rest)
            else if c = closing then some ([first], rest)
            else none

/-- Behind an opening bracket. -/
def readBracketed {α : Type} (member : Text → Option (α × Text)) (closing : Char) (text : Text) :
    Option (List α × Text) :=
  match skipBlank text with
  | [] => none
  | c :: rest =>
      if c = closing then some ([], rest)
      else readMembers member closing (text.length + 1) (c :: rest)

/-- An entry of a mapping, with `value` for what stands behind its colon. -/
def readEntry (value : Text → Option (Value × Text)) (text : Text) :
    Option ((PyStr × Value) × Text) :=
  match skipBlank text with
  | [] => none
  | c :: rest =>
      if c = '"' then
        (readString rest).bind fun (key, rest) =>
          match skipBlank rest with
          | [] => none
          | c :: rest =>
              if c = ':' then (value rest).map fun (found, rest) => ((key, found), rest) else none
      else none

/-- The mapping of the entries; of equal keys the last one counts. -/
def dictOf (entries : List (PyStr × Value)) : Mapping :=
  entries.foldl (fun found entry =>
    if found.any fun other => other.1.isStr entry.1 then
      found.map fun other => if other.1.isStr entry.1 then (other.1, entry.2) else other
    else found ++ [(.str entry.1, entry.2)]) []

namespace JsonModule

variable (json : JsonModule)

/-- A number or a literal. -/
def readAtom (token : Text) : Option Value :=
  if token = "null".toList then some .null
  else if token = "true".toList then some (.bool true)
  else if token = "false".toList then some (.bool false)
  else
    match readInt token with
    | some n => some (.int n)
    | none => (json.floatRead token).map .float

/-- A value, for as many nested brackets as there may be. -/
def readValue : Nat → Text → Option (Value × Text)
  | 0, _ => none
  | fuel + 1, text =>
      match skipBlank text with
      | [] => none
      | c :: rest =>
          if c = '"' then (readString rest).map fun (s, rest) => (.str s, rest)
          else if c = '[' then
            (readBracketed (readValue fuel) ']' rest).map fun (items, rest) => (.list items, rest)
          else if c = '{' then
            (readBracketed (readEntry (readValue fuel)) '}' rest).map fun (entries, rest) =>
              (.dict (dictOf entries), rest)
          else (json.readAtom ((c :: rest).takeWhile isNumeral)).map fun value =>
            (value, (c :: rest).dropWhile isNumeral)

/-- `json.loads(text)`, unless it raises. -/
def loads (text : Text) : Option Value :=
  (json.readValue (text.length + 1) text).bind fun (value, rest) =>
    if skipBlank rest = [] then some value else none

end JsonModule

example (json : JsonModule) : json.loads "\x7b\"a\": [1, \"\\u00e9\"]\x7d".toList =
    some (.dict [(.str (PyStr.lit "a"), .list [.int 1, .str (PyStr.lit "é")])]) := by rfl

/-! ## Printed strings are read back -/

/-- Scalars only. -/
theorem joinSurrogates_of_encodable {s : PyStr} (encodable : s.encodable = true) :
    joinSurrogates s = s := by
  induction s with
  | nil => rfl
  | cons point rest ih =>
      cases point with
      | surrogate offset => cases encodable
      | scalar c =>
          rw [joinSurrogates]
          · exact congrArg (CodePoint.scalar c :: ·) (ih encodable)
          · rintro high low more ⟨⟩

theorem hexValue_hexDigit {n : Nat} (small : n < 16) : hexValue (hexDigit n) = some n := by
  interval_cases n <;> rfl

theorem codePoint_ofNat_of_small {c : Char} (control : c.toNat < 0x20) :
    CodePoint.ofNat c.toNat = .scalar c := by
  have noSurrogate : ¬(0xd800 ≤ c.toNat ∧ c.toNat < 0xe000) := by omega
  rw [CodePoint.ofNat, dif_neg noSurrogate, Char.ofNat_toNat]

/-- A printed element is read, and does not begin with a quote. -/
theorem readPoint_escape (c : Char) (rest : Text) :
    readPoint ((CodePoint.scalar c).escape ++ rest) = some (.scalar c, rest) ∧
      ((CodePoint.scalar c).escape ++ rest).head? ≠ some '"' := by
  unfold CodePoint.escape
  dsimp only
  split_ifs with quote backslash newline carriage tab bell feed control
  · exact ⟨by rw [quote]; rfl, by simp⟩
  · exact ⟨by rw [backslash]; rfl, by simp⟩
  · exact ⟨by rw [newline]; rfl, by simp⟩
  · exact ⟨by rw [carriage]; rfl, by simp⟩
  · exact ⟨by rw [tab]; rfl, by simp⟩
  · exact ⟨by rw [bell]; rfl, by simp⟩
  · exact ⟨by rw [feed]; rfl, by simp⟩
  · refine ⟨?_, by simp⟩
    have high := hexValue_hexDigit (n := c.toNat / 16) (by omega)
    have low := hexValue_hexDigit (n := c.toNat % 16) (by omega)
    have whole : ((0 * 16 + 0) * 16 + c.toNat / 16) * 16 + c.toNat % 16 = c.toNat := by omega
    change ((hexValue '0').bind fun a => (hexValue '0').bind fun b =>
      (hexValue (hexDigit (c.toNat / 16))).bind fun h =>
        (hexValue (hexDigit (c.toNat % 16))).map fun l =>
          (CodePoint.ofNat (((a * 16 + b) * 16 + h) * 16 + l), rest)) = _
    rw [high, low]
    change some (CodePoint.ofNat (((0 * 16 + 0) * 16 + c.toNat / 16) * 16 + c.toNat % 16), rest) = _
    rw [whole, codePoint_ofNat_of_small control]
  · refine ⟨?_, by simpa using quote⟩
    change (if c = '\\' then readEscape rest else if c.toNat < 0x20 then none
      else some (.scalar c, rest)) = _
    rw [if_neg backslash, if_neg control]

theorem readPoints_escaped {s : PyStr} (encodable : s.encodable = true) {fuel : Nat}
    (enough : s.length < fuel) (rest : Text) :
    readPoints fuel (s.flatMap CodePoint.escape ++ '"' :: rest) = some (s, rest) := by
  induction s generalizing fuel with
  | nil =>
      cases fuel with
      | zero => cases enough
      | succ fuel => rfl
  | cons point others ih =>
      cases fuel with
      | zero => cases enough
      | succ fuel =>
          cases point with
          | surrogate offset => cases encodable
          | scalar c =>
              obtain ⟨read, noQuote⟩ := readPoint_escape c
                (others.flatMap CodePoint.escape ++ '"' :: rest)
              rw [List.flatMap_cons, List.append_assoc, readPoints, if_neg noQuote, read,
                Option.bind_some]
              dsimp only
              rw [ih encodable (Nat.lt_of_succ_lt_succ enough)]
              rfl

theorem length_escape_pos (c : Char) : 0 < (CodePoint.scalar c).escape.length := by
  unfold CodePoint.escape
  dsimp only
  split_ifs <;> simp

theorem length_le_escaped {s : PyStr} (encodable : s.encodable = true) :
    s.length ≤ (s.flatMap CodePoint.escape).length := by
  induction s with
  | nil => exact le_refl _
  | cons point rest ih =>
      cases point with
      | surrogate offset => cases encodable
      | scalar c =>
          rw [List.flatMap_cons, List.length_append, List.length_cons]
          have first := length_escape_pos c
          have others := ih encodable
          omega

/-- A printed string is read back. -/
theorem readString_escaped {s : PyStr} (encodable : s.encodable = true) (rest : Text) :
    readString (s.flatMap CodePoint.escape ++ '"' :: rest) = some (s, rest) := by
  have enough : s.length < (s.flatMap CodePoint.escape ++ '"' :: rest).length + 1 := by
    have shorter := length_le_escaped encodable
    rw [List.length_append]
    omega
  rw [readString, readPoints_escaped encodable enough]
  change some (joinSurrogates s, rest) = _
  rw [joinSurrogates_of_encodable encodable]

/-! ## Printed atoms are read back -/

theorem readNat_toDigits {n : Nat} (short : (Nat.toDigits 10 n).length ≤ maxStrDigits) :
    readNat (Nat.toDigits 10 n) = some n := by
  have same : Nat.ofDigitChars 10 (Nat.toDigits 10 n) 0 = n := Nat.ofDigitChars_ten_toDigits
  rw [readNat, same, if_pos ⟨rfl, short⟩]

theorem isDigit_of_readNat {digits : Text} {n : Nat} (read : readNat digits = some n) :
    ∀ c ∈ digits, c.isDigit = true := by
  unfold readNat at read
  dsimp only at read
  split_ifs at read with printed
  intro c member
  rw [← printed.1] at member
  exact Nat.isDigit_of_mem_toDigits (by decide) (by decide) member

theorem readInt_intRepr {n : Int} (good : (Value.int n).isJson = true) :
    readInt (intRepr n) = some n := by
  have short : (Nat.toDigits 10 n.natAbs).length ≤ maxStrDigits := of_decide_eq_true good
  cases n with
  | ofNat m =>
      have read := readNat_toDigits short
      rw [intRepr]
      change readNat (Nat.toDigits 10 m) = some m at read
      cases printed : Nat.toDigits 10 m with
      | nil => exact absurd printed Nat.toDigits_ne_nil
      | cons c rest =>
          rw [printed] at read
          have digit : c.isDigit = true := by
            apply isDigit_of_readNat read
            exact List.mem_cons_self
          have noMinus : c ≠ '-' := by
            rintro rfl
            cases digit
          rw [readInt, if_neg noMinus, read]
          rfl
  | negSucc m =>
      change (readNat (Nat.toDigits 10 (m + 1))).map (fun n : Nat => -(n : Int)) = _
      change (Nat.toDigits 10 (m + 1)).length ≤ maxStrDigits at short
      rw [readNat_toDigits short]
      rfl

/-- A token with a mark is no integer. -/
theorem readInt_of_marked {token : Text} (marked : ∃ c ∈ token, isFloatMark c = true) :
    readInt token = none := by
  have noDigit : ∀ c, isFloatMark c = true → c.isDigit = false ∧ c ≠ '-' := by
    intro c mark
    have member : c ∈ ['.', 'e', 'N', 'I'] := List.contains_iff_mem.mp mark
    simp only [List.mem_cons, List.not_mem_nil, or_false] at member
    rcases member with rfl | rfl | rfl | rfl <;> exact ⟨rfl, by decide⟩
  obtain ⟨c, member, mark⟩ := marked
  obtain ⟨other, noMinus⟩ := noDigit c mark
  have unread : ∀ digits, c ∈ digits → readNat digits = none := by
    intro digits here
    cases read : readNat digits with
    | none => rfl
    | some n =>
        rw [isDigit_of_readNat read c here] at other
        cases other
  cases token with
  | nil => rfl
  | cons first rest =>
      rw [readInt]
      split
      · rename_i minus
        rw [unread rest ((List.mem_cons.mp member).resolve_left (minus ▸ noMinus))]
        rfl
      · rw [unread _ member]
        rfl

namespace JsonModule

variable (json : JsonModule)

theorem readAtom_intRepr {n : Int} (good : (Value.int n).isJson = true) :
    json.readAtom (intRepr n) = some (.int n) := by
  have first : ∀ literal : Text, readInt literal = none → intRepr n ≠ literal := by
    rintro literal no rfl
    rw [readInt_intRepr good] at no
    cases no
  rw [readAtom, if_neg (first _ rfl), if_neg (first _ rfl), if_neg (first _ rfl),
    readInt_intRepr good]

theorem readAtom_floatRepr {x : BitVec 64} (good : (Value.float x).isJson = true) :
    json.readAtom (json.floatRepr x) = some (.float x) := by
  have first : ∀ literal : Text, (∃ c ∈ literal, isFloatChar c = false) →
      json.floatRepr x ≠ literal := by
    rintro literal ⟨c, member, no⟩ rfl
    rw [json.floatRepr_chars x c member] at no
    cases no
  rw [readAtom, if_neg (first _ ⟨'u', by decide, rfl⟩), if_neg (first _ ⟨'u', by decide, rfl⟩),
    if_neg (first _ ⟨'l', by decide, rfl⟩), readInt_of_marked (json.floatRepr_marked x)]
  dsimp only
  rw [json.floatRead_repr x good]
  rfl

end JsonModule

/-! ## Printed values are read back -/

/-- Nothing, or the blank behind a separator. -/
def Gap (gap : Text) : Prop :=
  gap = [] ∨ gap = [' ']

/-- What may stand behind a number. -/
def Follows (rest : Text) : Prop :=
  ∀ c ∈ rest.head?, isNumeral c = false

theorem skipBlank_gap {gap : Text} (between : Gap gap) {c : Char}
    (visible : isJsonBlank c = false) (rest : Text) :
    skipBlank (gap ++ c :: rest) = c :: rest := by
  unfold skipBlank
  rcases between with rfl | rfl
  · rw [List.nil_append, List.dropWhile_cons_of_neg (by simp [visible])]
  · rw [List.singleton_append, List.dropWhile_cons_of_pos rfl,
      List.dropWhile_cons_of_neg (by simp [visible])]

/-- A token ends where something follows. -/
theorem takeWhile_numeral {token rest : Text} (numerals : ∀ c ∈ token, isNumeral c = true)
    (follows : Follows rest) :
    (token ++ rest).takeWhile isNumeral = token ∧
      (token ++ rest).dropWhile isNumeral = rest := by
  have stops : rest.takeWhile isNumeral = [] ∧ rest.dropWhile isNumeral = rest := by
    cases rest with
    | nil => exact ⟨rfl, rfl⟩
    | cons c rest =>
        have no : ¬isNumeral c = true := by
          rw [follows c rfl]
          exact Bool.false_ne_true
        exact ⟨List.takeWhile_cons_of_neg no, List.dropWhile_cons_of_neg no⟩
  constructor
  · rw [List.takeWhile_append_of_pos numerals, stops.1, List.append_nil]
  · rw [List.dropWhile_append_of_pos numerals, stops.2]

section Members

variable {α : Type} {member : Text → Option (α × Text)} {print : α → Text} {closing : Char}

/-- A member is read back wherever something follows. -/
def MemberReads (member : Text → Option (α × Text)) (print : α → Text) (item : α) : Prop :=
  ∀ gap rest, Gap gap → Follows rest → member (gap ++ print item ++ rest) = some (item, rest)

/-- The printed members behind the first one. -/
def printedMore (print : α → Text) (more : List α) : Text :=
  more.flatMap fun item => [',', ' '] ++ print item

/-- Printed members are read back. -/
theorem readMembers_printed {first : α} {more : List α}
    (reads : ∀ item ∈ first :: more, MemberReads member print item)
    (follows : isNumeral closing = false) (visible : isJsonBlank closing = false)
    (different : closing ≠ ',') {fuel : Nat} (enough : more.length < fuel) {gap : Text}
    (between : Gap gap) (rest : Text) :
    readMembers member closing fuel
        (gap ++ print first ++ (printedMore print more ++ closing :: rest)) =
      some (first :: more, rest) := by
  induction more generalizing first fuel gap with
  | nil =>
      cases fuel with
      | zero => cases enough
      | succ fuel =>
          have behind : Follows (closing :: rest) := by
            rintro _ ⟨⟩
            exact follows
          have here := reads first List.mem_cons_self gap (closing :: rest) between behind
          change readMembers member closing (fuel + 1) (gap ++ print first ++ closing :: rest) = _
          rw [readMembers, here, Option.bind_some]
          have shown := skipBlank_gap (.inl rfl) visible rest
          rw [List.nil_append] at shown
          dsimp only
          rw [shown]
          dsimp only
          rw [if_neg different, if_pos rfl]
  | cons second more ih =>
      cases fuel with
      | zero => cases enough
      | succ fuel =>
          have text : printedMore print (second :: more) ++ closing :: rest =
              ',' :: ([' '] ++ print second ++ (printedMore print more ++ closing :: rest)) := by
            simp [printedMore]
          have behind : Follows
              (',' :: ([' '] ++ print second ++ (printedMore print more ++ closing :: rest))) := by
            rintro _ ⟨⟩
            rfl
          have here := reads first List.mem_cons_self gap _ between behind
          have later := ih (fun item found => reads item (List.mem_cons_of_mem _ found))
            (Nat.lt_of_succ_lt_succ enough) (.inr rfl)
          rw [text, readMembers, here, Option.bind_some]
          have shown := skipBlank_gap (.inl rfl) (c := ',') rfl
            ([' '] ++ print second ++ (printedMore print more ++ closing :: rest))
          rw [List.nil_append] at shown
          dsimp only
          rw [shown]
          dsimp only
          rw [if_pos rfl, later]
          rfl

/-- A member is not longer than all members. -/
theorem length_print_le (print : α → Text) {first item : α} {more : List α} (here : item ∈ first :: more) :
    (print item).length ≤ (print first ++ printedMore print more).length := by
  rw [List.length_append]
  rcases List.mem_cons.mp here with rfl | later
  · exact Nat.le_add_right _ _
  · have within := (List.sublist_flatten_of_mem (List.mem_map.mpr ⟨item, later, rfl⟩ :
      [',', ' '] ++ print item ∈ more.map fun item => [',', ' '] ++ print item)).length_le
    rw [← List.flatMap_def, List.length_append] at within
    change _ ≤ (printedMore print more).length at within
    omega

theorem length_le_printedMore (print : α → Text) (more : List α) :
    more.length ≤ (printedMore print more).length := by
  induction more with
  | nil => exact le_refl _
  | cons item more ih =>
      have text : printedMore print (item :: more) =
          ',' :: ' ' :: (print item ++ printedMore print more) := by
        simp [printedMore]
      rw [text, List.length_cons, List.length_cons, List.length_cons, List.length_append]
      omega

/-- What stands in brackets is read back. -/
theorem readBracketed_printed {first : α} {more : List α}
    (reads : ∀ item ∈ first :: more, MemberReads member print item)
    (follows : isNumeral closing = false) (visible : isJsonBlank closing = false)
    (different : closing ≠ ',')
    (starts : ∃ c begun, print first = c :: begun ∧ isJsonBlank c = false ∧ c ≠ closing)
    (rest : Text) :
    readBracketed member closing (print first ++ (printedMore print more ++ closing :: rest)) =
      some (first :: more, rest) := by
  obtain ⟨c, begun, text, shown, opens⟩ := starts
  have skipped := skipBlank_gap (.inl rfl) shown
    (begun ++ (printedMore print more ++ closing :: rest))
  have enough : more.length <
      (print first ++ (printedMore print more ++ closing :: rest)).length + 1 := by
    have shorter := length_le_printedMore print more
    simp only [List.length_append]
    omega
  have read := readMembers_printed reads follows visible different enough (.inl rfl) rest
  rw [List.nil_append] at skipped read
  rw [text, List.cons_append] at read ⊢
  rw [readBracketed, skipped]
  dsimp only
  rw [if_neg opens, read]

end Members

namespace JsonModule

variable (json : JsonModule)

/-- A printed value is read back wherever something follows. -/
def ReadsBack (value : Value) : Prop :=
  ∀ fuel, (json.dumps value).length < fuel → MemberReads (json.readValue fuel) json.dumps value

variable {json}

theorem visible_of_numeral {c : Char} (numeral : isNumeral c = true) :
    isJsonBlank c = false := by
  simp [isJsonBlank, ne_of_isNumeral numeral (rfl : isNumeral ' ' = false),
    ne_of_isNumeral numeral (rfl : isNumeral '\t' = false),
    ne_of_isNumeral numeral (rfl : isNumeral '\n' = false),
    ne_of_isNumeral numeral (rfl : isNumeral '\r' = false)]

/-- Numbers and literals are read back. -/
theorem readsBack_atom {value : Value} (numerals : ∀ c ∈ json.dumps value, isNumeral c = true)
    (nonempty : json.dumps value ≠ []) (read : json.readAtom (json.dumps value) = some value) :
    json.ReadsBack value := by
  rintro (_ | fuel) enough gap rest between follows
  · cases enough
  · obtain ⟨taken, dropped⟩ := takeWhile_numeral numerals follows
    cases text : json.dumps value with
    | nil => exact absurd text nonempty
    | cons c begun =>
        rw [text] at numerals read taken dropped
        have numeral := numerals c List.mem_cons_self
        have visible := visible_of_numeral numeral
        rw [List.append_assoc, List.cons_append, readValue, skipBlank_gap between visible]
        dsimp only
        rw [if_neg (ne_of_isNumeral numeral rfl), if_neg (ne_of_isNumeral numeral rfl),
          if_neg (ne_of_isNumeral numeral rfl)]
        rw [List.cons_append] at taken dropped
        rw [taken, dropped, read]
        rfl

theorem readsBack_str {s : PyStr} (encodable : s.encodable = true) :
    json.ReadsBack (.str s) := by
  rintro (_ | fuel) enough gap rest between follows
  · cases enough
  · have text : gap ++ json.dumps (.str s) ++ rest =
        gap ++ '"' :: (s.flatMap CodePoint.escape ++ '"' :: rest) := by
      change gap ++ ('"' :: s.flatMap CodePoint.escape ++ ['"']) ++ rest = _
      simp
    rw [text, readValue, skipBlank_gap between rfl]
    dsimp only
    rw [if_pos rfl, readString_escaped encodable]
    rfl

theorem dumpsItems_eq (items : List Value) :
    Value.dumpsItems json.floatRepr [',', ' '] items = printedMore json.dumps items := by
  induction items with
  | nil => rfl
  | cons item rest ih =>
      rw [Value.dumpsItems, ih]
      rfl

theorem intRepr_ne_nil (n : Int) : intRepr n ≠ [] := by
  cases n with
  | ofNat m => exact Nat.toDigits_ne_nil
  | negSucc m => exact List.cons_ne_nil _ _

theorem floatRepr_ne_nil (x : BitVec 64) : json.floatRepr x ≠ [] := by
  obtain ⟨c, member, -⟩ := json.floatRepr_marked x
  exact List.ne_nil_of_mem member

/-- The first character of a printed value. -/
theorem exists_dumps_cons {value : Value} (good : value.isJson = true) :
    ∃ c begun, json.dumps value = c :: begun ∧ isJsonBlank c = false ∧ c ≠ ']' := by
  have atom : ∀ token : Text, (∀ c ∈ token, isNumeral c = true) → token ≠ [] →
      ∃ c begun, token = c :: begun ∧ isJsonBlank c = false ∧ c ≠ ']' := by
    intro token numerals nonempty
    cases token with
    | nil => exact absurd rfl nonempty
    | cons c begun =>
        have numeral := numerals c List.mem_cons_self
        exact ⟨c, begun, rfl, visible_of_numeral numeral, ne_of_isNumeral numeral rfl⟩
  cases value with
  | null => exact ⟨_, _, rfl, rfl, by decide⟩
  | bool b =>
      cases b with
      | true => exact ⟨_, _, rfl, rfl, by decide⟩
      | false => exact ⟨_, _, rfl, rfl, by decide⟩
  | int n => exact atom _ (numerals_intRepr n) (intRepr_ne_nil n)
  | float x => exact atom _ (json.floatRepr_numeral x) (floatRepr_ne_nil x)
  | str s => exact ⟨_, _, rfl, rfl, by decide⟩
  | list items => exact ⟨_, _, rfl, rfl, by decide⟩
  | dict entries => exact ⟨_, _, rfl, rfl, by decide⟩
  | _ => cases good

theorem readsBack_list {items : List Value} (good : Value.isJsonAll items = true)
    (reads : ∀ item ∈ items, json.ReadsBack item) : json.ReadsBack (.list items) := by
  rintro (_ | fuel) enough gap rest between follows
  · cases enough
  · have text : gap ++ json.dumps (.list items) ++ rest =
        gap ++ '[' :: (Value.dumpsItems json.floatRepr [] items ++ ']' :: rest) := by
      change gap ++ ('[' :: Value.dumpsItems json.floatRepr [] items ++ [']']) ++ rest = _
      simp
    rw [text, readValue, skipBlank_gap between rfl]
    dsimp only
    rw [if_neg (by decide), if_pos rfl]
    cases items with
    | nil => rfl
    | cons first more =>
        have body : Value.dumpsItems json.floatRepr [] (first :: more) =
            json.dumps first ++ printedMore json.dumps more := by
          rw [Value.dumpsItems, dumpsItems_eq]
          rfl
        rw [Value.isJsonAll, Bool.and_eq_true] at good
        change ('[' :: Value.dumpsItems json.floatRepr [] (first :: more) ++ [']']).length < _
          at enough
        rw [body] at enough ⊢
        have members : ∀ item ∈ first :: more,
            MemberReads (json.readValue fuel) json.dumps item := by
          intro item member
          apply reads item member
          have shorter := length_print_le json.dumps member
          simp only [List.length_append, List.length_cons, List.length_nil] at enough shorter ⊢
          omega
        rw [List.append_assoc,
          readBracketed_printed members rfl rfl (by decide) (exists_dumps_cons good.1) rest]
        rfl

/-! ### Mappings -/

/-- The entries with their keys. -/
def entriesOf (pairs : List (PyStr × Value)) : Mapping :=
  pairs.map fun pair => (.str pair.1, pair.2)

/-- A mapping that is printed has different keys. -/
theorem exists_pairs {entries : Mapping} (good : Value.isJsonEntries entries = true) :
    ∃ pairs, entries = entriesOf pairs ∧ (pairs.map Prod.fst).Nodup ∧
      ∀ pair ∈ pairs, pair.1.encodable = true := by
  induction entries with
  | nil => exact ⟨[], rfl, List.nodup_nil, List.forall_mem_nil _⟩
  | cons entry rest ih =>
      obtain ⟨key, value⟩ := entry
      rw [Value.isJsonEntries, Bool.and_eq_true, Bool.and_eq_true] at good
      obtain ⟨⟨known, -⟩, others⟩ := good
      obtain ⟨pairs, rfl, once, encodable⟩ := ih others
      cases key with
      | str s =>
          rw [Value.isKey, Bool.and_eq_true, Bool.not_eq_true'] at known
          refine ⟨(s, value) :: pairs, rfl, ?_, List.forall_mem_cons.mpr ⟨known.1, encodable⟩⟩
          rw [List.map_cons, List.nodup_cons]
          refine ⟨?_, once⟩
          intro member
          obtain ⟨pair, here, same⟩ := List.mem_map.mp member
          have found : (entriesOf pairs).any (fun entry => entry.1.isStr s) = true := by
            rw [List.any_eq_true]
            exact ⟨_, List.mem_map.mpr ⟨pair, here, rfl⟩, Value.isStr_iff.mpr (by rw [same])⟩
          rw [found] at known
          exact absurd known.2 (by simp)
      | _ => cases known

/-- Entries with different keys are kept as they are. -/
theorem dictOf_eq {pairs : List (PyStr × Value)} (once : (pairs.map Prod.fst).Nodup) :
    dictOf pairs = entriesOf pairs := by
  induction pairs using List.reverseRecOn with
  | nil => rfl
  | append_singleton pairs pair ih =>
      rw [List.map_append, List.map_singleton, List.nodup_append] at once
      have before := ih once.1
      have absent : ((entriesOf pairs).any fun other => other.1.isStr pair.1) = false := by
        rw [List.any_eq_false]
        intro entry member same
        obtain ⟨other, here, rfl⟩ := List.mem_map.mp member
        have equal : other.1 = pair.1 := Value.str.inj (Value.isStr_iff.mp same)
        exact once.2.2 _ (List.mem_map_of_mem here) _ (List.mem_singleton_self _) equal
      have step : dictOf (pairs ++ [pair]) =
          if (dictOf pairs).any fun other => other.1.isStr pair.1 then
            (dictOf pairs).map fun other =>
              if other.1.isStr pair.1 then (other.1, pair.2) else other
          else dictOf pairs ++ [(.str pair.1, pair.2)] := by
        rw [dictOf, List.foldl_append]
        rfl
      rw [step, before, absent, if_neg Bool.false_ne_true]
      simp [entriesOf]

/-- A printed entry. -/
def printEntry (json : JsonModule) (pair : PyStr × Value) : Text :=
  pair.1.quoted ++ [':', ' '] ++ json.dumps pair.2

theorem dumpsEntries_eq (pairs : List (PyStr × Value)) :
    Value.dumpsEntries json.floatRepr [',', ' '] (entriesOf pairs) =
      printedMore json.printEntry pairs := by
  induction pairs with
  | nil => rfl
  | cons pair rest ih =>
      change [',', ' '] ++ pair.1.quoted ++ [':', ' '] ++ json.dumps pair.2 ++
        Value.dumpsEntries json.floatRepr [',', ' '] (entriesOf rest) = _
      rw [ih]
      simp [printedMore, printEntry]

/-- A printed entry is read back. -/
theorem readEntry_printed {value : Text → Option (Value × Text)} {pair : PyStr × Value}
    (encodable : pair.1.encodable = true) (reads : MemberReads value json.dumps pair.2) :
    MemberReads (readEntry value) json.printEntry pair := by
  intro gap rest between follows
  have text : gap ++ json.printEntry pair ++ rest =
      gap ++ '"' :: (pair.1.flatMap CodePoint.escape ++ '"' ::
        (':' :: ([' '] ++ json.dumps pair.2 ++ rest))) := by
    simp [printEntry, PyStr.quoted]
  have colon := skipBlank_gap (.inl rfl) (c := ':') rfl ([' '] ++ json.dumps pair.2 ++ rest)
  have found := reads [' '] rest (.inr rfl) follows
  rw [List.nil_append] at colon
  rw [text, readEntry, skipBlank_gap between rfl]
  dsimp only
  rw [if_pos rfl, readString_escaped encodable, Option.bind_some]
  dsimp only
  rw [colon]
  dsimp only
  rw [if_pos rfl, found]
  rfl

theorem readsBack_dict {pairs : List (PyStr × Value)} (once : (pairs.map Prod.fst).Nodup)
    (encodable : ∀ pair ∈ pairs, pair.1.encodable = true)
    (reads : ∀ pair ∈ pairs, json.ReadsBack pair.2) : json.ReadsBack (.dict (entriesOf pairs)) := by
  rintro (_ | fuel) enough gap rest between follows
  · cases enough
  · have text : gap ++ json.dumps (.dict (entriesOf pairs)) ++ rest =
        gap ++ '{' :: (Value.dumpsEntries json.floatRepr [] (entriesOf pairs) ++ '}' :: rest) := by
      change gap ++ ('{' :: Value.dumpsEntries json.floatRepr [] (entriesOf pairs) ++ ['}']) ++
        rest = _
      simp
    rw [text, readValue, skipBlank_gap between rfl]
    dsimp only
    rw [if_neg (by decide), if_neg (by decide), if_pos rfl]
    cases pairs with
    | nil => rfl
    | cons first more =>
        have body : Value.dumpsEntries json.floatRepr [] (entriesOf (first :: more)) =
            json.printEntry first ++ printedMore json.printEntry more := by
          rw [← dumpsEntries_eq]
          rfl
        change ('{' :: Value.dumpsEntries json.floatRepr [] (entriesOf (first :: more)) ++
          ['}']).length < _ at enough
        rw [body] at enough ⊢
        have members : ∀ pair ∈ first :: more,
            MemberReads (readEntry (json.readValue fuel)) json.printEntry pair := by
          intro pair member
          apply readEntry_printed (encodable pair member)
          apply reads pair member
          have shorter := length_print_le json.printEntry member
          have value : (json.dumps pair.2).length ≤ (json.printEntry pair).length := by
            rw [printEntry, List.length_append]
            exact Nat.le_add_left _ _
          simp only [List.length_append, List.length_cons, List.length_nil] at enough shorter ⊢
          omega
        rw [List.append_assoc,
          readBracketed_printed members rfl rfl (by decide) ⟨_, _, rfl, rfl, by decide⟩ rest,
          Option.map_some]
        dsimp only
        rw [dictOf_eq once]

mutual

theorem readsBack (json : JsonModule) (value : Value) (good : value.isJson = true) :
    json.ReadsBack value := by
  match value with
  | .null => exact readsBack_atom (by simp [dumps, Value.dumps, isNumeral]) (List.cons_ne_nil _ _) rfl
  | .bool true =>
      exact readsBack_atom (by simp [dumps, Value.dumps, isNumeral]) (List.cons_ne_nil _ _) rfl
  | .bool false =>
      exact readsBack_atom (by simp [dumps, Value.dumps, isNumeral]) (List.cons_ne_nil _ _) rfl
  | .int n =>
      exact readsBack_atom (numerals_intRepr n) (intRepr_ne_nil n) (json.readAtom_intRepr good)
  | .float x =>
      exact readsBack_atom (json.floatRepr_numeral x) (floatRepr_ne_nil x)
        (json.readAtom_floatRepr good)
  | .str s => exact readsBack_str good
  | .list items => exact readsBack_list good (readsBack_items json items good)
  | .dict entries =>
      obtain ⟨pairs, same, once, encodable⟩ := exists_pairs good
      have reads := readsBack_entries json entries good
      rw [same] at reads ⊢
      apply readsBack_dict once encodable
      intro pair member
      exact reads _ (List.mem_map.mpr ⟨pair, member, rfl⟩)
termination_by structural value

theorem readsBack_items (json : JsonModule) (items : List Value)
    (good : Value.isJsonAll items = true) : ∀ item ∈ items, json.ReadsBack item := by
  match items with
  | [] => exact List.forall_mem_nil _
  | item :: rest =>
      rw [Value.isJsonAll, Bool.and_eq_true] at good
      exact List.forall_mem_cons.mpr
        ⟨readsBack json item good.1, readsBack_items json rest good.2⟩
termination_by structural items

theorem readsBack_entries (json : JsonModule) (entries : List (Value × Value))
    (good : Value.isJsonEntries entries = true) : ∀ entry ∈ entries, json.ReadsBack entry.2 := by
  match entries with
  | [] => exact List.forall_mem_nil _
  | (key, value) :: rest =>
      rw [Value.isJsonEntries, Bool.and_eq_true, Bool.and_eq_true] at good
      exact List.forall_mem_cons.mpr
        ⟨readsBack json value good.1.2, readsBack_entries json rest good.2⟩
termination_by structural entries

end

/-- What is printed is read back. -/
theorem loads_dumps (json : JsonModule) {value : Value} (good : value.isJson = true) :
    json.loads (json.dumps value) = some value := by
  have read := json.readsBack value good _ (Nat.lt_succ_self _) [] [] (.inl rfl) nofun
  rw [List.nil_append, List.append_nil] at read
  rw [loads, read]
  rfl

end JsonModule

end DataOlympus
