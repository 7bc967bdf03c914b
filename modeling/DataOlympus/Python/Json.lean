import DataOlympus.Json.Scan
import DataOlympus.Python.Mapping
import Mathlib.Tactic.IntervalCases

/-!
# Printing JSON

`json.dumps(value, ensure_ascii=False)` on the values that `json.loads` gives back.  What is
printed leaves a reader where it was, and holds no control character.
-/

namespace DataOlympus

open Json Lines

/-- The character with which `json.dumps` prints a nibble. -/
def hexDigit (n : Nat) : Char :=
  Nat.digitChar n

/-- One element of a string as `json.dumps` prints it.  A lone surrogate cannot be encoded and
is never written. -/
def CodePoint.escape : CodePoint → Text
  | .surrogate _ => []
  | .scalar c =>
      if c = '"' then ['\\', '"']
      else if c = '\\' then ['\\', '\\']
      else if c = '\n' then ['\\', 'n']
      else if c = '\r' then ['\\', 'r']
      else if c = '\t' then ['\\', 't']
      else if c = '\x08' then ['\\', 'b']
      else if c = '\x0c' then ['\\', 'f']
      else if c.toNat < 0x20 then
        ['\\', 'u', '0', '0', hexDigit (c.toNat / 16), hexDigit (c.toNat % 16)]
      else [c]

/-- A printed string. -/
def PyStr.quoted (s : PyStr) : Text :=
  '"' :: s.flatMap CodePoint.escape ++ ['"']

/-- A printed integer. -/
def intRepr : Int → Text
  | .ofNat n => Nat.toDigits 10 n
  | .negSucc n => '-' :: Nat.toDigits 10 (n + 1)

/-- The limit on the digits of an integer. -/
def maxStrDigits : Nat :=
  4300

/-- What `float('nan')` is. -/
def canonicalNan : BitVec 64 :=
  0x7ff8000000000000

namespace Value

variable (floatRepr : BitVec 64 → Text)

mutual

/-- `json.dumps(value, ensure_ascii=False)`; nothing is written for a value on which it
raises. -/
def dumps (value : Value) : Text :=
  match value with
  | .null => "null".toList
  | .bool true => "true".toList
  | .bool false => "false".toList
  | .int n => intRepr n
  | .float x => floatRepr x
  | .str s => s.quoted
  | .list items => '[' :: dumpsItems [] items ++ [']']
  | .tuple items => '[' :: dumpsItems [] items ++ [']']
  | .dict entries => '{' :: dumpsEntries [] entries ++ ['}']
  | .bytes _ => []
  | .date _ => []
  | .datetime .. => []
  | .set _ => []
termination_by structural value

/-- The items, each behind a separator but the first. -/
def dumpsItems (separator : Text) (items : List Value) : Text :=
  match items with
  | [] => []
  | item :: rest => separator ++ dumps item ++ dumpsItems [',', ' '] rest
termination_by structural items

/-- The entries, each behind a separator but the first. -/
def dumpsEntries (separator : Text) (entries : List (Value × Value)) : Text :=
  match entries with
  | [] => []
  | (key, value) :: rest =>
      separator ++ dumps key ++ [':', ' '] ++ dumps value ++ dumpsEntries [',', ' '] rest
termination_by structural entries

end

/-- A string that is no other key. -/
def isKey (others : List (Value × Value)) : Value → Bool
  | .str s => s.encodable && !others.any fun entry => entry.1.isStr s
  | _ => false

mutual

/-- The value is printed, encoded and read back. -/
def isJson (value : Value) : Bool :=
  match value with
  | .null => true
  | .bool _ => true
  | .int n => (Nat.toDigits 10 n.natAbs).length ≤ maxStrDigits
  | .float x => !isNanFloat x || x = canonicalNan
  | .str s => s.encodable
  | .list items => isJsonAll items
  | .dict entries => isJsonEntries entries
  | .tuple _ => false
  | .bytes _ => false
  | .date _ => false
  | .datetime .. => false
  | .set _ => false
termination_by structural value

def isJsonAll (items : List Value) : Bool :=
  match items with
  | [] => true
  | item :: rest => isJson item && isJsonAll rest
termination_by structural items

def isJsonEntries (entries : List (Value × Value)) : Bool :=
  match entries with
  | [] => true
  | (key, value) :: rest =>
      isKey rest key && isJson value && isJsonEntries rest
termination_by structural entries

end

end Value

/-- The characters of numbers and literals. -/
def isNumeral (c : Char) : Bool :=
  c.isAlphanum || c = '+' || c = '-' || c = '.'

/-- The characters of a printed float. -/
def isFloatChar (c : Char) : Bool :=
  c.isDigit || "+-.eNaInfity".toList.contains c

/-- What tells a printed float from an integer. -/
def isFloatMark (c : Char) : Bool :=
  ".eNI".toList.contains c

/-- The floats of the module `json`. -/
structure JsonModule where
  /-- `float.__repr__`, and the literals for what is no number. -/
  floatRepr : BitVec 64 → Text
  /-- The float that a number or a literal denotes. -/
  floatRead : Text → Option (BitVec 64)
  floatRepr_chars : ∀ x, ∀ c ∈ floatRepr x, isFloatChar c = true
  floatRepr_marked : ∀ x, ∃ c ∈ floatRepr x, isFloatMark c = true
  floatRead_repr : ∀ x, (!Value.isNanFloat x || x = canonicalNan) = true →
    floatRead (floatRepr x) = some x

/-- `json.dumps(value, ensure_ascii=False)`. -/
def JsonModule.dumps (json : JsonModule) (value : Value) : Text :=
  value.dumps json.floatRepr

/-! ## What is printed is closed -/

/-- A text that leaves a reader where it was, without control characters. -/
structure Printed (text : Text) : Prop where
  scan : ∀ depth, scan (.outside depth) text = some (.outside depth)
  visible : ∀ c ∈ text, 0x20 ≤ c.toNat

theorem ne_of_isNumeral {c other : Char} (numeral : isNumeral c = true)
    (no : isNumeral other = false) : c ≠ other := by
  rintro rfl
  rw [numeral] at no
  cases no

/-- A numeral moves nothing. -/
theorem step_numeral {c : Char} (numeral : isNumeral c = true) (depth : Nat) :
    step (.outside depth) c = some (.outside depth) := by
  have different : ∀ other, isNumeral other = false → c ≠ other :=
    fun other => ne_of_isNumeral numeral
  change stepOutside depth c = _
  rw [stepOutside, if_neg (different _ rfl),
    if_neg (not_or_intro (different _ rfl) (different _ rfl)),
    if_neg (not_or_intro (different _ rfl) (different _ rfl)), if_neg (different _ rfl)]

/-- Control characters are no numerals. -/
theorem visible_of_isNumeral {c : Char} (numeral : isNumeral c = true) : 0x20 ≤ c.toNat := by
  by_contra control
  rw [not_le] at control
  rw [← Char.ofNat_toNat c] at numeral
  generalize c.toNat = n at numeral control
  interval_cases n <;> cases numeral

namespace Printed

theorem nil : Printed [] :=
  ⟨fun _ => rfl, List.forall_mem_nil _⟩

theorem append {first second : Text} (left : Printed first) (right : Printed second) :
    Printed (first ++ second) where
  scan depth := scan_of_append (left.scan depth) (right.scan depth)
  visible := List.forall_mem_append.mpr ⟨left.visible, right.visible⟩

/-- Numbers and literals move nothing. -/
theorem of_numerals {text : Text} (numerals : ∀ c ∈ text, isNumeral c = true) :
    Printed text := by
  induction text with
  | nil => exact nil
  | cons c rest ih =>
      rw [List.forall_mem_cons] at numerals
      obtain ⟨numeral, others⟩ := numerals
      obtain ⟨scan, visible⟩ := ih others
      refine ⟨?_, List.forall_mem_cons.mpr ⟨?_, visible⟩⟩
      · intro depth
        rw [Json.scan, step_numeral numeral, Option.bind_some]
        exact scan depth
      · exact visible_of_isNumeral numeral

/-- The text between two brackets. -/
theorem bracketed {opening closing : Char} {body : Text} (inner : Printed body)
    (opens : ∀ depth, step (.outside depth) opening = some (.outside (depth + 1)))
    (closes : ∀ depth, step (.outside (depth + 1)) closing = some (.outside depth))
    (visible : 0x20 ≤ opening.toNat ∧ 0x20 ≤ closing.toNat) :
    Printed (opening :: body ++ [closing]) := by
  constructor
  · intro depth
    rw [List.cons_append, Json.scan, opens, Option.bind_some]
    apply scan_of_append (inner.scan (depth + 1))
    rw [Json.scan, closes]
    rfl
  · rw [List.cons_append, List.forall_mem_cons, List.forall_mem_append]
    exact ⟨visible.1, inner.visible, List.forall_mem_singleton.mpr visible.2⟩

end Printed

theorem isNumeral_of_isFloatChar {c : Char} (float : isFloatChar c = true) :
    isNumeral c = true := by
  rcases (Bool.or_eq_true _ _).mp float with digit | known
  · simp [isNumeral, Char.isAlphanum, digit]
  · have member : c ∈ ['+', '-', '.', 'e', 'N', 'a', 'I', 'n', 'f', 'i', 't', 'y'] :=
      List.contains_iff_mem.mp known
    simp only [List.mem_cons, List.not_mem_nil, or_false] at member
    rcases member with rfl | rfl | rfl | rfl | rfl | rfl | rfl | rfl | rfl | rfl | rfl | rfl <;> rfl

theorem JsonModule.floatRepr_numeral (json : JsonModule) (x : BitVec 64) :
    ∀ c ∈ json.floatRepr x, isNumeral c = true :=
  fun c member => isNumeral_of_isFloatChar (json.floatRepr_chars x c member)

theorem numerals_intRepr (n : Int) : ∀ c ∈ intRepr n, isNumeral c = true := by
  have digits : ∀ m, ∀ c ∈ Nat.toDigits 10 m, isNumeral c = true := by
    intro m c member
    have digit := Nat.isDigit_of_mem_toDigits (by decide) (by decide) member
    simp [isNumeral, Char.isAlphanum, digit]
  cases n with
  | ofNat m => exact digits m
  | negSucc m =>
      rw [intRepr, List.forall_mem_cons]
      exact ⟨rfl, digits (m + 1)⟩

theorem hexDigit_cases {n : Nat} (small : n < 16) :
    (∀ depth, step (.inside depth) (hexDigit n) = some (.inside depth)) ∧
      0x20 ≤ (hexDigit n).toNat := by
  interval_cases n <;> exact ⟨fun _ => rfl, by decide⟩

/-- An element stays inside its string. -/
theorem scan_escape (point : CodePoint) :
    (∀ depth, scan (.inside depth) point.escape = some (.inside depth)) ∧
      ∀ c ∈ point.escape, 0x20 ≤ c.toNat := by
  cases point with
  | surrogate offset => exact ⟨fun _ => rfl, List.forall_mem_nil _⟩
  | scalar c =>
      unfold CodePoint.escape
      dsimp only
      split_ifs with quote backslash newline carriage tab bell feed control
      · exact ⟨fun _ => rfl, by simp⟩
      · exact ⟨fun _ => rfl, by simp⟩
      · exact ⟨fun _ => rfl, by simp⟩
      · exact ⟨fun _ => rfl, by simp⟩
      · exact ⟨fun _ => rfl, by simp⟩
      · exact ⟨fun _ => rfl, by simp⟩
      · exact ⟨fun _ => rfl, by simp⟩
      · obtain ⟨high, highVisible⟩ := hexDigit_cases (n := c.toNat / 16) (by omega)
        obtain ⟨low, lowVisible⟩ := hexDigit_cases (n := c.toNat % 16) (by omega)
        constructor
        · intro depth
          change (step (.inside depth) (hexDigit (c.toNat / 16))).bind (fun next =>
            (step next (hexDigit (c.toNat % 16))).bind fun last => scan last []) = _
          rw [high, Option.bind_some, low]
          rfl
        · simp [highVisible, lowVisible]
      · constructor
        · intro depth
          change (stepInside depth c).bind _ = _
          rw [stepInside, if_neg quote, if_neg backslash]
          rfl
        · simpa using control

theorem printed_quoted (s : PyStr) : Printed s.quoted := by
  have body : (∀ depth, scan (.inside depth) (s.flatMap CodePoint.escape) =
      some (.inside depth)) ∧ ∀ c ∈ s.flatMap CodePoint.escape, 0x20 ≤ c.toNat := by
    induction s with
    | nil => exact ⟨fun _ => rfl, List.forall_mem_nil _⟩
    | cons point rest ih =>
        rw [List.flatMap_cons]
        refine ⟨?_, List.forall_mem_append.mpr ⟨(scan_escape point).2, ih.2⟩⟩
        intro depth
        exact scan_of_append ((scan_escape point).1 depth) (ih.1 depth)
  constructor
  · intro depth
    change scan (.inside depth) (s.flatMap CodePoint.escape ++ ['"']) = _
    exact scan_of_append (body.1 depth) rfl
  · rw [PyStr.quoted, List.cons_append, List.forall_mem_cons, List.forall_mem_append]
    exact ⟨by decide, body.2, by simp⟩

namespace JsonModule

variable (json : JsonModule)

mutual

theorem printed_dumps (value : Value) (good : value.isJson = true) :
    Printed (value.dumps json.floatRepr) := by
  match value with
  | .null => exact .of_numerals (by simp [isNumeral, Value.dumps])
  | .bool true => exact .of_numerals (by simp [isNumeral, Value.dumps])
  | .bool false => exact .of_numerals (by simp [isNumeral, Value.dumps])
  | .int n => exact .of_numerals (numerals_intRepr n)
  | .float x => exact .of_numerals (json.floatRepr_numeral x)
  | .str s => exact printed_quoted s
  | .list items =>
      exact (printed_dumpsItems items good .nil).bracketed (fun _ => rfl) (fun _ => rfl)
        ⟨by decide, by decide⟩
  | .dict entries =>
      exact (printed_dumpsEntries entries good .nil).bracketed (fun _ => rfl) (fun _ => rfl)
        ⟨by decide, by decide⟩
termination_by structural value

theorem printed_dumpsItems (items : List Value) (good : Value.isJsonAll items = true)
    {separator : Text} (printed : Printed separator) :
    Printed (Value.dumpsItems json.floatRepr separator items) := by
  match items with
  | [] => exact .nil
  | item :: rest =>
      rw [Value.isJsonAll, Bool.and_eq_true] at good
      have comma : Printed [',', ' '] := ⟨fun _ => rfl, by simp⟩
      exact (printed.append (printed_dumps item good.1)).append
        (printed_dumpsItems rest good.2 comma)
termination_by structural items

theorem printed_dumpsEntries (entries : List (Value × Value))
    (good : Value.isJsonEntries entries = true) {separator : Text}
    (printed : Printed separator) :
    Printed (Value.dumpsEntries json.floatRepr separator entries) := by
  match entries with
  | [] => exact .nil
  | (key, value) :: rest =>
      rw [Value.isJsonEntries, Bool.and_eq_true, Bool.and_eq_true] at good
      obtain ⟨⟨known, shown⟩, others⟩ := good
      have named : Printed (key.dumps json.floatRepr) := by
        cases key with
        | str s => exact printed_quoted s
        | _ => cases known
      have colon : Printed [':', ' '] := ⟨fun _ => rfl, by simp⟩
      have comma : Printed [',', ' '] := ⟨fun _ => rfl, by simp⟩
      have entry := ((printed.append named).append colon).append (printed_dumps value shown)
      exact entry.append (printed_dumpsEntries rest others comma)
termination_by structural entries

end

end JsonModule

/-! ## Assignment -/

namespace Value

theorem isJsonEntries_map {entries : Mapping} (good : isJsonEntries entries = true)
    {key : PyStr} {value : Value} (printed : value.isJson = true) :
    isJsonEntries (entries.map fun entry =>
      if entry.1.isStr key then (entry.1, value) else entry) = true := by
  induction entries with
  | nil => rfl
  | cons entry rest ih =>
      obtain ⟨name, old⟩ := entry
      rw [isJsonEntries, Bool.and_eq_true, Bool.and_eq_true] at good
      obtain ⟨⟨known, shown⟩, others⟩ := good
      have same : ∀ s, ((rest.map fun entry =>
          if entry.1.isStr key then (entry.1, value) else entry).any fun entry =>
            entry.1.isStr s) = rest.any fun entry => entry.1.isStr s := by
        intro s
        rw [List.any_map]
        congr 1
        funext entry
        rw [Function.comp_apply]
        split <;> rfl
      have stillKnown : isKey (rest.map fun entry =>
          if entry.1.isStr key then (entry.1, value) else entry) name = true := by
        cases name with
        | str s =>
            rw [isKey, same]
            exact known
        | _ => exact known
      rw [List.map_cons]
      dsimp only
      split
      · rw [isJsonEntries, stillKnown, printed, ih others]
        rfl
      · rw [isJsonEntries, stillKnown, shown, ih others]
        rfl

theorem isJsonEntries_concat {entries : Mapping} (good : isJsonEntries entries = true)
    {key : PyStr} {value : Value} (encodable : key.encodable = true)
    (absent : (entries.any fun entry => entry.1.isStr key) = false)
    (printed : value.isJson = true) :
    isJsonEntries (entries ++ [(.str key, value)]) = true := by
  induction entries with
  | nil => simp [isJsonEntries, isKey, encodable, printed]
  | cons entry rest ih =>
      obtain ⟨name, old⟩ := entry
      rw [isJsonEntries, Bool.and_eq_true, Bool.and_eq_true] at good
      obtain ⟨⟨known, shown⟩, others⟩ := good
      rw [List.any_cons, Bool.or_eq_false_iff] at absent
      have stillKnown : isKey (rest ++ [(.str key, value)]) name = true := by
        cases name with
        | str s =>
            rw [isKey, Bool.and_eq_true, Bool.not_eq_true'] at known
            have different : (Value.str key).isStr s = false := by
              apply Value.isStr_eq_false (Value.isStr_iff.mpr rfl)
              rintro rfl
              rw [Value.isStr_iff.mpr rfl] at absent
              exact absurd absent.1 (by simp)
            rw [isKey, List.any_append, known.2, List.any_cons, List.any_nil, different, known.1]
            rfl
        | _ => cases known
      rw [List.cons_append, isJsonEntries, stillKnown, shown, ih others absent.2]
      rfl

/-- An assignment of such a value keeps a mapping that is printed and read back. -/
theorem isJsonEntries_set {entries : Mapping} (good : isJsonEntries entries = true)
    (key : String) {value : Value} (printed : value.isJson = true) :
    isJsonEntries (entries.set key value) = true := by
  unfold Mapping.set
  split
  · exact isJsonEntries_map good printed
  · rename_i absent
    exact isJsonEntries_concat good (PyStr.encodable_lit key) (Bool.eq_false_iff.mpr absent) printed

end Value

/-! ## A module for examples -/

/-- A module `json` for values without floats; it prints a float by its bits. -/
def sampleJson : JsonModule where
  floatRepr x := Nat.toDigits 10 x.toNat ++ ['.', '0']
  floatRead token := some (BitVec.ofNat 64 (Nat.ofDigitChars 10 (token.take (token.length - 2)) 0))
  floatRepr_chars x c member := by
    rcases List.mem_append.mp member with digit | known
    · rw [isFloatChar, Nat.isDigit_of_mem_toDigits (by decide) (by decide) digit, Bool.true_or]
    · simp only [List.mem_cons, List.not_mem_nil, or_false] at known
      rcases known with rfl | rfl <;> rfl
  floatRepr_marked x := ⟨'.', by simp, rfl⟩
  floatRead_repr x _ := by
    have token : (Nat.toDigits 10 x.toNat ++ ['.', '0']).take
        ((Nat.toDigits 10 x.toNat ++ ['.', '0']).length - 2) = Nat.toDigits 10 x.toNat := by
      rw [List.length_append]
      exact List.take_left
    rw [token, Nat.ofDigitChars_ten_toDigits, BitVec.ofNat_toNat]
    rfl

end DataOlympus
