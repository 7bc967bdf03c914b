import DataOlympus.Text.Lines
import Mathlib.Data.List.Basic
import Mathlib.Data.Prod.Lex

/-!
# Values of a YAML document

`yaml.safe_load` turns the text of a front matter block into a value.  This
module has the values the code looks at, the text `str` gives for them, and the
parts of the Python runtime the code calls but does not contain: the YAML loader,
the two ISO parsers of `datetime`, and `str` on values that are not text.

A YAML double-quoted scalar may denote a lone surrogate, so the characters of a
`PyStr` are code points rather than Unicode scalar values.
-/

namespace DataOlympus

open Lines

/-- One element of a Python `str`. -/
inductive CodePoint where
  | scalar (c : Char)
  /-- The lone surrogate `0xD800 + offset`. -/
  | surrogate (offset : Fin 2048)
  deriving DecidableEq

abbrev PyStr : Type := List CodePoint

namespace PyStr

instance : LawfulBEq PyStr :=
  inferInstance

/-- The `str` holding an encodable text. -/
def ofText (text : Text) : PyStr :=
  text.map CodePoint.scalar

/-- A literal of the source. -/
def lit (literal : String) : PyStr :=
  ofText literal.toList

/-- `s.encode("utf-8")` raises on a lone surrogate. -/
def encodable (s : PyStr) : Bool :=
  s.all fun
    | .scalar _ => true
    | .surrogate _ => false

@[simp]
theorem encodable_nil : encodable [] = true :=
  rfl

@[simp]
theorem encodable_append (s t : PyStr) :
    encodable (s ++ t) = (encodable s && encodable t) := by
  simp [encodable]

@[simp]
theorem encodable_ofText (text : Text) : encodable (ofText text) = true := by
  simp [encodable, ofText]

@[simp]
theorem encodable_lit (literal : String) : encodable (lit literal) = true :=
  encodable_ofText _

theorem ofText_injective : Function.Injective ofText :=
  List.map_injective_iff.mpr fun _ _ same => CodePoint.scalar.inj same

@[simp]
theorem ofText_eq_nil_iff {text : Text} : ofText text = [] ↔ text = [] := by
  simp [ofText]

/-- White space in the sense of `str.isspace`; a surrogate is none. -/
def isSpaceAt : CodePoint → Bool
  | .scalar c => isSpace c
  | .surrogate _ => false

/-- `s.strip()`. -/
def strip (s : PyStr) : PyStr :=
  ((s.dropWhile isSpaceAt).reverse.dropWhile isSpaceAt).reverse

/-- `not s.strip()`. -/
def blank (s : PyStr) : Bool :=
  s.strip.isEmpty

/-- `separator.join(parts)`. -/
def join (separator : PyStr) (parts : List PyStr) : PyStr :=
  separator.intercalate parts

theorem encodable_join {separator : PyStr} (good : encodable separator = true)
    (parts : List PyStr) :
    encodable (join separator parts) = parts.all encodable := by
  induction parts with
  | nil => rfl
  | cons first rest ih =>
      cases rest with
      | nil => simp [join]
      | cons second rest =>
          rw [join, List.intercalate_cons_cons, encodable_append, encodable_append, good]
          change (first.encodable && true && (join separator (second :: rest)).encodable) = _
          rw [ih]
          simp

end PyStr

/-- A calendar date, compared by year, then month, then day.  Its ISO text has
fixed width, so the text comparison of the source is this order. -/
structure Date where
  year : Nat
  month : Nat
  day : Nat
  deriving DecidableEq

namespace Date

/-- The fields in the order in which dates are compared. -/
def key (date : Date) : Nat ×ₗ Nat ×ₗ Nat :=
  toLex (date.year, toLex (date.month, date.day))

theorem key_injective : Function.Injective key := by
  rintro ⟨y, m, d⟩ ⟨y', m', d'⟩ same
  simp only [key, EmbeddingLike.apply_eq_iff_eq, Prod.mk.injEq] at same
  rcases same with ⟨rfl, rfl, rfl⟩
  rfl

instance : LinearOrder Date :=
  LinearOrder.lift' key key_injective

end Date

/-- A value `yaml.safe_load` returns. -/
inductive Value where
  | null
  | bool (b : Bool)
  | int (n : Int)
  /-- An IEEE double by its bits. -/
  | float (bits : BitVec 64)
  | str (s : PyStr)
  | bytes (b : List UInt8)
  | date (day : Date)
  /-- `moment` counts microseconds, in UTC when the value carries an offset. -/
  | datetime (day : Date) (aware : Bool) (moment : Int)
  | list (items : List Value)
  | tuple (items : List Value)
  | set (items : List Value)
  | dict (entries : List (Value × Value))

/-- The mapping a front matter block parses to. -/
abbrev Mapping : Type := List (Value × Value)

namespace Value

/-- The value is the string `s`. -/
def isStr (s : PyStr) : Value → Bool
  | .str t => t = s
  | _ => false

/-- Bits of a double that are zero up to the sign. -/
def isZeroFloat (bits : BitVec 64) : Bool :=
  bits <<< 1 = 0

/-- Bits of a double that is not a number. -/
def isNanFloat (bits : BitVec 64) : Bool :=
  0x7ff0000000000000#64 < bits &&& 0x7fffffffffffffff#64

/-- The truth value of `value or {}`. -/
def truthy : Value → Bool
  | .null => false
  | .bool b => b
  | .int n => n != 0
  | .float bits => !isZeroFloat bits
  | .str s => !s.isEmpty
  | .bytes b => !b.isEmpty
  | .date _ => true
  | .datetime .. => true
  | .list items => !items.isEmpty
  | .tuple items => !items.isEmpty
  | .set items => !items.isEmpty
  | .dict entries => !entries.isEmpty

/-- A container that `in` cannot look up in a `frozenset`; a set is looked up as a frozen one. -/
def unhashable : Value → Bool
  | .list _ => true
  | .dict _ => true
  | _ => false

end Value

namespace Mapping

/-- `mapping.get(key)`, with `None` where the key is absent. -/
def get (entries : Mapping) (key : String) : Option Value :=
  (entries.find? fun entry => entry.1.isStr (PyStr.lit key)).map Prod.snd

/-- `mapping.get(key) is not None`, as the value present. -/
def present (entries : Mapping) (key : String) : Option Value :=
  match entries.get key with
  | some .null => none
  | found => found

@[simp]
theorem get_nil (key : String) : get [] key = none :=
  rfl

@[simp]
theorem present_nil (key : String) : present [] key = none :=
  rfl

end Mapping

/-- What the modelled code can raise. -/
inductive Raised where
  /-- `ValueError`, which the parsers of front matter catch. -/
  | valueError (message : PyStr)
  /-- `TypeError`: membership of an unhashable value. -/
  | unhashable
  /-- An exception of the YAML loader that is no `ValueError`. -/
  | loader (message : PyStr)

/-- How `yaml.safe_load` can fail. -/
inductive LoadError where
  | yamlError (message : PyStr)
  | valueError (message : PyStr)
  | other (message : PyStr)

/-- The in-force status class. -/
def inForceStatuses : List PyStr :=
  [PyStr.lit "active", PyStr.lit "accepted", PyStr.lit "approved"]

/-- The Python runtime the code relies on. -/
structure Runtime where
  /-- `yaml.safe_load`. -/
  safeLoad : Text → Except LoadError Value
  /-- `datetime.date.fromisoformat`. -/
  dateFromIsoformat : PyStr → Option Date
  /-- `datetime.datetime.fromisoformat(s).date()`. -/
  datetimeFromIsoformat : PyStr → Option Date
  /-- `str` of a number, date, byte string or container; `none` where it raises
  `ValueError` because an integer has too many digits. -/
  render : Value → Option Text
  /-- Such a text is never empty and never one of the in-force words. -/
  render_spec : ∀ {value text}, render value = some text →
    text ≠ [] ∧ PyStr.ofText text ∉ inForceStatuses

namespace Runtime

variable (runtime : Runtime)

/-- `str(value)`. -/
def str : Value → Except Raised PyStr
  | .null => .ok (PyStr.lit "None")
  | .bool true => .ok (PyStr.lit "True")
  | .bool false => .ok (PyStr.lit "False")
  | .str s => .ok s
  | value =>
      match runtime.render value with
      | some text => .ok (PyStr.ofText text)
      | none => .error (.valueError (PyStr.lit "Exceeds the limit for integer string conversion"))

/-- Only a string reads as one of the in-force words. -/
theorem eq_str_of_mem_inForceStatuses {value : Value} {s : PyStr}
    (text : runtime.str value = .ok s) (inClass : s ∈ inForceStatuses) :
    value = .str s := by
  unfold str at text
  split at text
  · cases text
    exact absurd inClass (by decide)
  · cases text
    exact absurd inClass (by decide)
  · cases text
    exact absurd inClass (by decide)
  · cases text
    rfl
  · split at text
    · rename_i rendered
      cases text
      exact absurd inClass (runtime.render_spec rendered).2
    · contradiction

/-- Only the empty string reads as the empty text. -/
theorem eq_str_of_str_eq_nil {value : Value} (text : runtime.str value = .ok []) :
    value = .str [] := by
  unfold str at text
  split at text
  · exact absurd (Except.ok.inj text) (by decide)
  · exact absurd (Except.ok.inj text) (by decide)
  · exact absurd (Except.ok.inj text) (by decide)
  · cases text
    rfl
  · split at text
    · rename_i rendered
      exact absurd (PyStr.ofText_eq_nil_iff.mp (Except.ok.inj text))
        (runtime.render_spec rendered).1
    · contradiction

/-- A runtime with a given YAML loader, which reads no date and prints no number. -/
def ofLoader (safeLoad : Text → Except LoadError Value) : Runtime where
  safeLoad := safeLoad
  dateFromIsoformat _ := none
  datetimeFromIsoformat _ := none
  render _ := none
  render_spec impossible := nomatch impossible

/-- A runtime that knows the YAML values of finitely many blocks and rejects every
other block. -/
def ofBlocks (blocks : List (Text × Value)) : Runtime :=
  ofLoader fun raw =>
    match blocks.lookup raw with
    | some value => .ok value
    | none => .error (.yamlError [])

end Runtime

end DataOlympus
