import DataOlympus.Python.JsonAscii

/-!
# Literals of a script

The literals of JavaScript that JSON has as well, of strings, arrays and objects.  A string is
a list of sixteen-bit units.  The property `__proto__` of an object literal is no property of
the object: it sets the prototype when its value is an object, and nothing otherwise.
-/

namespace DataOlympus.Html

open Lines

/-- The UTF-16 units of a code point. -/
def units : CodePoint → List Nat
  | .surrogate offset => [0xd800 + offset]
  | .scalar c =>
      if c.toNat < 0x10000 then [c.toNat]
      else [0xd800 + (c.toNat - 0x10000) / 0x400, 0xdc00 + (c.toNat - 0x10000) % 0x400]

/-- The string of a script that a string of Python becomes. -/
def utf16 (s : PyStr) : List Nat :=
  s.flatMap units

/-- A value of a script. -/
inductive JsValue where
  | str (units : List Nat)
  | arr (items : List JsValue)
  | obj (prototype : Option JsValue) (own : List (List Nat × JsValue))

/-- A property is set, in its place when it is there. -/
def setOwn (own : List (List Nat × JsValue)) (key : List Nat) (value : JsValue) :
    List (List Nat × JsValue) :=
  if own.any fun entry => entry.1 = key then
    own.map fun entry => if entry.1 = key then (key, value) else entry
  else own ++ [(key, value)]

/-- The property of an object literal that is none. -/
def protoKey : List Nat :=
  utf16 (PyStr.lit "__proto__")

/-- The properties of an object literal take effect one by one. -/
def define (object : Option JsValue × List (List Nat × JsValue)) (entry : List Nat × JsValue) :
    Option JsValue × List (List Nat × JsValue) :=
  if entry.1 = protoKey then
    match entry.2 with
    | .str _ => object
    | value => (some value, object.2)
  else (object.1, setOwn object.2 entry.1 entry.2)

/-- The object of an object literal. -/
def objectOf (entries : List (List Nat × JsValue)) : JsValue :=
  let object := entries.foldl define (none, [])
  .obj object.1 object.2

/-- A string literal behind its opening quote. -/
def readUnits (text : Text) : Option (List Nat × Text) :=
  (readPoints (text.length + 1) text).map fun (points, rest) => (utf16 points, rest)

/-- A property, with `value` for what stands behind its colon. -/
def readProperty (value : Text → Option (JsValue × Text)) (text : Text) :
    Option ((List Nat × JsValue) × Text) :=
  match skipBlank text with
  | [] => none
  | c :: rest =>
      if c = '"' then
        (readUnits rest).bind fun (key, rest) =>
          match skipBlank rest with
          | [] => none
          | c :: rest =>
              if c = ':' then (value rest).map fun (found, rest) => ((key, found), rest) else none
      else none

/-- A literal, for as many nested brackets as there may be. -/
def readLiteral : Nat → Text → Option (JsValue × Text)
  | 0, _ => none
  | fuel + 1, text =>
      match skipBlank text with
      | [] => none
      | c :: rest =>
          if c = '"' then (readUnits rest).map fun (s, rest) => (.str s, rest)
          else if c = '[' then
            (readBracketed (readLiteral fuel) ']' rest).map fun (items, rest) => (.arr items, rest)
          else if c = '\x7b' then
            (readBracketed (readProperty (readLiteral fuel)) '\x7d' rest).map fun (entries, rest) =>
              (objectOf entries, rest)
          else none

/-- The value of a literal that is the whole text. -/
def evaluate (text : Text) : Option JsValue :=
  (readLiteral (text.length + 1) text).bind fun (value, rest) =>
    if skipBlank rest = [] then some value else none

/-! ## Properties -/

variable {entries own : List (List Nat × JsValue)} {key : List Nat} {value : JsValue}

/-- Properties with different names are all kept, in their order. -/
theorem foldl_define (distinct : ((own ++ entries).map Prod.fst).Nodup)
    (no_proto : ∀ entry ∈ entries, entry.1 ≠ protoKey) :
    entries.foldl define (none, own) = (none, own ++ entries) := by
  induction entries generalizing own with
  | nil => rw [List.append_nil, List.foldl_nil]
  | cons entry entries ih =>
      obtain ⟨first, further⟩ := List.forall_mem_cons.mp no_proto
      have new : (own.any fun other => other.1 = entry.1) = false := by
        rw [List.any_eq_false]
        intro other member same
        rw [List.map_append, List.nodup_append] at distinct
        apply distinct.2.2 other.1 (List.mem_map_of_mem member) entry.1
        · exact List.mem_map_of_mem List.mem_cons_self
        · exact of_decide_eq_true same
      have defined : define (none, own) entry = (none, own ++ [entry]) := by
        rw [define, if_neg first, setOwn, new]
        rfl
      rw [List.foldl_cons, defined, ih _ further, List.append_assoc]
      · rfl
      · rwa [List.append_assoc]

theorem objectOf_of_distinct (distinct : (entries.map Prod.fst).Nodup)
    (no_proto : ∀ entry ∈ entries, entry.1 ≠ protoKey) : objectOf entries = .obj none entries := by
  have defined : entries.foldl define (none, []) = (none, [] ++ entries) :=
    foldl_define distinct no_proto
  rw [objectOf, defined]
  rfl

/-- A property never gets the name `__proto__`. -/
theorem protoKey_not_mem {object : Option JsValue × List (List Nat × JsValue)}
    (absent : ∀ entry ∈ object.2, entry.1 ≠ protoKey) :
    ∀ entry ∈ (entries.foldl define object).2, entry.1 ≠ protoKey := by
  induction entries generalizing object with
  | nil => exact absent
  | cons entry entries ih =>
      apply ih
      unfold define
      split
      · split <;> exact absent
      · rename_i different
        unfold setOwn
        split
        · intro other member
          obtain ⟨before, among, rfl⟩ := List.mem_map.mp member
          split
          · exact different
          · exact absent before among
        · intro other member
          rcases List.mem_append.mp member with before | last
          · exact absent other before
          · rw [List.mem_singleton.mp last]
            exact different

/-- An object literal denotes its entries only if none is named `__proto__`. -/
theorem objectOf_eq_iff (distinct : (entries.map Prod.fst).Nodup) :
    objectOf entries = .obj none entries ↔ ∀ entry ∈ entries, entry.1 ≠ protoKey := by
  refine ⟨?_, objectOf_of_distinct distinct⟩
  intro same entry member
  obtain ⟨_, own⟩ := JsValue.obj.inj same
  have kept := @protoKey_not_mem entries (none, []) (List.forall_mem_nil _)
  rw [own] at kept
  exact kept entry member

end DataOlympus.Html
