import DataOlympus.Python.Json

/-!
# Validation errors from fixed vocabulary

An error of the validation library names the rejected values and the keys the caller chose.
The summary that leaves the server has trusted parameter names, numbers, and texts of this
module, so what the caller submitted makes no difference to it.
-/

namespace DataOlympus.Sanitize

open Lines

/-- An object, as far as the sanitizer looks into it. -/
inductive Obj where
  | str (text : PyStr)
  | int (value : Int)
  | bool (value : Bool)
  | list (items : List Obj)
  | tuple (items : List Obj)
  | dict (entries : List (Obj × Obj))
  /-- Any other object, which is true or false as a condition, and whether a `frozenset` can be
  asked for it. -/
  | other (truth hashable : Bool) (shown : PyStr)

namespace Obj

/-- `isinstance(value, str)`, with the text. -/
def asStr : Obj → Option PyStr
  | str text => some text
  | _ => none

/-- `isinstance(value, int)`, with what formatting prints; `bool` is a subclass. -/
def intText : Obj → Option PyStr
  | int value => some (PyStr.ofText (intRepr value))
  | bool true => some (PyStr.lit "True")
  | bool false => some (PyStr.lit "False")
  | _ => none

/-- Formatting raises for an integer of too many digits only. -/
def printable : Obj → Bool
  | int value => (Nat.toDigits 10 value.natAbs).length ≤ maxStrDigits
  | _ => true

/-- `isinstance(value, (list, tuple))`, with the items. -/
def items : Obj → Option (List Obj)
  | list items => some items
  | tuple items => some items
  | _ => none

mutual

/-- `value in …` does not raise for a `frozenset`. -/
def hashable : Obj → Bool
  | str _ => true
  | int _ => true
  | bool _ => true
  | list _ => false
  | tuple items => allHashable items
  | dict _ => false
  | other _ hashable _ => hashable
termination_by structural obj => obj

def allHashable : List Obj → Bool
  | [] => true
  | item :: rest => item.hashable && allHashable rest
termination_by structural items => items

end

/-- `error.get(key)` of a `dict`. -/
def get (entries : List (Obj × Obj)) (key : String) : Option Obj :=
  (entries.find? fun entry => entry.1.asStr = some (PyStr.lit key)).map Prod.snd

end Obj

/-! ## The summary -/

/-- `_RULES`. -/
def rules : List (String × String) :=
  [("missing", "is required"),
   ("missing_argument", "is required"),
   ("missing_keyword_only_argument", "is required"),
   ("missing_positional_only_argument", "is required"),
   ("unexpected_keyword_argument", "is not a parameter of this tool"),
   ("unexpected_positional_argument", "is not a parameter of this tool"),
   ("multiple_argument_values", "was given more than once"),
   ("extra_forbidden", "is not allowed"),
   ("string_type", "must be a string"),
   ("float_type", "must be a number"),
   ("float_parsing", "must be a number"),
   ("int_type", "must be an integer"),
   ("int_parsing", "must be an integer"),
   ("int_from_float", "must be an integer"),
   ("bool_type", "must be a boolean"),
   ("bool_parsing", "must be a boolean"),
   ("list_type", "must be a list"),
   ("dict_type", "must be an object"),
   ("none_required", "must be null"),
   ("greater_than", "is out of range"),
   ("greater_than_equal", "is out of range"),
   ("less_than", "is out of range"),
   ("less_than_equal", "is out of range"),
   ("too_long", "is too long"),
   ("too_short", "is too short"),
   ("string_too_long", "is too long"),
   ("string_too_short", "is too short"),
   ("literal_error", "is not an allowed value"),
   ("enum", "is not an allowed value")]

/-- `_UNEXPECTED_TYPES`. -/
def unexpectedTypes : List PyStr :=
  [PyStr.lit "unexpected_keyword_argument", PyStr.lit "unexpected_positional_argument"]

/-- What the heads of the locations come from: a declared set of names, the signature of the
tool, or nothing that can be trusted. -/
inductive Params where
  | untrusted
  | declared (names : List PyStr)
  | signature

/-- `_trusted_head(first, params)`, with the name. -/
def trustedHead (first : Obj) : Params → Option PyStr
  | .untrusted => none
  | .signature => first.asStr
  | .declared names => first.asStr.filter fun name => name ∈ names

/-- A set can be asked for the code, which may be absent. -/
def codeHashable (code : Option Obj) : Bool :=
  code.all Obj.hashable

/-- `error.get("type") in _UNEXPECTED_TYPES`, unless it raises. -/
def isUnexpected (code : Option Obj) : Option Bool :=
  if codeHashable code then some ((code.bind Obj.asStr).any fun text => text ∈ unexpectedTypes)
  else none

/-- The head of a location that is not empty, behind the test for an unexpected argument. -/
def locationHead (unexpected : Bool) (params : Params) (first : Obj) : PyStr :=
  if unexpected then PyStr.lit "<unexpected argument>"
  else
    match trustedHead first params with
    | some name => name
    | none =>
        match first.intText with
        | some number => PyStr.lit "argument " ++ number
        | none => PyStr.lit "<parameter>"

/-- The loop of `_location` over the rest; the last part is kept apart. -/
def locationParts (last : PyStr) : List Obj → List PyStr
  | [] => [last]
  | component :: rest =>
      match component.intText with
      | some number => locationParts (last ++ PyStr.lit "[" ++ number ++ PyStr.lit "]") rest
      | none => last :: locationParts (PyStr.lit "<key>") rest

/-- The components of `error.get("loc")`. -/
def components (loc : Option Obj) : List Obj :=
  (loc.bind Obj.items).getD []

/-- `_location(error, params)`, unless it raises. -/
def location (entries : List (Obj × Obj)) (params : Params) : Option PyStr :=
  match components (Obj.get entries "loc") with
  | [] => some (PyStr.lit "arguments")
  | first :: rest => (isUnexpected (Obj.get entries "type")).bind fun unexpected =>
      if (unexpected || first.printable) && rest.all Obj.printable then
        some (PyStr.join (PyStr.lit ".")
          (locationParts (locationHead unexpected params first) rest))
      else none

/-- The rule that a code names. -/
def ruleOf (code : Option Obj) : Option (String × String) :=
  (code.bind Obj.asStr).bind fun text => rules.find? fun rule => PyStr.lit rule.1 = text

/-- `_rule(error)`. -/
def rule (entries : List (Obj × Obj)) : PyStr :=
  match ruleOf (Obj.get entries "type") with
  | some (code, text) => PyStr.lit text ++ PyStr.lit " (" ++ PyStr.lit code ++ PyStr.lit ")"
  | none => PyStr.lit "is invalid"

/-- The line of an error, unless that raises; what is no `dict` has none. -/
def errorLine (params : Params) : Obj → Option (Option PyStr)
  | .dict entries => (location entries params).map fun place =>
      some (place ++ PyStr.lit " " ++ rule entries)
  | _ => some none

/-- `summarize_errors(errors, params)`, unless it raises. -/
def summarizeErrors (errors : Obj) (params : Params) : Option PyStr :=
  match errors with
  | .list items => (items.mapM (errorLine params)).map fun lines =>
      let seen := (lines.filterMap id).foldl
        (fun seen line => if line ∈ seen then seen else seen ++ [line]) []
      if seen.isEmpty then PyStr.lit "arguments are invalid" else PyStr.join (PyStr.lit "; ") seen
  | _ => some (PyStr.lit "arguments are invalid")

/-! ## What makes no difference -/

/-- A code outside the vocabulary. -/
def Foreign (code : Option Obj) : Prop :=
  ruleOf code = none

/-- Equal codes, or two codes outside the vocabulary, of which both or neither raise. -/
def SameCode (first second : Option Obj) : Prop :=
  first = second ∨ (Foreign first ∧ Foreign second) ∧ codeHashable first = codeHashable second

/-- Equal components, or two of which none is a number. -/
def SamePart (first second : Obj) : Prop :=
  first = second ∨ first.intText = none ∧ second.intText = none

/-- Equal heads, or two of which none is a number or a trusted name. -/
def SameHead (params : Params) (first second : Obj) : Prop :=
  first = second ∨ (first.intText = none ∧ trustedHead first params = none) ∧
    second.intText = none ∧ trustedHead second params = none

/-- Locations of one shape; behind the code of an unexpected argument any heads are. -/
inductive SameLocation (params : Params) (code : Option Obj) : List Obj → List Obj → Prop
  | nil : SameLocation params code [] []
  | cons {first second : Obj} {rest others : List Obj} :
      isUnexpected code = some true ∨ SameHead params first second →
      List.Forall₂ SamePart rest others →
      SameLocation params code (first :: rest) (second :: others)

/-- Errors that differ in what the caller chose. -/
inductive SameError (params : Params) : Obj → Obj → Prop
  | dict {first second : List (Obj × Obj)} :
      SameCode (Obj.get first "type") (Obj.get second "type") →
      SameLocation params (Obj.get first "type") (components (Obj.get first "loc"))
        (components (Obj.get second "loc")) →
      SameError params (.dict first) (.dict second)
  | skipped {first second : Obj} : errorLine params first = some none →
      errorLine params second = some none → SameError params first second

/-- Lists of such errors, or two objects that are no lists. -/
inductive SameErrors (params : Params) : Obj → Obj → Prop
  | list {first second : List Obj} : List.Forall₂ (SameError params) first second →
      SameErrors params (.list first) (.list second)
  | odd {first second : Obj} : (∀ items, first ≠ .list items) → (∀ items, second ≠ .list items) →
      SameErrors params first second

variable {params : Params}

/-- A code that the vocabulary lacks is not the one of an unexpected argument. -/
theorem not_mem_unexpectedTypes {code : Option Obj} (foreign : Foreign code) :
    ((code.bind Obj.asStr).any fun text => text ∈ unexpectedTypes) = false := by
  unfold Foreign ruleOf at foreign
  cases found : code.bind Obj.asStr with
  | none => rfl
  | some text =>
      simp only [found, Option.bind_some, List.find?_eq_none, decide_eq_true_eq] at foreign
      have both : ∀ name ∈ unexpectedTypes, ∃ rule ∈ rules, PyStr.lit rule.1 = name := by
        intro name member
        simp only [unexpectedTypes, List.mem_cons, List.not_mem_nil, or_false] at member
        rcases member with rfl | rfl
        · exact ⟨("unexpected_keyword_argument", "is not a parameter of this tool"), by decide, rfl⟩
        · exact ⟨("unexpected_positional_argument", "is not a parameter of this tool"), by decide,
            rfl⟩
      rw [Option.any_some, decide_eq_false_iff_not]
      intro member
      rcases both _ member with ⟨rule, listed, same⟩
      exact foreign rule listed same

theorem SameCode.isUnexpected {first second : Option Obj} (same : SameCode first second) :
    isUnexpected first = isUnexpected second := by
  rcases same with rfl | ⟨⟨foreign, alien⟩, hashable⟩
  · rfl
  · rw [Sanitize.isUnexpected, Sanitize.isUnexpected, hashable,
      not_mem_unexpectedTypes foreign, not_mem_unexpectedTypes alien]

theorem SameCode.ruleOf {first second : Option Obj} (same : SameCode first second) :
    ruleOf first = ruleOf second := by
  rcases same with rfl | ⟨⟨foreign, alien⟩, -⟩
  · rfl
  · exact foreign.trans alien.symm

theorem locationParts_congr {rest others : List Obj} (same : List.Forall₂ SamePart rest others)
    (last : PyStr) : locationParts last rest = locationParts last others := by
  induction same generalizing last with
  | nil => rfl
  | cons part _ ih =>
      unfold locationParts
      rcases part with rfl | ⟨noNumber, noOther⟩
      · split
        · exact ih _
        · rw [ih]
      · rw [noNumber, noOther]
        exact congrArg (last :: ·) (ih _)

theorem locationHead_congr {unexpected : Bool} {first second : Obj}
    (same : unexpected = true ∨ SameHead params first second) :
    locationHead unexpected params first = locationHead unexpected params second := by
  unfold locationHead
  rcases same with told | rfl | ⟨⟨noNumber, untrusted⟩, noOther, alien⟩
  · rw [if_pos told, if_pos told]
  · rfl
  · rw [noNumber, untrusted, noOther, alien]

theorem printable_of_intText {obj : Obj} (noNumber : obj.intText = none) :
    obj.printable = true := by
  cases obj with
  | int value => cases noNumber
  | str | bool | list | tuple | dict | other => rfl

/-- Formatting raises for both locations or for neither. -/
theorem printable_congr {unexpected : Bool} {first second : Obj} {rest others : List Obj}
    (heads : unexpected = true ∨ SameHead params first second)
    (parts : List.Forall₂ SamePart rest others) :
    ((unexpected || first.printable) && rest.all Obj.printable) =
      ((unexpected || second.printable) && others.all Obj.printable) := by
  have head : (unexpected || first.printable) = (unexpected || second.printable) := by
    rcases heads with rfl | rfl | ⟨⟨noNumber, -⟩, noOther, -⟩
    · rfl
    · rfl
    · rw [printable_of_intText noNumber, printable_of_intText noOther]
  have all : rest.all Obj.printable = others.all Obj.printable := by
    induction parts with
    | nil => rfl
    | cons part _ ih =>
        rw [List.all_cons, List.all_cons, ih]
        rcases part with rfl | ⟨noNumber, noOther⟩
        · rfl
        · rw [printable_of_intText noNumber, printable_of_intText noOther]
  rw [head, all]

/-- The line of an error does not depend on what the caller chose. -/
theorem SameError.errorLine {first second : Obj} (same : SameError params first second) :
    errorLine params first = errorLine params second := by
  cases same with
  | skipped nothing none => exact nothing.trans none.symm
  | @dict first second codes locations =>
      have rules : rule first = rule second := by
        unfold rule
        rw [codes.ruleOf]
      have places : location first params = location second params := by
        unfold location
        generalize components (Obj.get first "loc") = parts at locations
        generalize components (Obj.get second "loc") = others at locations
        cases locations with
        | nil => rfl
        | cons heads rest =>
            rw [← codes.isUnexpected]
            cases told : Sanitize.isUnexpected (Obj.get first "type") with
            | none => rfl
            | some unexpected =>
                rw [told, Option.some.injEq] at heads
                simp only [Option.bind_some, printable_congr heads rest,
                  locationHead_congr heads, locationParts_congr rest]
      simp only [Sanitize.errorLine, rules, places]

/-- The summary does not depend on what the caller chose. -/
theorem SameErrors.summarizeErrors {first second : Obj} (same : SameErrors params first second) :
    summarizeErrors first params = summarizeErrors second params := by
  cases same with
  | odd noList none =>
      have plain {errors : Obj} (odd : ∀ items, errors ≠ .list items) :
          Sanitize.summarizeErrors errors params = some (PyStr.lit "arguments are invalid") := by
        cases errors with
        | list items => exact absurd rfl (odd items)
        | str | int | bool | tuple | dict | other => rfl
      rw [plain noList, plain none]
  | list errors =>
      have lines {first second : List Obj} (errors : List.Forall₂ (SameError params) first second) :
          first.mapM (Sanitize.errorLine params) = second.mapM (Sanitize.errorLine params) := by
        induction errors with
        | nil => rfl
        | cons error _ ih => rw [List.mapM_cons, List.mapM_cons, error.errorLine, ih]
      simp only [Sanitize.summarizeErrors, lines errors]

end DataOlympus.Sanitize
