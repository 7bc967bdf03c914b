import DataOlympus.Python.Value

/-!
# Type-exact equality

`_strict_equal` compares two YAML values so that `1` differs from `True` and `1.0`
at every depth.  Lists keep their order; mappings and sets pair their members in
any order.  Values here are finite trees, so the guard of the source against
aliases has nothing to do.
-/

namespace DataOlympus.Value

/-- Two doubles are equal, or both are not numbers. -/
def sameFloat (left right : BitVec 64) : Bool :=
  left = right || (isZeroFloat left && isZeroFloat right) ||
    (isNanFloat left && isNanFloat right)

mutual

/-- `_strict_equal(left, right)`. -/
def strictEqual (left : Value) : Value → Bool :=
  fun right =>
    match left, right with
    | .null, .null => true
    | .bool a, .bool b => a = b
    | .int a, .int b => a = b
    | .float a, .float b => sameFloat a b
    | .str a, .str b => a = b
    | .bytes a, .bytes b => a = b
    | .date a, .date b => a = b
    | .datetime _ aware moment, .datetime _ aware' moment' =>
        aware = aware' && moment = moment'
    | .list xs, .list ys => strictEqualAll xs ys
    | .tuple xs, .tuple ys => strictEqualAll xs ys
    | .set xs, .set ys => matchItems xs ys
    | .dict xs, .dict ys => matchEntries xs ys
    | _, _ => false
termination_by structural left

/-- Two sequences of equal length, compared in order. -/
def strictEqualAll : List Value → List Value → Bool
  | [], [] => true
  | x :: xs, y :: ys => strictEqual x y && strictEqualAll xs ys
  | _, _ => false
termination_by structural left => left

/-- `_match_unordered` on the members of two sets. -/
def matchItems : List Value → List Value → Bool
  | [], unmatched => unmatched.isEmpty
  | x :: xs, unmatched =>
      unmatched.any (strictEqual x) && matchItems xs (unmatched.eraseP (strictEqual x))
termination_by structural left => left

/-- `_match_unordered` on the entries of two mappings. -/
def matchEntries : List (Value × Value) → List (Value × Value) → Bool
  | [], unmatched => unmatched.isEmpty
  | (key, value) :: rest, unmatched =>
      unmatched.any (fun entry => strictEqual key entry.1 && strictEqual value entry.2) &&
        matchEntries rest
          (unmatched.eraseP fun entry => strictEqual key entry.1 && strictEqual value entry.2)
termination_by structural left => left

end

example : strictEqual (.list [.int 1]) (.list [.bool true]) = false := by decide

end DataOlympus.Value
