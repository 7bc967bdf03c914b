import DataOlympus.Python.SameValue
import Mathlib.Data.Fintype.Prod
import Mathlib.Data.Finset.Card

/-!
# Comparing aliased values

A YAML document with aliases loads into objects that may be shared and may contain themselves.
`_strict_equal` remembers the pairs of containers that it has met and takes them for equal.  It
returns on all objects.  A mapping may have several keys that are NaN, and the search
among their entries then goes on behind a pair that was met and is not equal.  Without such
mappings the comparison of objects that unfold into finite values is that of the values.
-/

namespace DataOlympus

open Value

/-- The value holds no other value. -/
def Value.isLeaf : Value → Bool
  | .list _ => false
  | .tuple _ => false
  | .set _ => false
  | .dict _ => false
  | _ => true

/-- The value is a float that is not a number. -/
def Value.isNan : Value → Bool
  | .float bits => isNanFloat bits
  | _ => false

/-- The entries with a container behind a key that is NaN. -/
def Value.nanEntries : Value → List (Value × Value)
  | .dict entries => entries.filter fun entry => entry.1.isNan && !entry.2.isLeaf
  | _ => []

/-- No mapping in the value has more of these entries than the bound. -/
inductive Value.FewNans (bound : Nat) : Value → Prop
  | intro {value : Value} : value.nanEntries.length ≤ bound →
      (∀ member ∈ value.members, Value.FewNans bound member) → Value.FewNans bound value

/-- An object: a leaf, or a container of references. -/
inductive Node (ι : Type) where
  | leaf (value : { value : Value // value.isLeaf = true })
  | list (items : List ι)
  | tuple (items : List ι)
  | set (items : List ι)
  | dict (entries : List (ι × ι))

/-- Objects by their `id`. -/
abbrev Objects (n : Nat) : Type := Fin n → Node (Fin n)

/-! ## The comparison -/

section Loops

variable {ι σ : Type} (equal : ι → ι → σ → Option (Bool × σ))

/-- `all(_strict_equal(a, b, seen) for a, b in zip(left, right))`. -/
def allEqual : List (ι × ι) → σ → Option (Bool × σ)
  | [], seen => some (true, seen)
  | (a, b) :: rest, seen =>
      (equal a b seen).bind fun answer =>
        if answer.1 then allEqual rest answer.2 else some (false, answer.2)

/-- Two values of entries; a member of a set has the value `None`. -/
def equalValues : Option ι → Option ι → σ → Option (Bool × σ)
  | some a, some b, seen => equal a b seen
  | none, none, seen => some (true, seen)
  | _, _, seen => some (false, seen)

/-- The inner loop of `_match_unordered`, with the entries that stay unmatched. -/
def findMatch (lkey : ι) (lvalue : Option ι) :
    List (ι × Option ι) → σ → Option (Option (List (ι × Option ι)) × σ)
  | [], seen => some (none, seen)
  | (rkey, rvalue) :: rest, seen =>
      (equal lkey rkey seen).bind fun keys =>
        (if keys.1 then equalValues equal lvalue rvalue keys.2 else some (false, keys.2)).bind
          fun values =>
            if values.1 then some (some rest, values.2)
            else (findMatch lkey lvalue rest values.2).map fun found =>
              (found.1.map ((rkey, rvalue) :: ·), found.2)

/-- The outer loop of `_match_unordered`. -/
def matchLoop : List (ι × Option ι) → List (ι × Option ι) → σ → Option (Bool × σ)
  | [], unmatched, seen => some (unmatched.isEmpty, seen)
  | (lkey, lvalue) :: rest, unmatched, seen =>
      (findMatch equal lkey lvalue unmatched seen).bind fun found =>
        match found.1 with
        | none => some (false, found.2)
        | some remaining => matchLoop rest remaining found.2

/-- `_match_unordered(left, right, seen)`. -/
def matchUnordered (left right : List (ι × Option ι)) (seen : σ) : Option (Bool × σ) :=
  if left.length ≠ right.length then some (false, seen) else matchLoop equal left right seen

end Loops

/-- `[(v, None) for v in items]`. -/
def withNone {ι : Type} (items : List ι) : List (ι × Option ι) :=
  items.map fun item => (item, none)

/-- `list(mapping.items())`. -/
def withValue {ι : Type} (entries : List (ι × ι)) : List (ι × Option ι) :=
  entries.map fun entry => (entry.1, some entry.2)

section Compare

variable {n : Nat} (objects : Objects n)

/-- The pairs of containers that were met. -/
abbrev Seen (n : Nat) : Type := List (Fin n × Fin n)

/-- The check of the pair before two containers are entered. -/
def visit (pair : Fin n × Fin n) (seen : Seen n) (enter : Seen n → Option (Bool × Seen n)) :
    Option (Bool × Seen n) :=
  if pair ∈ seen then some (true, seen) else enter (pair :: seen)

/-- `_strict_equal(left, right, _seen)`, down to a depth of calls. -/
def strictEqualAt : Nat → Fin n → Fin n → Seen n → Option (Bool × Seen n)
  | 0, _, _, _ => none
  | depth + 1, left, right, seen =>
      let equal := strictEqualAt depth
      match objects left, objects right with
      | .leaf a, .leaf b => some (strictEqual a.1 b.1, seen)
      | .list xs, .list ys => visit (left, right) seen fun seen =>
          if xs.length ≠ ys.length then some (false, seen) else allEqual equal (xs.zip ys) seen
      | .tuple xs, .tuple ys => visit (left, right) seen fun seen =>
          if xs.length ≠ ys.length then some (false, seen) else allEqual equal (xs.zip ys) seen
      | .set xs, .set ys => visit (left, right) seen
          (matchUnordered equal (withNone xs) (withNone ys))
      | .dict xs, .dict ys => visit (left, right) seen
          (matchUnordered equal (withValue xs) (withValue ys))
      | _, _ => some (false, seen)

/-- `_strict_equal(left, right)`: a call enters a pair only once. -/
def strictEqualObjects (left right : Fin n) : Bool :=
  ((strictEqualAt objects (n * n + 1) left right []).map Prod.fst).getD false

end Compare

/-! ## It returns -/

section Returns

/-- The comparison returns, and forgets no pair, wherever at least these pairs were met. -/
def Answers {ι : Type} {n : Nat} (equal : ι → ι → Seen n → Option (Bool × Seen n))
    (least : Seen n) : Prop :=
  ∀ a b seen, least ⊆ seen → ∃ same after, equal a b seen = some (same, after) ∧ seen ⊆ after

variable {ι : Type} {n : Nat} {equal : ι → ι → Seen n → Option (Bool × Seen n)}
  {least : Seen n}

theorem allEqual_answers (answers : Answers equal least) (pairs : List (ι × ι)) {seen : Seen n}
    (met : least ⊆ seen) :
    ∃ same after, allEqual equal pairs seen = some (same, after) ∧ seen ⊆ after := by
  induction pairs generalizing seen with
  | nil => exact ⟨true, seen, rfl, List.Subset.refl _⟩
  | cons pair rest ih =>
      obtain ⟨same, after, answered, kept⟩ := answers pair.1 pair.2 seen met
      rw [allEqual, answered, Option.bind_some]
      cases same with
      | false => exact ⟨false, after, rfl, kept⟩
      | true =>
          obtain ⟨all, last, looped, more⟩ := ih (List.Subset.trans met kept)
          exact ⟨all, last, looped, List.Subset.trans kept more⟩

theorem equalValues_answers (answers : Answers equal least) :
    Answers (equalValues equal) least := by
  intro a b seen met
  cases a with
  | none =>
      cases b with
      | none => exact ⟨true, seen, rfl, List.Subset.refl _⟩
      | some b => exact ⟨false, seen, rfl, List.Subset.refl _⟩
  | some a =>
      cases b with
      | none => exact ⟨false, seen, rfl, List.Subset.refl _⟩
      | some b => exact answers a b seen met

theorem findMatch_answers (answers : Answers equal least) (lkey : ι) (lvalue : Option ι)
    (unmatched : List (ι × Option ι)) {seen : Seen n} (met : least ⊆ seen) :
    ∃ found after, findMatch equal lkey lvalue unmatched seen = some (found, after) ∧
      seen ⊆ after := by
  induction unmatched generalizing seen with
  | nil => exact ⟨none, seen, rfl, List.Subset.refl _⟩
  | cons entry rest ih =>
      obtain ⟨rkey, rvalue⟩ := entry
      obtain ⟨keys, after, answered, kept⟩ := answers lkey rkey seen met
      rw [findMatch, answered, Option.bind_some]
      have values : ∃ same last,
          (if keys then equalValues equal lvalue rvalue after else some (false, after)) =
            some (same, last) ∧ after ⊆ last := by
        cases keys with
        | false => exact ⟨false, after, rfl, List.Subset.refl _⟩
        | true => exact equalValues_answers answers lvalue rvalue after (List.Subset.trans met kept)
      obtain ⟨same, last, compared, more⟩ := values
      dsimp only
      rw [compared, Option.bind_some]
      cases same with
      | true => exact ⟨some rest, last, rfl, List.Subset.trans kept more⟩
      | false =>
          obtain ⟨found, final, looped, further⟩ :=
            ih (List.Subset.trans (List.Subset.trans met kept) more)
          dsimp only
          rw [if_neg Bool.false_ne_true, looped]
          exact ⟨_, final, rfl, List.Subset.trans (List.Subset.trans kept more) further⟩

theorem matchLoop_answers (answers : Answers equal least) (left unmatched : List (ι × Option ι))
    {seen : Seen n} (met : least ⊆ seen) :
    ∃ same after, matchLoop equal left unmatched seen = some (same, after) ∧ seen ⊆ after := by
  induction left generalizing unmatched seen with
  | nil => exact ⟨unmatched.isEmpty, seen, rfl, List.Subset.refl _⟩
  | cons entry rest ih =>
      obtain ⟨found, after, searched, kept⟩ :=
        findMatch_answers answers entry.1 entry.2 unmatched met
      rw [matchLoop, searched, Option.bind_some]
      cases found with
      | none => exact ⟨false, after, rfl, kept⟩
      | some remaining =>
          obtain ⟨same, last, looped, more⟩ := ih remaining (List.Subset.trans met kept)
          exact ⟨same, last, looped, List.Subset.trans kept more⟩

theorem matchUnordered_answers (answers : Answers equal least)
    (left right : List (ι × Option ι)) {seen : Seen n} (met : least ⊆ seen) :
    ∃ same after, matchUnordered equal left right seen = some (same, after) ∧ seen ⊆ after := by
  unfold matchUnordered
  split
  · exact ⟨false, seen, rfl, List.Subset.refl _⟩
  · exact matchLoop_answers answers left right met

end Returns

section Depth

variable {n : Nat} {objects : Objects n}

/-- The pairs that were not met. -/
def unmet (seen : Seen n) : Finset (Fin n × Fin n) :=
  Finset.univ.filter (· ∉ seen)

theorem card_unmet_le {seen after : Seen n} (kept : seen ⊆ after) :
    (unmet after).card ≤ (unmet seen).card := by
  apply Finset.card_le_card
  intro pair outside
  rw [unmet, Finset.mem_filter] at outside ⊢
  exact ⟨outside.1, fun member => outside.2 (kept member)⟩

theorem card_unmet_cons {seen : Seen n} {pair : Fin n × Fin n} (new : pair ∉ seen) :
    (unmet (pair :: seen)).card < (unmet seen).card := by
  apply Finset.card_lt_card
  refine Finset.ssubset_iff_of_subset ?_ |>.mpr ⟨pair, ?_, ?_⟩
  · intro other outside
    rw [unmet, Finset.mem_filter] at outside ⊢
    exact ⟨outside.1, fun member => outside.2 (List.mem_cons_of_mem _ member)⟩
  · exact Finset.mem_filter.mpr ⟨Finset.mem_univ _, new⟩
  · intro outside
    exact (Finset.mem_filter.mp outside).2 List.mem_cons_self

theorem visit_answers {pair : Fin n × Fin n} {seen : Seen n}
    {enter : Seen n → Option (Bool × Seen n)}
    (enters : pair ∉ seen → ∃ same after, enter (pair :: seen) = some (same, after) ∧
      pair :: seen ⊆ after) :
    ∃ same after, visit pair seen enter = some (same, after) ∧ seen ⊆ after := by
  unfold visit
  split
  · exact ⟨true, seen, rfl, List.Subset.refl _⟩
  · rename_i new
    obtain ⟨same, after, entered, kept⟩ := enters new
    exact ⟨same, after, entered, List.Subset.trans (List.subset_cons_self _ _) kept⟩

/-- A depth beyond the number of pairs that were not met is enough. -/
theorem strictEqualAt_answers {depth : Nat} (left right : Fin n) {seen : Seen n}
    (enough : (unmet seen).card < depth) :
    ∃ same after, strictEqualAt objects depth left right seen = some (same, after) ∧
      seen ⊆ after := by
  induction depth generalizing left right seen with
  | zero => exact absurd enough (Nat.not_lt_zero _)
  | succ depth ih =>
      have answers : (left, right) ∉ seen →
          Answers (strictEqualAt objects depth) ((left, right) :: seen) := by
        intro new a b other met
        apply ih
        have fewer := card_unmet_cons new
        have least := card_unmet_le met
        omega
      rw [strictEqualAt]
      split
      · exact ⟨_, seen, rfl, List.Subset.refl _⟩
      · apply visit_answers
        intro new
        split
        · exact ⟨false, _, rfl, List.Subset.refl _⟩
        · exact allEqual_answers (answers new) _ (List.Subset.refl _)
      · apply visit_answers
        intro new
        split
        · exact ⟨false, _, rfl, List.Subset.refl _⟩
        · exact allEqual_answers (answers new) _ (List.Subset.refl _)
      · apply visit_answers
        intro new
        exact matchUnordered_answers (answers new) _ _ (List.Subset.refl _)
      · apply visit_answers
        intro new
        exact matchUnordered_answers (answers new) _ _ (List.Subset.refl _)
      · exact ⟨false, seen, rfl, List.Subset.refl _⟩

theorem card_unmet_nil : (unmet ([] : Seen n)).card = n * n := by
  simp [unmet]

end Depth

/-! ## The values of objects -/

section Values

variable {ι : Type}

/-- The references that are hashed. -/
def Node.keys : Node ι → List ι
  | .set items => items
  | .dict entries => entries.map Prod.fst
  | _ => []

/-- All references. -/
def Node.children : Node ι → List ι
  | .leaf _ => []
  | .list items => items
  | .tuple items => items
  | .set items => items
  | .dict entries => entries.map Prod.fst ++ entries.map Prod.snd

variable {n : Nat} (objects : Objects n)

/-- What `yaml.safe_load` returns: only leaves can be hashed, and no two keys of a mapping and no
two members of a set are equal, where two NaNs are not equal. -/
structure Objects.Loaded : Prop where
  leaves : ∀ id, ∀ key ∈ (objects id).keys, ∃ value, objects key = .leaf value
  distinct : ∀ id, (objects id).keys.Pairwise fun first second =>
    first ≠ second ∧ ∀ value other, objects first = .leaf value → objects second = .leaf other →
      strictEqual value.1 other.1 = true → value.1.isNan = true

/-- No path of references from the object is endless. -/
def Objects.Acyclic (id : Fin n) : Prop :=
  Acc (fun child parent => child ∈ (objects parent).children) id

/-- The object unfolds into a value. -/
inductive Objects.Reads : Fin n → Value → Prop
  | leaf {id : Fin n} {value : { value : Value // value.isLeaf = true }} :
      objects id = .leaf value → Objects.Reads id value.1
  | list {id : Fin n} {items : List (Fin n)} {values : List Value} : objects id = .list items →
      List.Forall₂ Objects.Reads items values → Objects.Reads id (.list values)
  | tuple {id : Fin n} {items : List (Fin n)} {values : List Value} :
      objects id = .tuple items → List.Forall₂ Objects.Reads items values →
        Objects.Reads id (.tuple values)
  | set {id : Fin n} {items : List (Fin n)} {values : List Value} : objects id = .set items →
      List.Forall₂ Objects.Reads items values → Objects.Reads id (.set values)
  | dict {id : Fin n} {entries : List (Fin n × Fin n)} {values : List (Value × Value)} :
      objects id = .dict entries →
      List.Forall₂ Objects.Reads (entries.map Prod.fst) (values.map Prod.fst) →
      List.Forall₂ Objects.Reads (entries.map Prod.snd) (values.map Prod.snd) →
        Objects.Reads id (.dict values)

end Values

section Unfold

variable {n : Nat} {objects : Objects n}

theorem exists_forall₂ {α β : Type} {related : α → β → Prop} {items : List α}
    (each : ∀ item ∈ items, ∃ value, related item value) :
    ∃ values, List.Forall₂ related items values := by
  induction items with
  | nil => exact ⟨[], .nil⟩
  | cons item rest ih =>
      obtain ⟨value, first⟩ := each item List.mem_cons_self
      obtain ⟨values, more⟩ := ih fun other member => each other (List.mem_cons_of_mem _ member)
      exact ⟨value :: values, .cons first more⟩

/-- An acyclic object unfolds into a value. -/
theorem exists_reads {id : Fin n} (acyclic : objects.Acyclic id) :
    ∃ value, objects.Reads id value := by
  induction acyclic with
  | intro id _ ih =>
      cases node : objects id with
      | leaf value => exact ⟨value.1, .leaf node⟩
      | list items =>
          rw [node] at ih
          obtain ⟨values, all⟩ := exists_forall₂ ih
          exact ⟨_, .list node all⟩
      | tuple items =>
          rw [node] at ih
          obtain ⟨values, all⟩ := exists_forall₂ ih
          exact ⟨_, .tuple node all⟩
      | set items =>
          rw [node] at ih
          obtain ⟨values, all⟩ := exists_forall₂ ih
          exact ⟨_, .set node all⟩
      | dict entries =>
          rw [node] at ih
          have each : ∀ entry ∈ entries, ∃ value : Value × Value,
              objects.Reads entry.1 value.1 ∧ objects.Reads entry.2 value.2 := by
            intro entry member
            obtain ⟨key, readKey⟩ :=
              ih entry.1 (List.mem_append_left _ (List.mem_map_of_mem member))
            obtain ⟨value, readValue⟩ :=
              ih entry.2 (List.mem_append_right _ (List.mem_map_of_mem member))
            exact ⟨(key, value), readKey, readValue⟩
          obtain ⟨values, all⟩ := exists_forall₂ each
          obtain ⟨keys, items⟩ := forall₂_entries_iff.mp all
          exact ⟨_, .dict node keys items⟩

theorem forall₂_reads_unique {items : List (Fin n)} {values others : List Value}
    (unique : ∀ value ∈ values, ∀ id other, objects.Reads id value → objects.Reads id other →
      value = other)
    (first : List.Forall₂ objects.Reads items values)
    (second : List.Forall₂ objects.Reads items others) : values = others := by
  induction first generalizing others with
  | nil =>
      cases second
      rfl
  | cons head rest ih =>
      cases second with
      | cons next later =>
          rw [unique _ List.mem_cons_self _ _ head next,
            ih (fun value member => unique value (List.mem_cons_of_mem _ member)) later]

/-- The value is determined. -/
theorem Objects.Reads.unique {id : Fin n} {value other : Value} (first : objects.Reads id value)
    (second : objects.Reads id other) : value = other := by
  induction value using induction_on_members generalizing id other with
  | step value ih =>
      have each : ∀ member ∈ value.members, ∀ id other, objects.Reads id member →
          objects.Reads id other → member = other :=
        fun member inside id other => ih member inside
      cases first with
      | leaf node =>
          cases second with
          | leaf node' =>
              rw [node] at node'
              cases node'
              rfl
          | list node' | tuple node' | set node' | dict node' =>
              rw [node] at node'
              cases node'
      | list node items =>
          cases second with
          | list node' items' =>
              rw [node] at node'
              cases node'
              exact congrArg Value.list (forall₂_reads_unique each items items')
          | leaf node' | tuple node' | set node' | dict node' =>
              rw [node] at node'
              cases node'
      | tuple node items =>
          cases second with
          | tuple node' items' =>
              rw [node] at node'
              cases node'
              exact congrArg Value.tuple (forall₂_reads_unique each items items')
          | leaf node' | list node' | set node' | dict node' =>
              rw [node] at node'
              cases node'
      | set node items =>
          cases second with
          | set node' items' =>
              rw [node] at node'
              cases node'
              exact congrArg Value.set (forall₂_reads_unique each items items')
          | leaf node' | list node' | tuple node' | dict node' =>
              rw [node] at node'
              cases node'
      | dict node keys items =>
          cases second with
          | dict node' keys' items' =>
              rw [node] at node'
              cases node'
              have firsts := forall₂_reads_unique
                (fun member inside => each member (List.mem_append_left _ inside)) keys keys'
              have seconds := forall₂_reads_unique
                (fun member inside => each member (List.mem_append_right _ inside)) items items'
              exact congrArg Value.dict
                ((List.zip_of_prod firsts seconds).trans (List.zip_of_prod rfl rfl).symm)
          | leaf node' | list node' | tuple node' | set node' =>
              rw [node] at node'
              cases node'

end Unfold

/-! ## The pairs that were met -/

section Met

variable {n : Nat} (objects : Objects n)

/-- The objects unfold into the same value. -/
def EqualPair (pair : Fin n × Fin n) : Prop :=
  ∃ value other, objects.Reads pair.1 value ∧ objects.Reads pair.2 other ∧
    strictEqual value other = true

/-- Every pair that was met is equal, or is still under comparison and not smaller than this. -/
def Good (size : Nat) (seen : Seen n) : Prop :=
  ∀ pair ∈ seen, EqualPair objects pair ∨
    ∃ value, objects.Reads pair.1 value ∧ size ≤ sizeOf value

/-- Only equal pairs are new. -/
def AddsEqual (seen after : Seen n) : Prop :=
  ∀ pair ∈ after, pair ∈ seen ∨ EqualPair objects pair

/-- The comparison is that of the values, below a size. -/
def Correct (equal : Fin n → Fin n → Seen n → Option (Bool × Seen n)) (size : Nat) : Prop :=
  ∀ a b value other seen same after, objects.Reads a value → objects.Reads b other →
    other.FewNans 1 → sizeOf value < size → Good objects size seen →
      equal a b seen = some (same, after) →
        same = strictEqual value other ∧ (same = true → AddsEqual objects seen after)

/-- A leaf is compared without a note. -/
def ComparesLeaves (equal : Fin n → Fin n → Seen n → Option (Bool × Seen n)) : Prop :=
  ∀ a b value other seen same after, objects.Reads a value → objects.Reads b other →
    value.isLeaf = true ∨ other.isLeaf = true → equal a b seen = some (same, after) →
      same = strictEqual value other ∧ after = seen

variable {objects}

theorem AddsEqual.refl (seen : Seen n) : AddsEqual objects seen seen :=
  fun _ => .inl

theorem AddsEqual.trans {first second third : Seen n} (more : AddsEqual objects first second)
    (further : AddsEqual objects second third) : AddsEqual objects first third := by
  intro pair member
  obtain before | equal := further pair member
  · exact more pair before
  · exact .inr equal

theorem Good.adds {size : Nat} {seen after : Seen n} (good : Good objects size seen)
    (adds : AddsEqual objects seen after) : Good objects size after := by
  intro pair member
  obtain before | equal := adds pair member
  · exact good pair before
  · exact .inl equal

theorem allEqual_correct {equal : Fin n → Fin n → Seen n → Option (Bool × Seen n)} {size : Nat}
    (correct : Correct objects equal size) {xs ys : List (Fin n)} {values others : List Value}
    (left : List.Forall₂ objects.Reads xs values) (right : List.Forall₂ objects.Reads ys others)
    (length : xs.length = ys.length) (few : ∀ other ∈ others, other.FewNans 1)
    (small : ∀ value ∈ values, sizeOf value < size) {seen after : Seen n} {same : Bool}
    (good : Good objects size seen)
    (looped : allEqual equal (xs.zip ys) seen = some (same, after)) :
    same = strictEqualAll values others ∧ (same = true → AddsEqual objects seen after) := by
  induction left generalizing ys others seen with
  | nil =>
      cases right with
      | nil =>
          cases looped
          exact ⟨rfl, fun _ => .refl _⟩
      | cons _ _ => cases length
  | cons first rest ih =>
      cases right with
      | nil => cases length
      | cons second later =>
          rw [List.zip_cons_cons, allEqual] at looped
          obtain ⟨⟨answer, middle⟩, answered, continued⟩ := Option.bind_eq_some_iff.mp looped
          obtain ⟨isEqual, adds⟩ := correct _ _ _ _ _ _ _ first second
            (few _ List.mem_cons_self) (small _ List.mem_cons_self) good answered
          rw [strictEqualAll, ← isEqual]
          cases answer with
          | false =>
              cases continued
              exact ⟨rfl, fun impossible => absurd impossible Bool.false_ne_true⟩
          | true =>
              obtain ⟨allLater, more⟩ := ih later (Nat.succ.inj length)
                (fun other member => few other (List.mem_cons_of_mem _ member))
                (fun value member => small value (List.mem_cons_of_mem _ member))
                (good.adds (adds rfl)) continued
              exact ⟨allLater, fun all => (adds rfl).trans (more all)⟩

/-- Two lists are compared, or two tuples. -/
theorem sequences_correct {equal : Fin n → Fin n → Seen n → Option (Bool × Seen n)} {size : Nat}
    (correct : Correct objects equal size) {xs ys : List (Fin n)} {values others : List Value}
    (left : List.Forall₂ objects.Reads xs values) (right : List.Forall₂ objects.Reads ys others)
    (few : ∀ other ∈ others, other.FewNans 1) (small : ∀ value ∈ values, sizeOf value < size)
    {seen after : Seen n} {same : Bool} (good : Good objects size seen)
    (compared : (if xs.length ≠ ys.length then some (false, seen)
      else allEqual equal (xs.zip ys) seen) = some (same, after)) :
    same = strictEqualAll values others ∧ (same = true → AddsEqual objects seen after) := by
  split at compared
  · rename_i length
    cases compared
    refine ⟨?_, fun impossible => absurd impossible Bool.false_ne_true⟩
    by_contra equal
    rw [eq_comm, Bool.not_eq_false, strictEqualAll_iff] at equal
    rw [left.length_eq, right.length_eq] at length
    exact length equal.length_eq
  · rename_i length
    exact allEqual_correct correct left right (not_not.mp length) few small good compared

theorem isLeaf_of_same {value other : Value} (same : Same value other) :
    value.isLeaf = other.isLeaf := by
  cases same <;> rfl

/-- A leaf is no container. -/
theorem strictEqual_of_leaf {value other : Value} (differ : value.isLeaf ≠ other.isLeaf) :
    strictEqual value other = false := by
  by_contra equal
  rw [Bool.not_eq_false, strictEqual_iff] at equal
  exact differ (isLeaf_of_same equal)

/-- An entry unfolds, and its key is a leaf. -/
structure ReadsEntry (objects : Objects n) (entry : Fin n × Option (Fin n))
    (value : Value × Option Value) : Prop where
  key : objects.Reads entry.1 value.1
  leaf : value.1.isLeaf = true
  value : Option.Rel objects.Reads entry.2 value.2

/-- The values of two entries are equal, or absent in both. -/
def equalOptions : Option Value → Option Value → Bool
  | some value, some other => strictEqual value other
  | none, none => true
  | _, _ => false

/-- There is no container. -/
def plain : Option Value → Bool
  | some value => value.isLeaf
  | none => true

/-- Two entries fit. -/
def entryFits (entry other : Value × Option Value) : Bool :=
  strictEqual entry.1 other.1 && equalOptions entry.2 other.2

section Entries

variable {equal : Fin n → Fin n → Seen n → Option (Bool × Seen n)} {size : Nat}

theorem equalValues_correct (correct : Correct objects equal size) {a b : Option (Fin n)}
    {value other : Option Value} (left : Option.Rel objects.Reads a value)
    (right : Option.Rel objects.Reads b other) (few : ∀ v ∈ other, v.FewNans 1)
    (small : ∀ v ∈ value, sizeOf v < size) {seen after : Seen n} {same : Bool}
    (good : Good objects size seen)
    (answered : equalValues equal a b seen = some (same, after)) :
    same = equalOptions value other ∧ (same = true → AddsEqual objects seen after) := by
  cases left with
  | none =>
      cases right with
      | none =>
          cases answered
          exact ⟨rfl, fun _ => .refl _⟩
      | some second =>
          cases answered
          exact ⟨rfl, fun _ => .refl _⟩
  | some first =>
      cases right with
      | none =>
          cases answered
          exact ⟨rfl, fun _ => .refl _⟩
      | some second =>
          exact correct _ _ _ _ _ _ _ first second (few _ rfl) (small _ rfl) good answered

/-- A value that is no container is compared without a note. -/
theorem equalValues_of_plain (leaves : ComparesLeaves objects equal) {a b : Option (Fin n)}
    {value other : Option Value} (left : Option.Rel objects.Reads a value)
    (right : Option.Rel objects.Reads b other) (leaf : plain value = true ∨ plain other = true)
    {seen after : Seen n} {same : Bool}
    (answered : equalValues equal a b seen = some (same, after)) :
    same = equalOptions value other ∧ after = seen := by
  cases left with
  | none =>
      cases right with
      | none | some =>
          cases answered
          exact ⟨rfl, rfl⟩
  | some first =>
      cases right with
      | none =>
          cases answered
          exact ⟨rfl, rfl⟩
      | some second => exact leaves _ _ _ _ _ _ _ first second leaf answered

/-- A container is equal to no leaf. -/
theorem equalOptions_of_plain {value other : Option Value} (container : plain value = false)
    (leaf : plain other = true) : equalOptions value other = false := by
  cases value with
  | none => cases container
  | some value =>
      cases other with
      | none => rfl
      | some other =>
          apply strictEqual_of_leaf
          rw [show value.isLeaf = false from container, show other.isLeaf = true from leaf]
          exact Bool.false_ne_true

/-- The first entry is compared, and the search goes on unless it fits. -/
theorem findMatch_cons (leaves : ComparesLeaves objects equal) {lkey rkey : Fin n}
    {lvalue rvalue : Option (Fin n)} {entry value : Value × Option Value}
    (left : ReadsEntry objects (lkey, lvalue) entry)
    (right : ReadsEntry objects (rkey, rvalue) value) {rest : List (Fin n × Option (Fin n))}
    {seen after : Seen n} {found : Option (List (Fin n × Option (Fin n)))}
    (searched : findMatch equal lkey lvalue ((rkey, rvalue) :: rest) seen = some (found, after)) :
    ∃ same middle, ((strictEqual entry.1 value.1 = true ∧
          equalValues equal lvalue rvalue seen = some (same, middle)) ∨
        (strictEqual entry.1 value.1 = false ∧ same = false ∧ middle = seen)) ∧
      (same = true → found = some rest ∧ after = middle) ∧
      (same = false → ∃ later, findMatch equal lkey lvalue rest middle = some (later, after) ∧
        found = later.map ((rkey, rvalue) :: ·)) := by
  rw [findMatch] at searched
  obtain ⟨⟨keys, middle⟩, answered, continued⟩ := Option.bind_eq_some_iff.mp searched
  obtain ⟨keysEqual, rfl⟩ := leaves _ _ _ _ _ _ _ left.key right.key (.inl left.leaf) answered
  obtain ⟨⟨same, middle⟩, compared, ended⟩ := Option.bind_eq_some_iff.mp continued
  refine ⟨same, middle, ?_, ?_, ?_⟩
  · rw [← keysEqual]
    cases keys with
    | true => exact .inl ⟨rfl, compared⟩
    | false =>
        cases compared
        exact .inr ⟨rfl, rfl, rfl⟩
  · rintro rfl
    cases ended
    exact ⟨rfl, rfl⟩
  · rintro rfl
    obtain ⟨⟨later, last⟩, looped, result⟩ := Option.map_eq_some_iff.mp ended
    cases result
    exact ⟨later, looped, rfl⟩

/-- Where the value is a container, and each entry has another key or no container, none
fits. -/
theorem findMatch_of_unfit (leaves : ComparesLeaves objects equal) {lkey : Fin n}
    {lvalue : Option (Fin n)} {entry : Value × Option Value}
    (left : ReadsEntry objects (lkey, lvalue) entry) (container : plain entry.2 = false)
    {entries : List (Fin n × Option (Fin n))} {values : List (Value × Option Value)}
    (right : List.Forall₂ (ReadsEntry objects) entries values)
    (unfit : ∀ value ∈ values, strictEqual entry.1 value.1 = false ∨ plain value.2 = true)
    {seen after : Seen n} {found : Option (List (Fin n × Option (Fin n)))}
    (searched : findMatch equal lkey lvalue entries seen = some (found, after)) :
    found = none ∧ values.any (entryFits entry) = false := by
  induction right generalizing seen found after with
  | nil =>
      cases searched
      exact ⟨rfl, rfl⟩
  | @cons rentry value entries values first rest ih =>
      obtain ⟨same, middle, compared, -, unmatched⟩ := findMatch_cons leaves left first searched
      have differs : entryFits entry value = false ∧ same = false := by
        obtain ⟨keysEqual, compared⟩ | ⟨keysDiffer, rfl, -⟩ := compared
        · have leaf := (unfit value List.mem_cons_self).resolve_left fun keysDiffer =>
            Bool.false_ne_true (keysDiffer.symm.trans keysEqual)
          obtain ⟨isEqual, -⟩ :=
            equalValues_of_plain leaves left.value first.value (.inr leaf) compared
          have unequal := equalOptions_of_plain container leaf
          exact ⟨by rw [entryFits, unequal, Bool.and_false], isEqual.trans unequal⟩
        · exact ⟨by rw [entryFits, keysDiffer, Bool.false_and], rfl⟩
      obtain ⟨later, looped, rfl⟩ := unmatched differs.2
      obtain ⟨rfl, none⟩ :=
        ih (fun other member => unfit other (List.mem_cons_of_mem _ member)) looped
      exact ⟨rfl, by rw [List.any_cons, differs.1, none]; rfl⟩

/-- Of two entries with the same key one has no container. -/
def Separate (values : List (Value × Option Value)) : Prop :=
  values.Pairwise fun first second => strictEqual first.1 second.1 = true →
    plain first.2 = true ∨ plain second.2 = true

/-- The search finds the first entry that fits, and adds no unequal pair unless it fails. -/
theorem findMatch_correct (correct : Correct objects equal size)
    (leaves : ComparesLeaves objects equal) {lkey : Fin n} {lvalue : Option (Fin n)}
    {entry : Value × Option Value} (left : ReadsEntry objects (lkey, lvalue) entry)
    (small : ∀ v ∈ entry.2, sizeOf v < size) {entries : List (Fin n × Option (Fin n))}
    {values : List (Value × Option Value)}
    (right : List.Forall₂ (ReadsEntry objects) entries values)
    (few : ∀ value ∈ values, ∀ v ∈ value.2, v.FewNans 1) (separate : Separate values)
    {seen after : Seen n} {found : Option (List (Fin n × Option (Fin n)))}
    (good : Good objects size seen)
    (searched : findMatch equal lkey lvalue entries seen = some (found, after)) :
    (found = none ∧ values.any (entryFits entry) = false) ∨
      ∃ remaining, found = some remaining ∧ values.any (entryFits entry) = true ∧
        List.Forall₂ (ReadsEntry objects) remaining (values.eraseP (entryFits entry)) ∧
          AddsEqual objects seen after := by
  induction right generalizing seen found after with
  | nil =>
      cases searched
      exact .inl ⟨rfl, rfl⟩
  | @cons rentry value entries values first rest ih =>
      obtain ⟨apart, separate⟩ := List.pairwise_cons.mp separate
      have fewLater := fun other member => few other (List.mem_cons_of_mem value member)
      obtain ⟨same, middle, compared, matched, unmatched⟩ :=
        findMatch_cons leaves left first searched
      -- The search goes on with the pairs that were met before.
      have goOn : entryFits entry value = false → same = false → middle = seen →
          (found = none ∧ (value :: values).any (entryFits entry) = false) ∨
            ∃ remaining, found = some remaining ∧
              (value :: values).any (entryFits entry) = true ∧
              List.Forall₂ (ReadsEntry objects) remaining
                ((value :: values).eraseP (entryFits entry)) ∧ AddsEqual objects seen after := by
        rintro unfit rfl rfl
        obtain ⟨later, looped, rfl⟩ := unmatched rfl
        rw [List.any_cons, unfit, Bool.false_or, List.eraseP_cons_of_neg (by rw [unfit]; decide)]
        obtain ⟨rfl, none⟩ | ⟨remaining, rfl, fitting, reads, adds⟩ :=
          ih fewLater separate good looped
        · exact .inl ⟨rfl, none⟩
        · exact .inr ⟨_, rfl, fitting, .cons first reads, adds⟩
      obtain ⟨keysEqual, compared⟩ | ⟨keysDiffer, unmatchedSame, unchanged⟩ := compared
      · obtain ⟨valuesEqual, adds⟩ := equalValues_correct correct left.value first.value
          (few value List.mem_cons_self) small good compared
        have fits : entryFits entry value = same := by
          rw [entryFits, keysEqual, Bool.true_and, ← valuesEqual]
        cases same with
        | true =>
            obtain ⟨rfl, rfl⟩ := matched rfl
            refine .inr ⟨_, rfl, ?_, ?_, adds rfl⟩
            · rw [List.any_cons, fits, Bool.true_or]
            · rw [List.eraseP_cons_of_pos fits]
              exact rest
        | false =>
            by_cases leaf : plain entry.2 = true ∨ plain value.2 = true
            · exact goOn fits rfl
                (equalValues_of_plain leaves left.value first.value leaf compared).2
            · -- Two containers were met that differ: no later entry has such a key and one.
              rw [not_or, Bool.not_eq_true, Bool.not_eq_true] at leaf
              have unfit : ∀ other ∈ values,
                  strictEqual entry.1 other.1 = false ∨ plain other.2 = true := by
                intro other member
                rw [or_iff_not_imp_left, Bool.not_eq_false]
                intro equalToo
                have shared := (strictEqual_iff.mp keysEqual).symm.trans
                  (strictEqual_iff.mp equalToo)
                exact (apart other member (strictEqual_iff.mpr shared)).resolve_left
                  (Bool.eq_false_iff.mp leaf.2)
              obtain ⟨later, looped, rfl⟩ := unmatched rfl
              obtain ⟨rfl, none⟩ := findMatch_of_unfit leaves left leaf.1 rest unfit looped
              exact .inl ⟨rfl, by rw [List.any_cons, fits, none]; rfl⟩
      · exact goOn (by rw [entryFits, keysDiffer, Bool.false_and]) unmatchedSame unchanged

/-- The pairing is that of the values. -/
theorem matchLoop_correct (correct : Correct objects equal size)
    (leaves : ComparesLeaves objects equal) {lefts rights : List (Fin n × Option (Fin n))}
    {values others : List (Value × Option Value)}
    (left : List.Forall₂ (ReadsEntry objects) lefts values)
    (right : List.Forall₂ (ReadsEntry objects) rights others)
    (few : ∀ other ∈ others, ∀ v ∈ other.2, v.FewNans 1)
    (small : ∀ value ∈ values, ∀ v ∈ value.2, sizeOf v < size) (separate : Separate others)
    {seen after : Seen n} {same : Bool} (good : Good objects size seen)
    (looped : matchLoop equal lefts rights seen = some (same, after)) :
    same = Select.pairsUp entryFits values others ∧
      (same = true → AddsEqual objects seen after) := by
  induction left generalizing rights others seen with
  | nil =>
      cases looped
      refine ⟨?_, fun _ => .refl _⟩
      cases right with
      | nil => rfl
      | cons _ _ => rfl
  | @cons entry value lefts values first rest ih =>
      obtain ⟨lkey, lvalue⟩ := entry
      rw [matchLoop] at looped
      obtain ⟨⟨found, middle⟩, searched, continued⟩ := Option.bind_eq_some_iff.mp looped
      rw [Select.pairsUp]
      obtain ⟨rfl, none⟩ | ⟨remaining, rfl, fitting, reads, adds⟩ :=
        findMatch_correct correct leaves first (small _ List.mem_cons_self) right few separate
          good searched
      · cases continued
        rw [none]
        exact ⟨rfl, fun impossible => absurd impossible Bool.false_ne_true⟩
      · have apart : Separate (others.eraseP (entryFits value)) :=
          separate.sublist List.eraseP_sublist
        obtain ⟨isEqual, more⟩ := ih reads
          (fun other member => few other (List.mem_of_mem_eraseP member))
          (fun other member => small other (List.mem_cons_of_mem _ member)) apart
          (good.adds adds) continued
        rw [fitting, Bool.true_and]
        exact ⟨isEqual, fun all => adds.trans (more all)⟩

theorem matchUnordered_correct (correct : Correct objects equal size)
    (leaves : ComparesLeaves objects equal) {lefts rights : List (Fin n × Option (Fin n))}
    {values others : List (Value × Option Value)}
    (left : List.Forall₂ (ReadsEntry objects) lefts values)
    (right : List.Forall₂ (ReadsEntry objects) rights others)
    (few : ∀ other ∈ others, ∀ v ∈ other.2, v.FewNans 1)
    (small : ∀ value ∈ values, ∀ v ∈ value.2, sizeOf v < size) (separate : Separate others)
    {seen after : Seen n} {same : Bool} (good : Good objects size seen)
    (matched : matchUnordered equal lefts rights seen = some (same, after)) :
    same = Select.pairsUp entryFits values others ∧
      (same = true → AddsEqual objects seen after) := by
  unfold matchUnordered at matched
  split at matched
  · rename_i length
    cases matched
    refine ⟨?_, fun impossible => absurd impossible Bool.false_ne_true⟩
    by_contra paired
    have lengths := Select.length_eq_of_pairsUp (Bool.eq_true_of_not_eq_false (Ne.symm paired))
    rw [← left.length_eq, ← right.length_eq] at lengths
    exact length lengths
  · exact matchLoop_correct correct leaves left right few small separate good matched

end Entries

end Met

/-! ## The comparison of objects is that of their values -/

section Exact

variable {n : Nat} {objects : Objects n}

theorem Good.mono {size smaller : Nat} {seen : Seen n} (good : Good objects size seen)
    (le : smaller ≤ size) : Good objects smaller seen := by
  intro pair member
  obtain equal | ⟨value, reads, large⟩ := good pair member
  · exact .inl equal
  · exact .inr ⟨value, reads, Nat.le_trans le large⟩

theorem reads_leaf {id : Fin n} {key : { value : Value // value.isLeaf = true }} {value : Value}
    (node : objects id = .leaf key) (reads : objects.Reads id value) : key.1 = value :=
  Objects.Reads.unique (.leaf node) reads

theorem readsEntry_withNone {items : List (Fin n)} {values : List Value}
    (leaves : ∀ item ∈ items, ∃ key, objects item = .leaf key)
    (reads : List.Forall₂ objects.Reads items values) :
    List.Forall₂ (ReadsEntry objects) (withNone items)
      (values.map fun value => (value, none)) := by
  induction reads with
  | nil => exact .nil
  | @cons item value items values first rest ih =>
      obtain ⟨key, node⟩ := leaves item List.mem_cons_self
      exact .cons ⟨first, reads_leaf node first ▸ key.2, .none⟩
        (ih fun other member => leaves other (List.mem_cons_of_mem _ member))

theorem readsEntry_withValue {entries : List (Fin n × Fin n)} {values : List (Value × Value)}
    (leaves : ∀ key ∈ entries.map Prod.fst, ∃ value, objects key = .leaf value)
    (reads : List.Forall₂ (fun entry value =>
      objects.Reads entry.1 value.1 ∧ objects.Reads entry.2 value.2) entries values) :
    List.Forall₂ (ReadsEntry objects) (withValue entries)
      (values.map fun value => (value.1, some value.2)) := by
  induction reads with
  | nil => exact .nil
  | @cons entry value entries values first rest ih =>
      obtain ⟨key, node⟩ := leaves entry.1 List.mem_cons_self
      exact .cons ⟨first.1, reads_leaf node first.1 ▸ key.2, .some first.2⟩
        (ih fun other member => leaves other (List.mem_cons_of_mem _ member))

theorem exists_of_forall₂ {α β : Type} {related : α → β → Prop} {items : List α}
    {values : List β} (paired : List.Forall₂ related items values) {value : β}
    (member : value ∈ values) : ∃ item ∈ items, related item value := by
  induction paired with
  | nil => cases member
  | cons first rest ih =>
      obtain rfl | later := List.mem_cons.mp member
      · exact ⟨_, List.mem_cons_self, first⟩
      · obtain ⟨item, inRest, found⟩ := ih later
        exact ⟨item, List.mem_cons_of_mem _ inRest, found⟩

/-- Two keys of a mapping are equal only if both are NaN. -/
theorem nan_of_equal_values {keys : List (Fin n)} {values : List Value}
    (leaves : ∀ key ∈ keys, ∃ value, objects key = .leaf value)
    (distinct : keys.Pairwise fun first second => first ≠ second ∧ ∀ value other,
      objects first = .leaf value → objects second = .leaf other →
        strictEqual value.1 other.1 = true → value.1.isNan = true)
    (reads : List.Forall₂ objects.Reads keys values) :
    values.Pairwise fun first second =>
      strictEqual first second = true → first.isNan = true := by
  induction reads with
  | nil => exact .nil
  | @cons key value keys values first rest ih =>
      obtain ⟨unlike, distinct⟩ := List.pairwise_cons.mp distinct
      obtain ⟨leaf, node⟩ := leaves key List.mem_cons_self
      refine List.pairwise_cons.mpr ⟨?_, ih (fun other member =>
        leaves other (List.mem_cons_of_mem _ member)) distinct⟩
      intro other member
      obtain ⟨otherKey, inKeys, reads⟩ := exists_of_forall₂ rest member
      obtain ⟨otherLeaf, otherNode⟩ := leaves otherKey (List.mem_cons_of_mem _ inKeys)
      rw [← reads_leaf node first, ← reads_leaf otherNode reads]
      exact (unlike otherKey inKeys).2 leaf otherLeaf node otherNode

/-- What equals a NaN is a NaN. -/
theorem isNan_of_same {value other : Value} (same : Same value other)
    (nan : value.isNan = true) : other.isNan = true := by
  cases same with
  | float equal =>
      unfold sameFloat at equal
      simp only [Bool.or_eq_true, Bool.and_eq_true, decide_eq_true_eq] at equal
      obtain (rfl | zeros) | nans := equal
      · exact nan
      · cases (not_nan_of_zero zeros.1).symm.trans nan
      · exact nans.2
  | _ => exact nan

/-- At most one item of a list has the property. -/
theorem pairwise_of_filter_le_one {α : Type} {marked : α → Bool} {items : List α}
    (few : (items.filter marked).length ≤ 1) :
    items.Pairwise fun first second => marked first = true → marked second = false := by
  induction items with
  | nil => exact .nil
  | cons item rest ih =>
      cases first : marked item with
      | false =>
          rw [List.filter_cons_of_neg (Bool.eq_false_iff.mp first)] at few
          refine List.pairwise_cons.mpr ⟨?_, ih few⟩
          intro other _ impossible
          cases first.symm.trans impossible
      | true =>
          rw [List.filter_cons_of_pos first, List.length_cons] at few
          have none : rest.filter marked = [] := List.length_eq_zero_iff.mp (by omega)
          refine List.pairwise_cons.mpr ⟨?_, ih (by rw [none]; exact Nat.zero_le _)⟩
          intro other member _
          exact Bool.eq_false_iff.mpr (List.filter_eq_nil_iff.mp none other member)

/-- Among the entries of a mapping with at most one container behind a key that is not a
number, of two with the same key one has no container. -/
theorem separate_entries {values : List (Value × Value)}
    (nans : (values.map Prod.fst).Pairwise fun first second =>
      strictEqual first second = true → first.isNan = true)
    (few : (Value.dict values).nanEntries.length ≤ 1) :
    Separate (values.map fun value => (value.1, some value.2)) := by
  have bothNan := List.pairwise_map.mp nans
  refine List.pairwise_map.mpr ((bothNan.and (pairwise_of_filter_le_one few)).imp ?_)
  rintro first second ⟨nan, apart⟩ equal
  have firstNan := nan equal
  have secondNan := isNan_of_same (strictEqual_iff.mp equal) firstNan
  rw [firstNan, secondNan, Bool.true_and, Bool.true_and] at apart
  rw [or_iff_not_imp_left]
  intro container
  have differ := apart (Bool.not_eq_eq_eq_not.mpr (Bool.eq_false_iff.mpr container))
  exact Bool.not_eq_eq_eq_not.mp differ

theorem pairsUp_withNone (values others : List Value) :
    Select.pairsUp entryFits (values.map fun value => (value, none))
      (others.map fun value => (value, none)) = matchItems values others := by
  have fits : (fun value other : Value => entryFits (value, none) (other, none)) =
      strictEqual := by
    funext value other
    exact Bool.and_true _
  rw [Select.pairsUp_map, fits, matchItems_eq]

theorem pairsUp_withValue (values others : List (Value × Value)) :
    Select.pairsUp entryFits (values.map fun value => (value.1, some value.2))
      (others.map fun value => (value.1, some value.2)) = matchEntries values others := by
  rw [Select.pairsUp_map, matchEntries_eq]
  rfl

theorem strictEqualAt_leaves (depth : Nat) :
    ComparesLeaves objects (strictEqualAt objects depth) := by
  intro a b value other seen same after first second leaf answered
  cases depth with
  | zero => cases answered
  | succ depth =>
      have nothing : strictEqual value other = false →
          some (false, seen) = some (same, after) → same = strictEqual value other ∧
            after = seen := by
        rintro differ ⟨⟩
        exact ⟨differ.symm, rfl⟩
      cases first with
      | @leaf _ key node =>
          cases second with
          | leaf node' =>
              rw [strictEqualAt, node, node'] at answered
              cases answered
              exact ⟨rfl, rfl⟩
          | list node' | tuple node' | set node' | dict node' =>
              rw [strictEqualAt, node, node'] at answered
              have differ := fun same => Bool.false_ne_true (Eq.trans (Eq.symm same) key.2)
              exact nothing (strictEqual_of_leaf differ) answered
      | list node | tuple node | set node | dict node =>
          cases second with
          | @leaf _ key node' =>
              rw [strictEqualAt, node, node'] at answered
              have differ := fun same => Bool.false_ne_true (Eq.trans same key.2)
              exact nothing (strictEqual_of_leaf differ) answered
          | list | tuple | set | dict =>
              rcases leaf with impossible | impossible <;> cases impossible

/-- A pair is entered unless it is known to be equal. -/
theorem visit_correct {left right : Fin n} {value other : Value}
    (first : objects.Reads left value) (second : objects.Reads right other) {seen after : Seen n}
    {same : Bool} (good : Good objects (sizeOf value + 1) seen)
    {enter : Seen n → Option (Bool × Seen n)}
    (entered : ∀ same after, Good objects (sizeOf value) ((left, right) :: seen) →
      enter ((left, right) :: seen) = some (same, after) → same = strictEqual value other ∧
        (same = true → AddsEqual objects ((left, right) :: seen) after))
    (visited : visit (left, right) seen enter = some (same, after)) :
    same = strictEqual value other ∧ (same = true → AddsEqual objects seen after) := by
  unfold visit at visited
  split at visited
  · rename_i met
    cases visited
    refine ⟨?_, fun _ => .refl _⟩
    obtain ⟨v, w, reads, readsToo, equal⟩ | ⟨v, reads, large⟩ := good _ met
    · rw [first.unique reads, second.unique readsToo, equal]
    · rw [first.unique reads] at large
      exact absurd large (Nat.not_succ_le_self _)
  · have begun : Good objects (sizeOf value) ((left, right) :: seen) := by
      intro pair member
      obtain rfl | before := List.mem_cons.mp member
      · exact .inr ⟨value, first, Nat.le_refl _⟩
      · exact good.mono (Nat.le_succ _) pair before
    obtain ⟨isEqual, adds⟩ := entered same after begun visited
    refine ⟨isEqual, fun all pair member => ?_⟩
    obtain before | equal := adds all pair member
    · obtain rfl | earlier := List.mem_cons.mp before
      · exact .inr ⟨value, other, first, second, isEqual.symm.trans all⟩
      · exact .inl earlier
    · exact .inr equal

/-- Two sets are compared as their members are. -/
theorem members_correct {equal : Fin n → Fin n → Seen n → Option (Bool × Seen n)} {size : Nat}
    (correct : Correct objects equal size) (compares : ComparesLeaves objects equal)
    {items others : List (Fin n)} {values otherValues : List Value}
    (leaves : ∀ item ∈ items, ∃ key, objects item = .leaf key)
    (otherLeaves : ∀ item ∈ others, ∃ key, objects item = .leaf key)
    (reads : List.Forall₂ objects.Reads items values)
    (otherReads : List.Forall₂ objects.Reads others otherValues) {seen after : Seen n}
    {same : Bool} (good : Good objects size seen)
    (matched : matchUnordered equal (withNone items) (withNone others) seen = some (same, after)) :
    same = matchItems values otherValues ∧ (same = true → AddsEqual objects seen after) := by
  have separate : Separate (otherValues.map fun value => (value, none)) :=
    List.pairwise_map.mpr (List.pairwise_of_forall fun _ _ _ => .inl rfl)
  have valueless : ∀ {values : List Value} {motive : Value → Prop},
      ∀ entry ∈ values.map fun value => (value, (none : Option Value)),
        ∀ v ∈ entry.2, motive v := by
    intro values motive entry member v present
    obtain ⟨value, -, rfl⟩ := List.mem_map.mp member
    cases present
  rw [← pairsUp_withNone]
  exact matchUnordered_correct correct compares (readsEntry_withNone leaves reads)
    (readsEntry_withNone otherLeaves otherReads) valueless valueless separate good matched

/-- Two mappings are compared as their entries are, if the second has few NaN keys. -/
theorem entries_correct {equal : Fin n → Fin n → Seen n → Option (Bool × Seen n)} {size : Nat}
    (correct : Correct objects equal size) (compares : ComparesLeaves objects equal)
    {entries others : List (Fin n × Fin n)} {values otherValues : List (Value × Value)}
    (leaves : ∀ key ∈ entries.map Prod.fst, ∃ value, objects key = .leaf value)
    (otherLeaves : ∀ key ∈ others.map Prod.fst, ∃ value, objects key = .leaf value)
    (reads : List.Forall₂ (fun entry value =>
      objects.Reads entry.1 value.1 ∧ objects.Reads entry.2 value.2) entries values)
    (otherReads : List.Forall₂ (fun entry value =>
      objects.Reads entry.1 value.1 ∧ objects.Reads entry.2 value.2) others otherValues)
    (nans : (otherValues.map Prod.fst).Pairwise fun first second =>
      strictEqual first second = true → first.isNan = true)
    (few : (Value.dict otherValues).nanEntries.length ≤ 1)
    (fewBelow : ∀ other ∈ otherValues, other.2.FewNans 1)
    (small : ∀ value ∈ values, sizeOf value.2 < size) {seen after : Seen n} {same : Bool}
    (good : Good objects size seen)
    (matched : matchUnordered equal (withValue entries) (withValue others) seen =
      some (same, after)) :
    same = matchEntries values otherValues ∧ (same = true → AddsEqual objects seen after) := by
  rw [← pairsUp_withValue]
  refine matchUnordered_correct correct compares (readsEntry_withValue leaves reads)
    (readsEntry_withValue otherLeaves otherReads) ?_ ?_ (separate_entries nans few) good matched
  · intro entry member v present
    obtain ⟨value, inValues, rfl⟩ := List.mem_map.mp member
    cases present
    exact fewBelow value inValues
  · intro entry member v present
    obtain ⟨value, inValues, rfl⟩ := List.mem_map.mp member
    cases present
    exact small value inValues

theorem strictEqualAt_correct (loaded : objects.Loaded) (depth size : Nat) :
    Correct objects (strictEqualAt objects depth) size := by
  induction depth generalizing size with
  | zero =>
      intro a b value other seen same after _ _ _ _ _ answered
      cases answered
  | succ depth ih =>
      intro a b value other seen same after first second fewNans small good answered
      by_cases leaf : value.isLeaf = true ∨ other.isLeaf = true
      · obtain ⟨isEqual, rfl⟩ := strictEqualAt_leaves _ _ _ _ _ _ _ _ first second leaf answered
        exact ⟨isEqual, fun _ => .refl _⟩
      have begun : Good objects (sizeOf value + 1) seen := good.mono small
      obtain ⟨fewHere, few⟩ := fewNans
      have left := first
      have right := second
      have nothing : ∀ {answer : Bool}, answer = false →
          some (false, seen) = some (same, after) → same = answer ∧
            (same = true → AddsEqual objects seen after) := by
        rintro answer rfl ⟨⟩
        exact ⟨rfl, fun _ => .refl _⟩
      cases first with
      | @leaf _ key node => exact absurd (.inl key.2) leaf
      | @list _ items values node reads =>
          cases second with
          | @leaf _ key node' => exact absurd (.inr key.2) leaf
          | @list _ items' values' node' reads' =>
              rw [strictEqualAt, node, node'] at answered
              apply visit_correct left right begun ?_ answered
              intro same after inside entered
              have smaller : ∀ member ∈ values, sizeOf member < sizeOf (Value.list values) :=
                fun _ inValues => sizeOf_members inValues
              rw [strictEqual]
              exact sequences_correct (ih _) reads reads' few smaller inside entered
          | tuple node' | set node' | dict node' =>
              rw [strictEqualAt, node, node'] at answered
              exact nothing rfl answered
      | @tuple _ items values node reads =>
          cases second with
          | @leaf _ key node' => exact absurd (.inr key.2) leaf
          | @tuple _ items' values' node' reads' =>
              rw [strictEqualAt, node, node'] at answered
              apply visit_correct left right begun ?_ answered
              intro same after inside entered
              have smaller : ∀ member ∈ values, sizeOf member < sizeOf (Value.tuple values) :=
                fun _ inValues => sizeOf_members inValues
              rw [strictEqual]
              exact sequences_correct (ih _) reads reads' few smaller inside entered
          | list node' | set node' | dict node' =>
              rw [strictEqualAt, node, node'] at answered
              exact nothing rfl answered
      | @set _ items values node reads =>
          cases second with
          | @leaf _ key node' => exact absurd (.inr key.2) leaf
          | @set _ items' values' node' reads' =>
              rw [strictEqualAt, node, node'] at answered
              apply visit_correct left right begun ?_ answered
              intro same after inside entered
              have leaves := loaded.leaves a
              have leaves' := loaded.leaves b
              rw [node] at leaves
              rw [node'] at leaves'
              rw [strictEqual]
              exact members_correct (ih _) (strictEqualAt_leaves depth) leaves leaves' reads reads'
                inside entered
          | list node' | tuple node' | dict node' =>
              rw [strictEqualAt, node, node'] at answered
              exact nothing rfl answered
      | @dict _ entries values node keys reads =>
          cases second with
          | @leaf _ key node' => exact absurd (.inr key.2) leaf
          | @dict _ entries' values' node' keys' reads' =>
              rw [strictEqualAt, node, node'] at answered
              apply visit_correct left right begun ?_ answered
              intro same after inside entered
              have leaves := loaded.leaves a
              have leaves' := loaded.leaves b
              have distinct := loaded.distinct b
              rw [node] at leaves
              rw [node'] at leaves' distinct
              rw [strictEqual]
              refine entries_correct (ih _) (strictEqualAt_leaves depth) leaves leaves'
                (forall₂_entries_iff.mpr ⟨keys, reads⟩) (forall₂_entries_iff.mpr ⟨keys', reads'⟩)
                (nan_of_equal_values leaves' distinct keys') fewHere ?_ ?_ inside entered
              · intro other member
                exact few _ (List.mem_append_right _ (List.mem_map_of_mem member))
              · intro value member
                exact sizeOf_members (List.mem_append_right _ (List.mem_map_of_mem member))
          | list node' | tuple node' | set node' =>
              rw [strictEqualAt, node, node'] at answered
              exact nothing rfl answered

/-- On objects that unfold into values, of which the second has no mapping with two containers
behind NaN keys, the comparison is that of the values. -/
theorem strictEqualObjects_iff (loaded : objects.Loaded) {left right : Fin n}
    {value other : Value} (first : objects.Reads left value) (second : objects.Reads right other)
    (few : other.FewNans 1) :
    strictEqualObjects objects left right = true ↔ Same value other := by
  have enough : (unmet ([] : Seen n)).card < n * n + 1 := by
    rw [card_unmet_nil]
    exact Nat.lt_succ_self _
  obtain ⟨same, after, answered, -⟩ := @strictEqualAt_answers n objects _ left right [] enough
  have empty : Good objects (sizeOf value + 1) [] := fun pair member => by cases member
  obtain ⟨isEqual, -⟩ := strictEqualAt_correct loaded _ _ _ _ _ _ _ _ _ first second few
    (Nat.lt_succ_self _) empty answered
  rw [strictEqualObjects, answered, ← strictEqual_iff, ← isEqual]
  rfl

/-- Two values that were read from objects. -/
structure AliasedPair (value other : Value) where
  count : Nat
  objects : Objects count
  loaded : objects.Loaded
  left : Fin count
  right : Fin count
  readsLeft : objects.Reads left value
  readsRight : objects.Reads right other

end Exact

/-- The comparison returns on all objects.  On those without cycles, where no mapping of the
second value has more than `bound` containers behind NaN keys, it is true exactly if the values
have one shape and equal leaves of one type; it is reflexive, and symmetric where this holds of
both values. -/
structure Objects.ComparesExactly {n : Nat} (objects : Objects n) (bound : Nat) : Prop where
  returns : ∀ left right depth, n * n < depth →
    ∃ same seen, strictEqualAt objects depth left right [] = some (same, seen)
  unfolds : ∀ id, objects.Acyclic id → ∃ value, objects.Reads id value
  exact : ∀ left right value other, objects.Reads left value → objects.Reads right other →
    other.FewNans bound → (strictEqualObjects objects left right = true ↔ Same value other)
  reflexive : ∀ id value, objects.Reads id value → value.FewNans bound →
    strictEqualObjects objects id id = true
  symmetric : ∀ left right value other, objects.Reads left value → objects.Reads right other →
    value.FewNans bound → other.FewNans bound →
      strictEqualObjects objects left right = strictEqualObjects objects right left

theorem Value.FewNans.mono {bound larger : Nat} (le : bound ≤ larger) {value : Value}
    (few : value.FewNans bound) : value.FewNans larger := by
  induction value using induction_on_members with
  | step value ih =>
      obtain ⟨here, below⟩ := few
      exact .intro (Nat.le_trans here le) fun member inside =>
        ih member inside (below member inside)

/-- With one container behind such keys in each mapping the comparison is exact. -/
theorem Objects.Loaded.comparesExactly {n : Nat} {objects : Objects n} (loaded : objects.Loaded)
    {bound : Nat} (le : bound ≤ 1) : objects.ComparesExactly bound := by
  have exact : ∀ left right value other, objects.Reads left value → objects.Reads right other →
      other.FewNans bound →
        (strictEqualObjects objects left right = true ↔ Same value other) :=
    fun _ _ _ _ first second few => strictEqualObjects_iff loaded first second (few.mono le)
  refine ⟨?_, fun _ => exists_reads, exact, ?_, ?_⟩
  · intro left right depth enough
    rw [← card_unmet_nil] at enough
    obtain ⟨same, seen, answered, -⟩ := @strictEqualAt_answers n objects _ left right [] enough
    exact ⟨same, seen, answered⟩
  · intro id value reads few
    exact (exact id id value value reads reads few).mpr (.refl value)
  · intro left right value other first second few fewToo
    rw [Bool.eq_iff_iff, exact left right value other first second fewToo,
      exact right left other value second first few]
    exact ⟨Same.symm, Same.symm⟩

/-- Two lists of a mapping and a list.  The mapping has two NaN keys, and the list is the value of
the first one. -/
def nanObjects : Objects 14
  | 0 => .leaf ⟨.str (PyStr.lit "a"), rfl⟩
  | 1 => .leaf ⟨.str (PyStr.lit "b"), rfl⟩
  | 2 | 3 | 8 | 9 => .leaf ⟨.float 0x7ff8000000000000#64, rfl⟩
  | 4 | 11 => .list [0]
  | 5 | 10 => .list [1]
  | 6 => .dict [(2, 4), (3, 5)]
  | 7 => .list [6, 4]
  | 12 => .dict [(8, 10), (9, 11)]
  | 13 => .list [12, 10]

/-- The value of these lists, when the first list of the mapping holds the one string and the
second the other. -/
def nanValue (first second : String) : Value :=
  .list [.dict [(.float 0x7ff8000000000000#64, .list [.str (PyStr.lit first)]),
      (.float 0x7ff8000000000000#64, .list [.str (PyStr.lit second)])],
    .list [.str (PyStr.lit first)]]

theorem nanObjects_loaded : nanObjects.Loaded := by
  have keys : ∀ id, (nanObjects id).keys = [] ∨ (nanObjects id).keys = [2, 3] ∨
      (nanObjects id).keys = [8, 9] := by
    decide
  have nan : ∀ key, key = 2 ∨ key = 3 ∨ key = 8 ∨ key = 9 →
      nanObjects key = .leaf ⟨.float 0x7ff8000000000000#64, rfl⟩ := by
    rintro key (rfl | rfl | rfl | rfl) <;> rfl
  constructor
  · intro id key member
    refine ⟨_, nan key ?_⟩
    obtain none | first | second := keys id
    · rw [none] at member
      cases member
    · rw [first] at member
      simp only [List.mem_cons, List.not_mem_nil, or_false] at member
      exact member.imp_right .inl
    · rw [second] at member
      simp only [List.mem_cons, List.not_mem_nil, or_false] at member
      exact .inr (.inr member)
  · intro id
    have pair : ∀ first second : Fin 14, first ≠ second →
        nanObjects first = .leaf ⟨.float 0x7ff8000000000000#64, rfl⟩ →
        [first, second].Pairwise fun first second => first ≠ second ∧ ∀ value other,
          nanObjects first = .leaf value → nanObjects second = .leaf other →
            strictEqual value.1 other.1 = true → value.1.isNan = true := by
      intro first second different node
      refine List.pairwise_pair.mpr ⟨different, ?_⟩
      intro value other here _ _
      cases node.symm.trans here
      rfl
    obtain none | first | second := keys id
    · rw [none]
      exact .nil
    · rw [first]
      exact pair 2 3 (by decide) rfl
    · rw [second]
      exact pair 8 9 (by decide) rfl

theorem reads_nanObjects :
    nanObjects.Reads 7 (nanValue "a" "b") ∧ nanObjects.Reads 13 (nanValue "b" "a") := by
  have a : nanObjects.Reads 0 (.str (PyStr.lit "a")) :=
    @Objects.Reads.leaf 14 nanObjects 0 ⟨.str (PyStr.lit "a"), rfl⟩ rfl
  have b : nanObjects.Reads 1 (.str (PyStr.lit "b")) :=
    @Objects.Reads.leaf 14 nanObjects 1 ⟨.str (PyStr.lit "b"), rfl⟩ rfl
  have listA : ∀ id, nanObjects id = .list [0] →
      nanObjects.Reads id (.list [.str (PyStr.lit "a")]) :=
    fun id node => .list node (.cons a .nil)
  have listB : ∀ id, nanObjects id = .list [1] →
      nanObjects.Reads id (.list [.str (PyStr.lit "b")]) :=
    fun id node => .list node (.cons b .nil)
  have nan : ∀ id, nanObjects id = .leaf ⟨.float 0x7ff8000000000000#64, rfl⟩ →
      nanObjects.Reads id (.float 0x7ff8000000000000#64) :=
    fun id node => Objects.Reads.leaf node
  constructor
  · exact .list rfl (.cons (.dict rfl (.cons (nan 2 rfl) (.cons (nan 3 rfl) .nil))
      (.cons (listA 4 rfl) (.cons (listB 5 rfl) .nil))) (.cons (listA 4 rfl) .nil))
  · exact .list rfl (.cons (.dict rfl (.cons (nan 8 rfl) (.cons (nan 9 rfl) .nil))
      (.cons (listB 10 rfl) (.cons (listA 11 rfl) .nil))) (.cons (listB 10 rfl) .nil))

theorem fewNans_nanValue (first second : String) : (nanValue first second).FewNans 2 := by
  have leaf : ∀ value : Value, value.members = [] → value.nanEntries = [] → value.FewNans 2 := by
    intro value empty none
    exact .intro (by rw [none]; exact Nat.zero_le _) (by rw [empty]; exact List.forall_mem_nil _)
  have list : ∀ text, (Value.list [.str (PyStr.lit text)]).FewNans 2 := by
    intro text
    refine .intro (Nat.zero_le _) ?_
    exact List.forall_mem_singleton.mpr (leaf _ rfl rfl)
  refine .intro (Nat.zero_le _) (List.forall_mem_cons.mpr ⟨?_,
    List.forall_mem_singleton.mpr (list first)⟩)
  refine .intro (Nat.le_refl _) ?_
  intro member inside
  simp only [members, List.map_cons, List.map_nil, List.cons_append, List.nil_append,
    List.mem_cons, List.not_mem_nil, or_false] at inside
  rcases inside with rfl | rfl | rfl | rfl
  · exact leaf _ rfl rfl
  · exact leaf _ rfl rfl
  · exact list first
  · exact list second

end DataOlympus
