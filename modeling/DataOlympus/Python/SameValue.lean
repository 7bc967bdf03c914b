import DataOlympus.Python.StrictEqual
import DataOlympus.Select.Pairing

/-!
# Values of one shape

Two values are the same if they have one shape, with leaves of one type that are equal, lists
in one order, and mappings and sets whose members can be paired.  This is an equivalence, and
the type-exact comparison decides it.
-/

namespace DataOlympus

open Select

namespace Value

/-- The same shape, with equal leaves of one type. -/
inductive Same : Value → Value → Prop
  | null : Same .null .null
  | bool (b : Bool) : Same (.bool b) (.bool b)
  | int (n : Int) : Same (.int n) (.int n)
  | float {a b : BitVec 64} : sameFloat a b = true → Same (.float a) (.float b)
  | str (s : PyStr) : Same (.str s) (.str s)
  | bytes (b : List UInt8) : Same (.bytes b) (.bytes b)
  | date (day : Date) : Same (.date day) (.date day)
  | datetime {day day' : Date} (aware : Bool) (moment : Int) :
      Same (.datetime day aware moment) (.datetime day' aware moment)
  | list {xs ys : List Value} : List.Forall₂ Same xs ys → Same (.list xs) (.list ys)
  | tuple {xs ys : List Value} : List.Forall₂ Same xs ys → Same (.tuple xs) (.tuple ys)
  | set {xs zs ys : List Value} : List.Forall₂ Same xs zs → zs.Perm ys →
      Same (.set xs) (.set ys)
  | dict {xs zs ys : List (Value × Value)} :
      List.Forall₂ Same (xs.map Prod.fst) (zs.map Prod.fst) →
      List.Forall₂ Same (xs.map Prod.snd) (zs.map Prod.snd) → zs.Perm ys →
      Same (.dict xs) (.dict ys)

/-! ## Induction on the members -/

/-- The values in a container. -/
def members : Value → List Value
  | .list items => items
  | .tuple items => items
  | .set items => items
  | .dict entries => entries.map Prod.fst ++ entries.map Prod.snd
  | _ => []

theorem sizeOf_members {value member : Value} (inside : member ∈ value.members) :
    sizeOf member < sizeOf value := by
  cases value with
  | list items =>
      have smaller : sizeOf member < sizeOf items := List.sizeOf_lt_of_mem inside
      simp only [list.sizeOf_spec]
      omega
  | tuple items =>
      have smaller : sizeOf member < sizeOf items := List.sizeOf_lt_of_mem inside
      simp only [tuple.sizeOf_spec]
      omega
  | set items =>
      have smaller : sizeOf member < sizeOf items := List.sizeOf_lt_of_mem inside
      simp only [set.sizeOf_spec]
      omega
  | dict entries =>
      have entrySize : ∀ entry ∈ entries, sizeOf entry.1 < sizeOf (Value.dict entries) ∧
          sizeOf entry.2 < sizeOf (Value.dict entries) := by
        intro entry inEntries
        have smaller := List.sizeOf_lt_of_mem inEntries
        obtain ⟨key, value⟩ := entry
        simp only [dict.sizeOf_spec, Prod.mk.sizeOf_spec] at smaller ⊢
        omega
      obtain key | value := List.mem_append.mp inside
      · obtain ⟨entry, inEntries, rfl⟩ := List.mem_map.mp key
        exact (entrySize entry inEntries).1
      · obtain ⟨entry, inEntries, rfl⟩ := List.mem_map.mp value
        exact (entrySize entry inEntries).2
  | null | bool | int | float | str | bytes | date | datetime => cases inside

/-- What holds of a value if it holds of its members holds of every value. -/
theorem induction_on_members {motive : Value → Prop}
    (step : ∀ value, (∀ member ∈ value.members, motive member) → motive value)
    (value : Value) : motive value :=
  step value fun member _ => induction_on_members step member
termination_by sizeOf value
decreasing_by exact sizeOf_members ‹_›

/-! ## An equivalence -/

theorem forall₂_same_symm {xs ys : List Value} (symm : ∀ x ∈ xs, ∀ y, Same x y → Same y x)
    (same : List.Forall₂ Same xs ys) : List.Forall₂ Same ys xs := by
  induction same with
  | nil => exact .nil
  | cons first rest ih =>
      exact .cons (symm _ List.mem_cons_self _ first)
        (ih fun x member => symm x (List.mem_cons_of_mem _ member))

theorem forall₂_same_trans {xs ys zs : List Value}
    (trans : ∀ x ∈ xs, ∀ y z, Same x y → Same y z → Same x z)
    (first : List.Forall₂ Same xs ys) (second : List.Forall₂ Same ys zs) :
    List.Forall₂ Same xs zs := by
  induction first generalizing zs with
  | nil =>
      cases second
      exact .nil
  | cons head rest ih =>
      cases second with
      | cons next later =>
          exact .cons (trans _ List.mem_cons_self _ _ head next)
            (ih (fun x member => trans x (List.mem_cons_of_mem _ member)) later)

/-- Two entries have the same key and the same value. -/
def SameEntry (first second : Value × Value) : Prop :=
  Same first.1 second.1 ∧ Same first.2 second.2

theorem forall₂_entries_iff {α β : Type} {related : α → β → Prop} {xs : List (α × α)}
    {ys : List (β × β)} :
    List.Forall₂ (fun x y => related x.1 y.1 ∧ related x.2 y.2) xs ys ↔
      List.Forall₂ related (xs.map Prod.fst) (ys.map Prod.fst) ∧
        List.Forall₂ related (xs.map Prod.snd) (ys.map Prod.snd) := by
  rw [List.forall₂_map_left_iff, List.forall₂_map_right_iff, List.forall₂_map_left_iff,
    List.forall₂_map_right_iff]
  constructor
  · intro same
    exact ⟨same.imp fun _ _ entry => entry.1, same.imp fun _ _ entry => entry.2⟩
  · rintro ⟨keys, values⟩
    induction keys with
    | nil => exact .nil
    | cons key keys ih =>
        cases values with
        | cons value values => exact .cons ⟨key, value⟩ (ih values)

theorem forall₂_sameEntry_iff {xs ys : List (Value × Value)} :
    List.Forall₂ SameEntry xs ys ↔
      List.Forall₂ Same (xs.map Prod.fst) (ys.map Prod.fst) ∧
        List.Forall₂ Same (xs.map Prod.snd) (ys.map Prod.snd) :=
  forall₂_entries_iff

theorem sameFloat_symm {a b : BitVec 64} (same : sameFloat a b = true) :
    sameFloat b a = true := by
  unfold sameFloat at same ⊢
  simp only [Bool.or_eq_true, Bool.and_eq_true, decide_eq_true_eq] at same ⊢
  obtain (rfl | zeros) | nans := same
  · exact .inl (.inl rfl)
  · exact .inl (.inr zeros.symm)
  · exact .inr nans.symm

theorem zeroFloat_cases {a : BitVec 64} (zero : isZeroFloat a = true) :
    a = 0 ∨ a = 0x8000000000000000#64 := by
  have shifted : a <<< 1 = 0 := of_decide_eq_true zero
  have doubled := congrArg BitVec.toNat shifted
  rw [BitVec.toNat_shiftLeft, Nat.shiftLeft_eq] at doubled
  have bound := a.isLt
  have halves : a.toNat = 0 ∨ a.toNat = 2 ^ 63 := by
    have rest : a.toNat * 2 ^ 1 % 2 ^ 64 = 0 := doubled
    omega
  exact halves.imp (fun none => BitVec.eq_of_toNat_eq none) fun sign => BitVec.eq_of_toNat_eq sign

theorem not_nan_of_zero {a : BitVec 64} (zero : isZeroFloat a = true) : isNanFloat a = false := by
  obtain rfl | rfl := zeroFloat_cases zero
  · decide
  · decide

theorem sameFloat_trans {a b c : BitVec 64} (first : sameFloat a b = true)
    (second : sameFloat b c = true) : sameFloat a c = true := by
  unfold sameFloat at first second ⊢
  simp only [Bool.or_eq_true, Bool.and_eq_true, decide_eq_true_eq] at first second ⊢
  obtain (rfl | zeros) | nans := first
  · exact second
  · obtain (rfl | more) | nans := second
    · exact .inl (.inr zeros)
    · exact .inl (.inr ⟨zeros.1, more.2⟩)
    · rw [not_nan_of_zero zeros.2] at nans
      cases nans.1
  · obtain (rfl | zeros) | more := second
    · exact .inr nans
    · rw [not_nan_of_zero zeros.1] at nans
      cases nans.2
    · exact .inr ⟨nans.1, more.2⟩

namespace Same

theorem refl (value : Value) : Same value value := by
  induction value using induction_on_members with
  | step value ih =>
      have all : ∀ items : List Value, (∀ item ∈ items, Same item item) →
          List.Forall₂ Same items items := by
        intro items each
        exact List.forall₂_same.mpr each
      cases value with
      | null => exact .null
      | bool b => exact .bool b
      | int n => exact .int n
      | float bits => exact .float (by simp [sameFloat])
      | str s => exact .str s
      | bytes b => exact .bytes b
      | date day => exact .date day
      | datetime day aware moment => exact .datetime aware moment
      | list items => exact .list (all items ih)
      | tuple items => exact .tuple (all items ih)
      | set items => exact .set (all items ih) (.refl _)
      | dict entries =>
          exact .dict (all _ fun item member => ih item (List.mem_append_left _ member))
            (all _ fun item member => ih item (List.mem_append_right _ member)) (.refl _)

theorem symm {first second : Value} (same : Same first second) : Same second first := by
  induction first using induction_on_members generalizing second with
  | step first ih =>
      have each : ∀ item ∈ first.members, ∀ other, Same item other → Same other item :=
        fun item member other => ih item member
      cases same with
      | null => exact .null
      | bool b => exact .bool b
      | int n => exact .int n
      | float equal => exact .float (sameFloat_symm equal)
      | str s => exact .str s
      | bytes b => exact .bytes b
      | date day => exact .date day
      | datetime aware moment => exact .datetime aware moment
      | list items => exact .list (forall₂_same_symm each items)
      | tuple items => exact .tuple (forall₂_same_symm each items)
      | set items order =>
          obtain ⟨xs, paired, same⟩ :=
            List.perm_comp_forall₂ order.symm (forall₂_same_symm each items)
          exact .set paired same
      | @dict xs zs ys keys values order =>
          have flipped : List.Forall₂ SameEntry zs xs :=
            forall₂_sameEntry_iff.mpr
              ⟨forall₂_same_symm (fun item member => each item (List.mem_append_left _ member))
                  keys,
                forall₂_same_symm (fun item member => each item (List.mem_append_right _ member))
                  values⟩
          obtain ⟨ws, paired, same⟩ := List.perm_comp_forall₂ order.symm flipped
          obtain ⟨keys', values'⟩ := forall₂_sameEntry_iff.mp paired
          exact .dict keys' values' same

theorem trans {first second third : Value} (same : Same first second)
    (further : Same second third) : Same first third := by
  induction first using induction_on_members generalizing second third with
  | step first ih =>
      have each : ∀ item ∈ first.members, ∀ other last, Same item other → Same other last →
          Same item last :=
        fun item member other last => ih item member
      cases same with
      | null => exact further
      | bool b => exact further
      | int n => exact further
      | float equal =>
          cases further with
          | float more => exact .float (sameFloat_trans equal more)
      | str s => exact further
      | bytes b => exact further
      | date day => exact further
      | datetime aware moment =>
          cases further with
          | datetime => exact .datetime aware moment
      | list items =>
          cases further with
          | list others => exact .list (forall₂_same_trans each items others)
      | tuple items =>
          cases further with
          | tuple others => exact .tuple (forall₂_same_trans each items others)
      | set items order =>
          cases further with
          | set others more =>
              obtain ⟨xs, paired, same⟩ := List.perm_comp_forall₂ order others
              exact .set (forall₂_same_trans each items paired) (same.trans more)
      | @dict xs zs ys keys values order =>
          cases further with
          | @dict _ us vs keys' values' more =>
              obtain ⟨ws, paired, same⟩ :=
                List.perm_comp_forall₂ order (forall₂_sameEntry_iff.mpr ⟨keys', values'⟩)
              obtain ⟨keys'', values''⟩ := forall₂_sameEntry_iff.mp paired
              exact .dict
                (forall₂_same_trans (fun item member => each item (List.mem_append_left _ member))
                  keys keys'')
                (forall₂_same_trans (fun item member => each item (List.mem_append_right _ member))
                  values values'') (same.trans more)

end Same

/-! ## The comparison decides it -/

theorem forall₂_iff_of_mem {α : Type} {first second : α → α → Prop} {xs ys : List α}
    (each : ∀ x ∈ xs, ∀ y, first x y ↔ second x y) :
    List.Forall₂ first xs ys ↔ List.Forall₂ second xs ys := by
  induction xs generalizing ys with
  | nil =>
      cases ys with
      | nil => exact iff_of_true .nil .nil
      | cons y ys => exact iff_of_false (by rintro ⟨⟩) (by rintro ⟨⟩)
  | cons x xs ih =>
      cases ys with
      | nil => exact iff_of_false (by rintro ⟨⟩) (by rintro ⟨⟩)
      | cons y ys =>
          rw [List.forall₂_cons, List.forall₂_cons, each x List.mem_cons_self,
            ih fun other member => each other (List.mem_cons_of_mem _ member)]

theorem strictEqualAll_iff (xs ys : List Value) :
    strictEqualAll xs ys = true ↔ List.Forall₂ (strictEqual · · = true) xs ys := by
  induction xs generalizing ys with
  | nil =>
      cases ys with
      | nil => exact iff_of_true rfl .nil
      | cons y ys => exact iff_of_false Bool.false_ne_true (by rintro ⟨⟩)
  | cons x xs ih =>
      cases ys with
      | nil => exact iff_of_false Bool.false_ne_true (by rintro ⟨⟩)
      | cons y ys => rw [strictEqualAll, Bool.and_eq_true, ih, List.forall₂_cons]

theorem matchItems_eq (xs ys : List Value) : matchItems xs ys = pairsUp strictEqual xs ys := by
  induction xs generalizing ys with
  | nil => rfl
  | cons x xs ih => rw [matchItems, pairsUp, ih]

/-- Two entries compare as the same. -/
def entryEqual (first second : Value × Value) : Bool :=
  strictEqual first.1 second.1 && strictEqual first.2 second.2

theorem matchEntries_eq (xs ys : List (Value × Value)) :
    matchEntries xs ys = pairsUp entryEqual xs ys := by
  induction xs generalizing ys with
  | nil => rfl
  | cons x xs ih =>
      obtain ⟨key, value⟩ := x
      rw [matchEntries, pairsUp, ih]
      rfl

/-- Items that are compared exactly are paired exactly. -/
theorem pairsUp_iff_of_mem {α : Type} {fits : α → α → Bool} {related : α → α → Prop}
    {xs ys : List α} (each : ∀ x ∈ xs, ∀ y, fits x y = true ↔ related x y)
    (symm : ∀ x y, related x y → related y x)
    (trans : ∀ x y z, related x y → related y z → related x z) :
    pairsUp fits xs ys = true ↔ ∃ zs, List.Forall₂ related xs zs ∧ zs.Perm ys := by
  have exchanges : Exchanges fits xs := by
    intro first inItems second alsoInItems shared other sameShared sameOther alsoShared
    rw [each _ inItems] at sameShared sameOther
    rw [each _ alsoInItems] at alsoShared ⊢
    exact trans _ _ _ alsoShared (trans _ _ _ (symm _ _ sameShared) sameOther)
  rw [pairsUp_iff exchanges]
  simp only [forall₂_iff_of_mem each]

theorem sameEntry_symm (first second : Value × Value) (same : SameEntry first second) :
    SameEntry second first :=
  ⟨same.1.symm, same.2.symm⟩

theorem sameEntry_trans (first second third : Value × Value) (same : SameEntry first second)
    (further : SameEntry second third) : SameEntry first third :=
  ⟨same.1.trans further.1, same.2.trans further.2⟩

/-- The comparison is exact. -/
theorem strictEqual_iff {first second : Value} :
    strictEqual first second = true ↔ Same first second := by
  induction first using induction_on_members generalizing second with
  | step first ih =>
      cases first with
      | null =>
          cases second with
          | null => exact iff_of_true rfl .null
          | _ => exact iff_of_false Bool.false_ne_true (by rintro ⟨⟩)
      | bool b =>
          cases second with
          | bool b' =>
              rw [strictEqual, decide_eq_true_iff]
              constructor
              · rintro rfl
                exact .bool b
              · rintro ⟨⟩
                rfl
          | _ => exact iff_of_false Bool.false_ne_true (by rintro ⟨⟩)
      | int n =>
          cases second with
          | int n' =>
              rw [strictEqual, decide_eq_true_iff]
              constructor
              · rintro rfl
                exact .int n
              · rintro ⟨⟩
                rfl
          | _ => exact iff_of_false Bool.false_ne_true (by rintro ⟨⟩)
      | float bits =>
          cases second with
          | float bits' =>
              rw [strictEqual]
              constructor
              · exact Same.float
              · rintro ⟨⟩
                assumption
          | _ => exact iff_of_false Bool.false_ne_true (by rintro ⟨⟩)
      | str s =>
          cases second with
          | str s' =>
              rw [strictEqual, decide_eq_true_iff]
              constructor
              · rintro rfl
                exact .str s
              · rintro ⟨⟩
                rfl
          | _ => exact iff_of_false Bool.false_ne_true (by rintro ⟨⟩)
      | bytes b =>
          cases second with
          | bytes b' =>
              rw [strictEqual, decide_eq_true_iff]
              constructor
              · rintro rfl
                exact .bytes b
              · rintro ⟨⟩
                rfl
          | _ => exact iff_of_false Bool.false_ne_true (by rintro ⟨⟩)
      | date day =>
          cases second with
          | date day' =>
              rw [strictEqual, decide_eq_true_iff]
              constructor
              · rintro rfl
                exact .date day
              · rintro ⟨⟩
                rfl
          | _ => exact iff_of_false Bool.false_ne_true (by rintro ⟨⟩)
      | datetime day aware moment =>
          cases second with
          | datetime day' aware' moment' =>
              rw [strictEqual, Bool.and_eq_true, decide_eq_true_iff, decide_eq_true_iff]
              constructor
              · rintro ⟨rfl, rfl⟩
                exact .datetime aware moment
              · rintro ⟨⟩
                exact ⟨rfl, rfl⟩
          | _ => exact iff_of_false Bool.false_ne_true (by rintro ⟨⟩)
      | list items =>
          cases second with
          | list others =>
              have each : ∀ item ∈ items, ∀ other, strictEqual item other = true ↔
                  Same item other :=
                fun item member other => ih item member
              rw [strictEqual, strictEqualAll_iff, forall₂_iff_of_mem each]
              constructor
              · exact Same.list
              · rintro ⟨⟩
                assumption
          | _ => exact iff_of_false Bool.false_ne_true (by rintro ⟨⟩)
      | tuple items =>
          cases second with
          | tuple others =>
              have each : ∀ item ∈ items, ∀ other, strictEqual item other = true ↔
                  Same item other :=
                fun item member other => ih item member
              rw [strictEqual, strictEqualAll_iff, forall₂_iff_of_mem each]
              constructor
              · exact Same.tuple
              · rintro ⟨⟩
                assumption
          | _ => exact iff_of_false Bool.false_ne_true (by rintro ⟨⟩)
      | set items =>
          cases second with
          | set others =>
              have each : ∀ item ∈ items, ∀ other, strictEqual item other = true ↔
                  Same item other :=
                fun item member other => ih item member
              rw [strictEqual, matchItems_eq, pairsUp_iff_of_mem each (fun _ _ => Same.symm)
                fun _ _ _ => Same.trans]
              constructor
              · rintro ⟨zs, paired, order⟩
                exact .set paired order
              · rintro ⟨⟩
                exact ⟨_, by assumption, by assumption⟩
          | _ => exact iff_of_false Bool.false_ne_true (by rintro ⟨⟩)
      | dict entries =>
          cases second with
          | dict others =>
              have each : ∀ entry ∈ entries, ∀ other, entryEqual entry other = true ↔
                  SameEntry entry other := by
                intro entry member other
                rw [entryEqual, Bool.and_eq_true]
                exact and_congr (ih _ (List.mem_append_left _ (List.mem_map_of_mem member)))
                  (ih _ (List.mem_append_right _ (List.mem_map_of_mem member)))
              rw [strictEqual, matchEntries_eq, pairsUp_iff_of_mem each sameEntry_symm
                sameEntry_trans]
              simp only [forall₂_sameEntry_iff]
              constructor
              · rintro ⟨zs, ⟨keys, values⟩, order⟩
                exact .dict keys values order
              · rintro ⟨⟩
                exact ⟨_, ⟨by assumption, by assumption⟩, by assumption⟩
          | _ => exact iff_of_false Bool.false_ne_true (by rintro ⟨⟩)

end Value

end DataOlympus
