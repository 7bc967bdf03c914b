import Mathlib.Algebra.Group.Nat.Defs
import DataOlympus.Python.Clock
import DataOlympus.Text.Order

/-!
# Dates as text

`date.isoformat()` writes a date with a fixed width, so that texts are compared as the dates.
-/

namespace DataOlympus

open Lines

namespace Time

/-- A number below a power of ten ends in its last digit. -/
theorem padded_succ {width n : Nat} (positive : 0 < width) :
    padded (width + 1) n = padded width (n / 10) ++ [Nat.digitChar (n % 10)] := by
  unfold padded
  by_cases small : n < 10
  · have nothing : n / 10 = 0 := Nat.div_eq_of_lt small
    have wide : width + 1 - 1 = width - 1 + 1 := by omega
    rw [Nat.toDigits_of_lt_base small, nothing, Nat.toDigits_zero, Nat.mod_eq_of_lt small]
    dsimp only [List.length_singleton]
    rw [wide, List.replicate_succ']
  · rw [Nat.toDigits_of_base_le (by decide) (Nat.le_of_not_lt small)]
    dsimp only
    rw [List.length_append, List.length_singleton, Nat.add_sub_add_right, List.append_assoc]

theorem padded_one {n : Nat} (small : n < 10) : padded 1 n = [Nat.digitChar n] := by
  rw [padded, Nat.toDigits_of_lt_base small]
  rfl

theorem length_padded {width n : Nat} (small : n < 10 ^ (width + 1)) :
    (padded (width + 1) n).length = width + 1 := by
  induction width generalizing n with
  | zero => rw [padded_one small, List.length_singleton]
  | succ width ih =>
      rw [padded_succ (Nat.succ_pos width), List.length_append, ih, List.length_singleton]
      rw [Nat.pow_succ] at small
      exact Nat.div_lt_of_lt_mul (by omega)

theorem nameLe_digit : ∀ first < 10, ∀ second < 10,
    nameLe [Nat.digitChar first] [Nat.digitChar second] = decide (first ≤ second) := by
  decide

/-- Numbers of one width are compared as texts. -/
theorem nameLe_padded {width first second : Nat} (small : first < 10 ^ (width + 1))
    (bound : second < 10 ^ (width + 1)) :
    nameLe (padded (width + 1) first) (padded (width + 1) second) =
      decide (first ≤ second) := by
  induction width generalizing first second with
  | zero =>
      rw [padded_one small, padded_one bound]
      exact nameLe_digit first small second bound
  | succ width ih =>
      have smaller : first / 10 < 10 ^ (width + 1) := by
        rw [Nat.pow_succ] at small
        exact Nat.div_lt_of_lt_mul (by omega)
      have bounded : second / 10 < 10 ^ (width + 1) := by
        rw [Nat.pow_succ] at bound
        exact Nat.div_lt_of_lt_mul (by omega)
      have length : (padded (width + 1) (first / 10)).length =
          (padded (width + 1) (second / 10)).length := by
        rw [length_padded smaller, length_padded bounded]
      rw [padded_succ (Nat.succ_pos width), padded_succ (Nat.succ_pos width),
        nameLe_append_append length, nameLt_eq_not, ih bounded smaller,
        nameLe_digit _ (Nat.mod_lt _ (by decide)) _ (Nat.mod_lt _ (by decide)),
        decide_eq_decide.mpr (padded_injective _).eq_iff]
      rw [Bool.eq_iff_iff, Bool.or_eq_true, Bool.and_eq_true, Bool.not_eq_true',
        decide_eq_false_iff_not, decide_eq_true_iff, decide_eq_true_iff, decide_eq_true_iff]
      omega

end Time

namespace Date

/-- `date.isoformat()`. -/
def isoformat (date : Date) : Text :=
  Time.padded 4 date.year ++ '-' :: (Time.padded 2 date.month ++ '-' :: Time.padded 2 date.day)

/-- The fields have no more digits than the text has room for. -/
def Fits (date : Date) : Prop :=
  date.year < 10 ^ 4 ∧ date.month < 10 ^ 2 ∧ date.day < 10 ^ 2

/-- The texts of two dates are in the order of the dates. -/
theorem nameLe_isoformat {first second : Date} (fits : first.Fits) (bounds : second.Fits) :
    nameLe first.isoformat second.isoformat = decide (first ≤ second) := by
  obtain ⟨year, month, day⟩ := first
  obtain ⟨year', month', day'⟩ := second
  obtain ⟨yearFits, monthFits, dayFits⟩ := fits
  obtain ⟨yearFits', monthFits', dayFits'⟩ := bounds
  have years : (Time.padded 4 year).length = (Time.padded 4 year').length := by
    rw [Time.length_padded yearFits, Time.length_padded yearFits']
  have months : (Time.padded 2 month).length = (Time.padded 2 month').length := by
    rw [Time.length_padded monthFits, Time.length_padded monthFits']
  have dash : ∀ rest others : Text, nameLe ('-' :: rest) ('-' :: others) = nameLe rest others :=
    fun rest others => nameLe_append_left ['-'] rest others
  have order : (⟨year, month, day⟩ : Date) ≤ ⟨year', month', day'⟩ ↔
      year < year' ∨ year = year' ∧ (month < month' ∨ month = month' ∧ day ≤ day') := by
    change Date.key _ ≤ Date.key _ ↔ _
    rw [Date.key, Date.key, Prod.Lex.toLex_le_toLex, Prod.Lex.toLex_le_toLex]
  rw [isoformat, isoformat, nameLe_append_append years, dash, nameLe_append_append months, dash,
    nameLt_eq_not, nameLt_eq_not, Time.nameLe_padded yearFits' yearFits,
    Time.nameLe_padded monthFits' monthFits, Time.nameLe_padded dayFits dayFits',
    Bool.eq_iff_iff, decide_eq_true_iff, order]
  simp only [Bool.or_eq_true, Bool.and_eq_true, Bool.not_eq_true', decide_eq_false_iff_not,
    decide_eq_true_iff, Nat.not_le, (Time.padded_injective _).eq_iff]

end Date

end DataOlympus
