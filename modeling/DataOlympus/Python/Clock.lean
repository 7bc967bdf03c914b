import DataOlympus.Python.Value

/-!
# The wall clock

Readings of `time.time()` and the calendar stamp that file names carry.
-/

namespace DataOlympus

open Lines

/-- `time.time()`, in ticks of `2^-38` seconds.  From the fifth hour of 1970 on every float is a
whole number of them. -/
abbrev Time : Type := Int

namespace Time

/-- The ticks of a second. -/
def second : Time :=
  274877906944

/-- Decimal digits, filled up with zeros. -/
def padded (width n : Nat) : Text :=
  let digits := Nat.toDigits 10 n
  List.replicate (width - digits.length) '0' ++ digits

theorem padded_injective (width : Nat) : (padded width).Injective := by
  intro first second same
  have read : ∀ n, Nat.ofDigitChars 10 (padded width n) 0 = n := by
    intro n
    rw [padded, Nat.ofDigitChars_append, Nat.ofDigitChars_replicate_zero, Nat.mul_zero,
      Nat.ofDigitChars_ten_toDigits]
  rw [← read first, same, read second]

/-- The date of a day counted from 1970-01-01, by eras of four hundred years that begin
in March. -/
def civil (days : Int) : Date :=
  let shifted := days + 719468
  let dayOfEra := (shifted % 146097).toNat
  let yearOfEra := (dayOfEra - dayOfEra / 1460 + dayOfEra / 36524 - dayOfEra / 146096) / 365
  let dayOfYear := dayOfEra - (365 * yearOfEra + yearOfEra / 4 - yearOfEra / 100)
  let monthFromMarch := (5 * dayOfYear + 2) / 153
  let day := dayOfYear - (153 * monthFromMarch + 2) / 5 + 1
  let month := if monthFromMarch < 10 then monthFromMarch + 3 else monthFromMarch - 9
  let year := (shifted / 146097 * 400).toNat + yearOfEra
  ⟨if month ≤ 2 then year + 1 else year, month, day⟩

/-- `time.strftime("%Y%m%dT%H%M%S", time.gmtime(when))` and `int((when % 1) * 1_000_000)`.  The
remainder has at most 38 bits behind the point, so that the product is exact; it is cut off to
whole microseconds. -/
def stamp (now : Time) : Text :=
  let seconds := now / second
  let date := civil (seconds / 86400)
  let ofDay := (seconds % 86400).toNat
  padded 4 date.year ++ padded 2 date.month ++ padded 2 date.day ++ 'T' ::
    padded 2 (ofDay / 3600) ++ padded 2 (ofDay / 60 % 60) ++ padded 2 (ofDay % 60) ++
      padded 6 (now % second * 1000000 / second).toNat

/-- The last float before midnight of the first of January 2026, `2^-22` seconds earlier. -/
example : stamp (1767225600 * second - 65536) = "20251231T235959999999".toList := by
  decide

/-- The float for a microsecond behind midnight is a little less. -/
example : stamp (1767225600 * second + 262144) = "20260101T000000000000".toList := by
  decide

end Time

end DataOlympus
