import DataOlympus.Document.Path

/-!
# Validity windows and the in-force predicate

Dates of the `validity` block are normalized to calendar dates; an absent date is
`none`.  `isInForce` is the composed predicate of the format layer: the inbox
floor first, then the status class, then the validity window.
-/

namespace DataOlympus

open Lines

namespace Runtime

variable (runtime : Runtime)

/-- `s` with the `Z` shorthand for UTC written out. -/
def withOffset (s : PyStr) : PyStr :=
  match s.getLast? with
  | some (.scalar 'Z') => s.dropLast ++ PyStr.lit "+00:00"
  | some (.scalar 'z') => s.dropLast ++ PyStr.lit "+00:00"
  | _ => s

/-- The day an ISO date or an ISO datetime falls on. -/
def isoDay (s : PyStr) : Option Date :=
  (runtime.dateFromIsoformat s).or (runtime.datetimeFromIsoformat (withOffset s))

/-- `normalize_validity_date(value)`: the date, and whether the value is
malformed. -/
def normalizeValidityDate : Option Value → Option Date × Bool
  | none => (none, false)
  | some .null => (none, false)
  | some (.datetime day _ _) => (some day, false)
  | some (.date day) => (some day, false)
  | some (.str s) =>
      if s.blank then (none, false)
      else
        match runtime.isoDay s.strip with
        | some day => (some day, false)
        | none => (none, true)
  | some _ => (none, true)

end Runtime

/-- `is_expired(valid_until, today)`. -/
def isExpired (validUntil : Option Date) (today : Date) : Bool :=
  validUntil.any (· < today)

/-- `is_upcoming(valid_from, today)`. -/
def isUpcoming (validFrom : Option Date) (today : Date) : Bool :=
  validFrom.any (today < ·)

/-- The validity window contains `today`. -/
def inWindow (validFrom validUntil : Option Date) (today : Date) : Bool :=
  !isExpired validUntil today && !isUpcoming validFrom today

/-- `is_in_force(status, valid_from, valid_until, today, is_inbox=…)`. -/
def isInForce (status : PyStr) (validFrom validUntil : Option Date) (today : Date)
    (inbox : Bool) : Bool :=
  if inbox then false
  else if status ∉ inForceStatuses then false
  else inWindow validFrom validUntil today

/-- A document is in force when all three conditions hold. -/
theorem isInForce_iff {status : PyStr} {validFrom validUntil : Option Date}
    {today : Date} {inbox : Bool} :
    isInForce status validFrom validUntil today inbox = true ↔
      inbox = false ∧ status ∈ inForceStatuses ∧
        inWindow validFrom validUntil today = true := by
  unfold isInForce
  cases inbox with
  | true => simp
  | false => by_cases inClass : status ∈ inForceStatuses <;> simp [inClass]

/-- Without dates the window never closes. -/
@[simp]
theorem inWindow_none (today : Date) : inWindow none none today = true :=
  rfl

end DataOlympus
