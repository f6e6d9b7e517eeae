import ClassAudit.Output.Duration

/-!
# Points in time

## Main definitions

* `timestampText` - a number of seconds since the start of 1970 as a date and time of day.
-/

namespace ClassAudit

/-- Year, month and day of a day counted from the start of 1970. The years run from March to
February, so that the leap day comes last; 400 of them have the same length. -/
def civilDate (day : Nat) : Nat × Nat × Nat :=
  let n := day + 719468
  let era := n / 146097
  let ofEra := n % 146097
  let year := (ofEra - ofEra / 1460 + ofEra / 36524 - ofEra / 146096) / 365
  let ofYear := ofEra - (365 * year + year / 4 - year / 100)
  let month := (5 * ofYear + 2) / 153
  let dayOfMonth := ofYear - (153 * month + 2) / 5 + 1
  let calendarMonth := if month < 10 then month + 3 else month - 9
  (year + era * 400 + (if calendarMonth ≤ 2 then 1 else 0), calendarMonth, dayOfMonth)

/-- A point in time in seconds since the start of 1970, as date and time of day in universal
time. -/
def timestampText (seconds : Nat) : String :=
  let (year, month, day) := civilDate (seconds / 86400)
  let time := seconds % 86400
  let digits (width v : Nat) : String := String.ofList (lastDigits width v)
  digits 4 year ++ "-" ++ digits 2 month ++ "-" ++ digits 2 day ++ "T" ++
    digits 2 (time / 3600) ++ ":" ++ digits 2 (time / 60 % 60) ++ ":" ++ digits 2 (time % 60) ++ "Z"

end ClassAudit
