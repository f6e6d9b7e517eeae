import ClassAudit.Text.Basic

/-!
# Durations

The text of a duration in nanoseconds: below a second in the largest unit that gives a whole
part, and otherwise in hours, minutes and seconds. Fractions have no zeros at their end.

## Main definitions

* `durationText` - the text of a duration.
-/

namespace ClassAudit

/-- `n` digits of a number, the last ones. -/
def lastDigits : Nat → Nat → List Char
  | 0, _ => []
  | n + 1, v => lastDigits n (v / 10) ++ [Char.ofNat (48 + v % 10)]

/-- A number with `places` decimal places, without zeros at the end of the fraction. -/
def decimalText (v places : Nat) : String :=
  let fraction := Text.dropTailWhile (· == '0') (lastDigits places v)
  toString (v / Nat.pow 10 places) ++
    (if fraction.isEmpty then "" else "." ++ String.ofList fraction)

/-- The text of a duration of at least a second: the seconds have a fraction, and minutes and
hours appear once they are needed. -/
def longDurationText (ns : Nat) : String :=
  let minutes := ns / 60000000000
  let seconds := decimalText (ns % 60000000000) 9 ++ "s"
  if minutes == 0 then seconds
  else if minutes / 60 == 0 then toString minutes ++ "m" ++ seconds
  else toString (minutes / 60) ++ "h" ++ toString (minutes % 60) ++ "m" ++ seconds

/-- The text of a duration in nanoseconds. -/
def durationText (ns : Int) : String :=
  let size := ns.natAbs
  let text :=
    if size == 0 then "0s"
    else if size < 1000 then toString size ++ "ns"
    else if size < 1000000 then decimalText size 3 ++ "µs"
    else if size < 1000000000 then decimalText size 6 ++ "ms"
    else longDurationText size
  if ns < 0 then "-" ++ text else text

end ClassAudit
