import ClassAudit.Text.Decimal
import ClassAudit.Text.Number

/-!
# The types of plain texts

A plain text of a YAML document stands for a truth value, a number, a date, nothing, or itself.

## Main definitions

* `Yaml.Plain` - what a plain text stands for; `Yaml.Plain.tag` - the tag of its type.
* `Yaml.resolve` - what a given plain text stands for.
* `Yaml.wordValue?` - the whole part of a number, as a 64-bit word.
-/

namespace ClassAudit.Yaml

/-- What a plain text stands for. -/
inductive Plain where
  | null
  | bool (b : Bool)
  | int (n : Int)
  /-- A binary number, or none for what is no number. -/
  | float (value : Option Text.Rounded)
  | timestamp
  | text
deriving DecidableEq, Repr

/-- The tag of a type. -/
def Plain.tag : Plain → String
  | null => "!!null"
  | bool _ => "!!bool"
  | int _ => "!!int"
  | float _ => "!!float"
  | timestamp => "!!timestamp"
  | text => "!!str"

/-! ### Whole numbers -/

/-- The value of digits in a base; none without a digit. -/
def digitsValue? (base : Nat) (s : List Char) : Option Nat :=
  if s.isEmpty then none
  else s.foldlM (fun n c => (Text.digitValue? base c).map fun d => base * n + d) 0

/-- The whole number that a text without sign spells; its beginning tells the base. -/
def unsignedValue? : List Char → Option Nat
  | '0' :: 'x' :: s => digitsValue? 16 s
  | '0' :: 'X' :: s => digitsValue? 16 s
  | '0' :: 'o' :: s => digitsValue? 8 s
  | '0' :: 'O' :: s => digitsValue? 8 s
  | '0' :: 'b' :: s => digitsValue? 2 s
  | '0' :: 'B' :: s => digitsValue? 2 s
  | '0' :: c :: s => digitsValue? 8 (c :: s)
  | s => digitsValue? 10 s

/-- A number with its sign as a word of 64 bits. A number without sign may be twice as large. -/
def signedWord? (read : List Char → Option Nat) : List Char → Option Int
  | '-' :: s => (read s).bind fun n => if n ≤ Binary.span 63 then some (-(n : Int)) else none
  | '+' :: s => (read s).bind fun n => if n < Binary.span 63 then some (n : Int) else none
  | s => (read s).bind fun n => if n < Binary.span 64 then some (n : Int) else none

/-- The whole number that a text spells in a base told at its beginning. Here the sign may also stand
behind that. -/
def innerSigned? : List Char → Option Int
  | '0' :: 'b' :: s => signedWord? (digitsValue? 2) s
  | '0' :: 'o' :: s => signedWord? (digitsValue? 8) s
  | _ => none

/-! ### Numbers with fractions -/

/-- The number that a text spells, unless it is too large. -/
def fraction? (s : List Char) : Option Text.Rounded :=
  (Text.Decimal.read? s).bind fun d =>
    match d.round with
    | .infinite _ => none
    | r => some r

/-- The binary number nearest to a whole number. -/
def ofInt (n : Int) : Text.Rounded :=
  Text.Decimal.round { negative := n < 0, digits := n.natAbs }

/-- The whole part of a number as a word of 64 bits with sign. What lies too far below, and the
first number too far above, is told as the least word. -/
def wordValue? : Text.Rounded → Option Int
  | .infinite true => some (-Binary.span 63)
  | r =>
    r.toInt?.bind fun n =>
      if Binary.span 63 < n then none
      else some (if n == Binary.span 63 || n < -Binary.span 63 then -Binary.span 63 else n)

/-! ### Dates -/

/-- Reads a number of one or two digits. -/
def shortNumber? (s : List Char) : Option (Nat × List Char) :=
  let digits := (s.take 2).takeWhile Char.isDigit
  (digitsValue? 10 digits).map fun n => (n, s.drop digits.length)

/-- Reads a character that has to stand here. -/
def expect? (c : Char) : List Char → Option (List Char)
  | [] => none
  | d :: s => if c == d then some s else none

/-- The number of days of a month. -/
def daysOf (year month : Nat) : Nat :=
  if month == 2 then
    if (year % 4 == 0 && year % 100 != 0) || year % 400 == 0 then 29 else 28
  else if month == 4 || month == 6 || month == 9 || month == 11 then 30
  else 31

/-- Reads a day: a year of four digits, a month and a day of the month. -/
def date? (s : List Char) : Option (List Char) := do
  let year := s.takeWhile Char.isDigit
  guard (year.length == 4)
  let y ← digitsValue? 10 year
  let s ← expect? '-' (s.drop 4)
  let (month, s) ← shortNumber? s
  guard (1 ≤ month && month ≤ 12)
  let s ← expect? '-' s
  let (day, s) ← shortNumber? s
  guard (1 ≤ day && day ≤ daysOf y month)
  return s

/-- What follows an optional fraction of a second, behind a point or a comma. -/
def afterFraction : List Char → List Char
  | mark :: d :: s =>
    if (mark == '.' || mark == ',') && d.isDigit then s.dropWhile Char.isDigit
    else mark :: d :: s
  | s => s

/-- Reads a time of day, with an optional fraction of the second. -/
def time? (s : List Char) : Option (List Char) := do
  let (hour, s) ← shortNumber? s
  guard (hour < 24)
  let s ← expect? ':' s
  let (minute, s) ← shortNumber? s
  guard (minute < 60)
  let s ← expect? ':' s
  let (second, s) ← shortNumber? s
  guard (second < 60)
  return afterFraction s

/-- A time zone: `Z`, or the distance in hours and minutes. -/
def isZone : List Char → Bool
  | ['Z'] => true
  | [sign, h, i, ':', m, j] =>
    (sign == '+' || sign == '-') && [h, i, m, j].all Char.isDigit &&
      decide ((h.toNat - 48) * 10 + (i.toNat - 48) ≤ 24) &&
      decide ((m.toNat - 48) * 10 + (j.toNat - 48) ≤ 60)
  | _ => false

/-- Is the text a day, alone or with a time of day? -/
def isTimestamp (s : List Char) : Bool :=
  match date? s with
  | none => false
  | some [] => true
  | some (c :: rest) =>
    if c == 'T' || c == 't' then ((time? rest).map isZone).getD false
    else c == ' ' && time? (rest.dropWhile (· == ' ')) == some []

/-! ### Plain texts -/

/-- Does a number or a date begin with this character? -/
def startsNumber (c : Char) : Bool := c == '+' || c == '-' || c.isDigit

/-- What a text that may be a number or a date stands for. -/
def resolveNumber (dates : Bool) (s : List Char) : Plain :=
  if dates && isTimestamp s then .timestamp
  else
    let plain := s.filter (· != '_')
    match signedWord? unsignedValue? plain, fraction? plain, innerSigned? plain with
    | some n, _, _ => .int n
    | none, some r, _ => .float (some r)
    | none, none, some n => .int n
    | none, none, none => .text

/-- What a plain text stands for; `dates` tells whether it may be a date. -/
def resolve (dates : Bool) (text : String) : Plain :=
  if ["", "~", "null", "Null", "NULL"].contains text then .null
  else if ["true", "True", "TRUE"].contains text then .bool true
  else if ["false", "False", "FALSE"].contains text then .bool false
  else if [".nan", ".NaN", ".NAN"].contains text then .float none
  else if [".inf", ".Inf", ".INF", "+.inf", "+.Inf", "+.INF"].contains text then
    .float (some (.infinite false))
  else if ["-.inf", "-.Inf", "-.INF"].contains text then .float (some (.infinite true))
  else
    match text.toList with
    | [] => .null
    | c :: s =>
      if c == '.' then
        match fraction? (c :: s) with
        | some r => .float (some r)
        | none => .text
      else if startsNumber c then resolveNumber dates (c :: s)
      else .text

end ClassAudit.Yaml
