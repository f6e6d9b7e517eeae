import ClassAudit.Text.Decimal
import ClassAudit.Toml.Fault

/-!
# Numbers, dates and strings of TOML

What the text of a number, a date or a string stands for. The texts were taken off a document
before; here they are held against the finer rules.

## Main definitions

* `Toml.checkInteger`, `Toml.checkFloat`, `Toml.checkDate` - whether a text is such a value.
* `Toml.unfold` - a string over several lines without its folded line ends.
* `Toml.unescape` - a string with its escapes replaced.
-/

namespace ClassAudit.Toml

/-! ### Numbers -/

/-- A hexadecimal digit. -/
def isHexDigit (c : Char) : Bool := (Text.digitValue? 16 c).isSome

/-- Are all underscores, and the end, preceded by digits? `digit` tells whether the character before
was one. -/
def underscoresFit (digit : Bool) : List Char → Bool
  | [] => digit
  | c :: s => (c != '_' || digit) && underscoresFit (isHexDigit c) s

/-- The numbers that are words. -/
def numberWords : List String := ["nan", "+nan", "-nan", "inf", "+inf", "-inf"]

/-- Are the underscores of a number where they may be? -/
def hasGoodUnderscores (s : List Char) : Bool :=
  numberWords.contains (String.ofList s) || underscoresFit false s

/-- Does a number begin with a zero too many? -/
def hasLeadingZero : List Char → Bool
  | '0' :: c :: _ => !(c == 'b' || c == 'o' || c == 'x')
  | sign :: '0' :: _ :: _ => sign == '-' || sign == '+'
  | _ => false

/-- The value of the digits of a number in a base. -/
def runValue (base : Nat) (s : List Char) : Nat :=
  s.foldl (fun n c => match Text.digitValue? base c with | some d => base * n + d | none => n) 0

/-- The value of a whole number. -/
def integerValue (s : List Char) : Int :=
  match s with
  | '0' :: 'x' :: s => runValue 16 s
  | '0' :: 'o' :: s => runValue 8 s
  | '0' :: 'b' :: s => runValue 2 s
  | '-' :: s => -(runValue 10 s : Int)
  | s => runValue 10 s

/-- Checks a whole number. -/
def checkInteger (s : List Char) : Except Cause Unit :=
  let text := String.ofList s
  if !hasGoodUnderscores s then .error (.integerUnderscores text)
  else if hasLeadingZero s then .error (.integerZeros text)
  else if integerValue s < -Binary.span 63 || Binary.span 63 ≤ integerValue s then
    .error (.integerRange text)
  else .ok ()

/-- Is every point followed by a digit? -/
def pointsFit : List Char → Bool
  | [] => true
  | ['.'] => false
  | '.' :: c :: s => c.isDigit && pointsFit (c :: s)
  | _ :: s => pointsFit s

/-- Checks a number with a fraction or an exponent. -/
def checkFloat (s : List Char) : Except Cause Unit :=
  let text := String.ofList s
  let parts := (Text.splitWhere (fun c => c == '.' || c == 'e' || c == 'E') s).filter (!·.isEmpty)
  if !parts.all hasGoodUnderscores then .error (.floatUnderscores text)
  else if (parts.head?.map hasLeadingZero).getD false then .error (.floatZeros text)
  else if !pointsFit s then .error (.floatPoint text)
  else if numberWords.contains text then .ok ()
  else
    match Text.Decimal.read? (s.filter (· != '_')) with
    | none => .error (.noFloat text)
    | some d =>
      match d.round with
      | .infinite _ => .error (.floatRange text)
      | .finite .. => .ok ()

/-! ### Dates -/

/-- A number of exactly two digits. -/
def twoDigits? : List Char → Option (Nat × List Char)
  | a :: b :: s =>
    if a.isDigit && b.isDigit then some (10 * (a.toNat - 48) + (b.toNat - 48), s) else none
  | _ => none

/-- A character that has to stand here. -/
def expect? (c : Char) : List Char → Option (List Char)
  | [] => none
  | d :: s => if c == d then some s else none

/-- The days of a month. -/
def daysOf (year month : Nat) : Nat :=
  let leap := (year % 4 == 0 && year % 100 != 0) || year % 400 == 0
  if month == 2 then if leap then 29 else 28
  else if [4, 6, 9, 11].contains month then 30
  else 31

/-- A day. -/
def readDate (s : List Char) : Option (List Char) := do
  let year := s.take 4
  guard (year.length == 4 && year.all Char.isDigit)
  let (month, s) ← twoDigits? (← expect? '-' (s.drop 4))
  let (day, s) ← twoDigits? (← expect? '-' s)
  guard (1 ≤ month && month ≤ 12 && 1 ≤ day && day ≤ daysOf (runValue 10 year) month)
  return s

/-- A time of day. -/
def readTime (s : List Char) : Option (List Char) := do
  let (hour, s) ← twoDigits? s
  let (minute, s) ← twoDigits? (← expect? ':' s)
  let (second, s) ← twoDigits? (← expect? ':' s)
  guard (hour < 24 && minute < 60 && second < 60)
  match s with
  | '.' :: rest =>
    let digits := rest.takeWhile Char.isDigit
    return if digits.isEmpty then s else rest.drop digits.length
  | s => return s

/-- Is the text a distance from universal time, or nothing? -/
def isOffset (s : List Char) : Bool :=
  match s with
  | [] => true
  | ['Z'] => true
  | c :: rest =>
    (c == '+' || c == '-') &&
      match (do let (h, s) ← twoDigits? rest; let (m, s) ← twoDigits? (← expect? ':' s)
                return (h, m, s) : Option (Nat × Nat × List Char)) with
      | some (h, m, []) => h ≤ 24 && m ≤ 60
      | _ => false

/-- Is the text a day, a time of day, or both? -/
def isDate (s : List Char) : Bool :=
  match readDate s with
  | some [] => true
  | some ('T' :: rest) =>
    match readTime rest with
    | some ending => isOffset ending
    | none => false
  | some _ => false
  | none => readTime s == some []

/-- The text of a date with capital letters, and a letter between day and time. -/
def dateText (s : List Char) : List Char :=
  s.map fun c => if c == 'z' then 'Z' else if c == 't' || c == ' ' then 'T' else c

/-- Checks a date. -/
def checkDate (s : List Char) : Except Cause Unit :=
  if isDate (dateText s) then .ok () else .error (.noDate (String.ofList (dateText s)))

/-! ### Strings -/

/-- A blank or a line end. -/
def isFolding (c : Char) : Bool := c == ' ' || c == '\t' || c == '\r' || c == '\n'

/-- A string over several lines without its first line end. -/
def dropFirstBreak : List Char → List Char
  | '\n' :: s => s
  | '\r' :: '\n' :: s => s
  | s => s

/-- A string without its folded line ends: a backslash before blanks with a line end among them
goes, and the blanks go with it. -/
def unfold : List Char → List Char
  | [] => []
  | '\\' :: '\\' :: s => '\\' :: '\\' :: unfold s
  | '\\' :: s =>
    if (s.takeWhile isFolding).contains '\n' then unfold (s.dropWhile isFolding)
    else '\\' :: unfold s
  | c :: s => c :: unfold s
termination_by s => s.length
decreasing_by
  · simp only [List.length_cons]
    omega
  · simp only [List.length_cons]
    exact Nat.lt_succ_of_le (List.dropWhile_suffix isFolding).length_le
  · simp only [List.length_cons]
    omega
  · simp only [List.length_cons]
    omega

/-- The character with a code, if there is one. -/
def charOfCode (digits : List Char) : Except Cause Char :=
  let n := runValue 16 digits
  if n < 0xd800 || (0xdfff < n && n ≤ 0x10ffff) then .ok (Char.ofNat n)
  else .error (.invalidCode (String.ofList digits))

/-- A string with its escapes replaced. -/
def unescape : List Char → Except Cause (List Char)
  | '\\' :: c :: s =>
    match c with
    | 'b' => (unescape s).map ('\x08' :: ·)
    | 't' => (unescape s).map ('\t' :: ·)
    | 'n' => (unescape s).map ('\n' :: ·)
    | 'f' => (unescape s).map ('\x0c' :: ·)
    | 'r' => (unescape s).map ('\r' :: ·)
    | 'u' => do
      let d ← charOfCode (s.take 4)
      (unescape (s.drop 4)).map (d :: ·)
    | 'U' => do
      let d ← charOfCode (s.take 8)
      (unescape (s.drop 8)).map (d :: ·)
    | c =>
      if c == ' ' || c == '\t' then .error (.blankEscape c) else (unescape s).map (c :: ·)
  | c :: s => (unescape s).map (c :: ·)
  | [] => .ok []
termination_by s => s.length
decreasing_by
  all_goals simp only [List.length_cons, List.length_drop]
  all_goals omega

end ClassAudit.Toml
