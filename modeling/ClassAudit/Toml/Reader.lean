import ClassAudit.Text.Letter
import ClassAudit.Toml.Scalar
import ClassAudit.Toml.Tables

/-!
# Reading TOML

A reader takes characters off a text and keeps count of the lines. A character that no document may
hold, or a stray byte, is found as soon as a reader looks at it, even if it does not take it.

## Main definitions

* `Toml.Reader` - the text that is left, and what was defined so far; `Toml.Read` - a step of
  reading.
* `Toml.peek`, `Toml.next`, `Toml.takeRun` - looking at characters and taking them.
* `Toml.readKey`, `Toml.readTableName` - keys.
* `Toml.readText` - strings; `Toml.readQuantity` - numbers and dates.
-/

namespace ClassAudit.Toml

/-- The text that is left, and what was defined so far. -/
structure Reader where
  rest : List Text.Symbol
  line : Nat := 1
  /-- Does the text that is left begin behind a line end? -/
  afterBreak : Bool := false
  tables : Tables := {}

/-- A step of reading, which may fail. -/
abbrev Read (α : Type) : Type := StateT Reader (Except Fault) α

/-! ### Faults -/

/-- Fails `back` lines above the line that is read. -/
def failAbove {α : Type} (back : Nat) (cause : Cause) : Read α := do
  let r ← get
  throw { line := (r.line : Int) - back, lastKey := r.tables.lastKey, cause }

/-- Fails in the line that is read. -/
def fail {α : Type} (cause : Cause) : Read α := failAbove 0 cause

/-- Fails at the end of the text; an empty last line does not count. -/
def failAtEnd {α : Type} (cause : Cause) : Read α := do
  failAbove (if (← get).afterBreak then 1 else 0) cause

/-- Fails at a character, or at the end of the text if there is none. -/
def failAt {α : Type} (c : Option Char) (cause : Cause) : Read α :=
  if c.isSome then fail cause else failAtEnd cause

/-- The result of a check in the line that is read. -/
def checked {α : Type} : Except Cause α → Read α
  | .ok a => pure a
  | .error cause => fail cause

/-- Changes what was defined so far. -/
def define (f : Tables → Except Fault Tables) : Read Unit := do
  let r ← get
  let tables ← f r.tables
  set { r with tables }

/-! ### Characters -/

/-- A character that no document may hold. -/
def isControl (c : Char) : Bool :=
  (c.toNat ≤ 0x1f && c != '\t' && c != '\n' && c != '\r') || c.toNat == 0x7f

/-- What is wrong with the first symbol of a text. A carriage return has to stand before a line
feed. -/
def badSymbol? : List Text.Symbol → Option Cause
  | [] => none
  | .stray b :: _ => some (.invalidByte b)
  | .char c :: s =>
    if isControl c || (c == '\r' && s.head? != some (.char '\n')) then some (.controlChar c)
    else none

/-- The next character, which stays. -/
def peek : Read (Option Char) := do
  let s := (← get).rest
  match badSymbol? s with
  | some cause => fail cause
  | none => return s.head?.bind Text.Symbol.char?

/-- Takes the next character. -/
def next : Read (Option Char) := do
  match ← peek with
  | none => return none
  | some c =>
    modify fun r => { r with
      rest := r.rest.tail
      line := if c == '\n' then r.line + 1 else r.line
      afterBreak := c == '\n' }
    return some c

/-- Takes the next character if it is the given one. -/
def accept (c : Char) : Read Bool := do
  if (← peek) == some c then
    let _ ← next
    return true
  else return false

/-- Takes the characters that satisfy `p`, none of which is a line end, and looks at the next
one. -/
def takeRun (p : Char → Bool) : Read (List Char) := do
  let r ← get
  let word := r.rest.takeWhile fun
    | .char c => p c && !isControl c
    | .stray _ => false
  set { r with
    rest := r.rest.drop word.length, afterBreak := if word.isEmpty then r.afterBreak else false }
  let _ ← peek
  return word.filterMap Text.Symbol.char?

/-- A space or a tab. -/
def isSpace (c : Char) : Bool := c == ' ' || c == '\t'

/-- A part of a line end. -/
def isBreak (c : Char) : Bool := c == '\n' || c == '\r'

/-- Takes blanks. -/
def skipSpaces : Read Unit := do let _ ← takeRun isSpace

/-- Takes a comment from behind its mark; the line end stays. -/
def skipComment : Read Unit := do let _ ← takeRun (!isBreak ·)

/-! ### Strings -/

/-- Takes hexadecimal digits of an escape. `raw` holds the string up to here, last character first;
it gets the digits, too. -/
def takeCode (word : String) (letter : Char) : Nat → List Char → Read (List Char)
  | 0, raw => return raw
  | count + 1, raw => do
    let c ← next
    let raw := match c with
      | some c => c :: raw
      | none => raw
    if (c.map isHexDigit).getD false then takeCode word letter count raw
    else failAt c (.shortCode word letter (String.ofList raw.reverse))

/-- The letters of escapes that stand for one character. -/
def escapeLetters : List Char := ['b', 't', 'n', 'f', 'r', '\\', ' ', '\t', Text.doubleMark]

/-- Takes what follows a backslash. At the end of the text the fault is told one line above. -/
def takeEscape (raw : List Char) : Read (List Char) := do
  match ← next with
  | none => failAbove 1 (.unknownEscape (Char.ofNat 0))
  | some 'u' => takeCode "four" 'u' 4 ('u' :: raw)
  | some 'U' => takeCode "eight" 'U' 8 ('U' :: raw)
  | some c => if escapeLetters.contains c then return c :: raw else fail (.unknownEscape c)

/-- A mark inside the marks that a message puts around it. -/
def markText (mark : Char) (count : Nat) : String :=
  let outer := if mark == Text.doubleMark then Text.singleMark else Text.doubleMark
  String.ofList ([outer] ++ List.replicate count mark ++ [outer])

/-- Takes a string on one line from behind its opening mark to behind its closing one. Gives its
characters, the last one first. -/
def takeShort (mark : Char) : Nat → List Char → Read (List Char)
  | 0, raw => return raw
  | fuel + 1, raw => do
    match ← next with
    | none => failAtEnd (.openString (markText mark 1))
    | some c =>
      if isBreak c then failAbove 1 .breakInString
      else if c == mark then return raw
      else if c == '\\' && mark == Text.doubleMark then
        takeShort mark fuel (← takeEscape (c :: raw))
      else takeShort mark fuel (c :: raw)

/-- Does a string that has these characters, the last one first, end with more marks than may stand
before the closing ones? A mark that is escaped does not count. -/
def endsFull (mark : Char) (raw : List Char) : Bool :=
  raw.take 2 == [mark, mark] && !(mark == Text.doubleMark && raw[2]? == some '\\')

/-- Takes a string over several lines from behind its opening marks to behind its closing ones.
Gives its characters, the last one first. Up to two marks may stand before the closing ones. -/
def takeLong (mark : Char) : Nat → List Char → Read (List Char)
  | 0, raw => return raw
  | fuel + 1, raw => do
    match ← next with
    | none => failAtEnd (.openString (markText mark 3))
    | some c =>
      if c == '\\' && mark == Text.doubleMark then
        if ((← peek).map isBreak).getD false then
          takeLong mark fuel (c :: raw)
        else takeLong mark fuel (← takeEscape (c :: raw))
      else if c == mark then
        let back ← get
        if ← accept mark then
          if ← accept mark then
            if (← peek) == some mark then
              if endsFull mark raw then fail (.manyMarks (markText mark 6))
              set back
              takeLong mark fuel (c :: raw)
            else return raw
          else
            set back
            takeLong mark fuel (c :: raw)
        else takeLong mark fuel (c :: raw)
      else takeLong mark fuel (c :: raw)

/-- A string on one line, from behind its opening mark. Only double marks know escapes. -/
def readShort (mark : Char) : Read String := do
  let raw ← takeShort mark ((← get).rest.length + 1) []
  let s := raw.reverse
  String.ofList <$> if mark == Text.doubleMark then checked (unescape s) else pure s

/-- A string over several lines, from behind its opening marks. -/
def readLong (mark : Char) : Read String := do
  let raw ← takeLong mark ((← get).rest.length + 1) []
  let s := dropFirstBreak raw.reverse
  String.ofList <$> if mark == Text.doubleMark then checked (unescape (unfold s)) else pure s

/-- A string, from behind its first mark. -/
def readText (mark : Char) : Read String := do
  let back ← get
  if ← accept mark then
    if ← accept mark then readLong mark
    else
      set back
      readShort mark
  else readShort mark

/-! ### Keys -/

/-- A part of a key. -/
def readPart (c : Option Char) : Read String := do
  match c with
  | some mark =>
    if mark == Text.doubleMark || mark == Text.singleMark then
      let _ ← next
      readShort mark
    else String.ofList <$> takeRun isBareChar
  | none => return ""

/-- The name in a header of a table, up to its first closing bracket. -/
def readTableName : Nat → Read Key
  | 0 => return []
  | fuel + 1 => do
    skipSpaces
    let c ← peek
    if c == some ']' || c == none then fail .emptyTableName
    else if c == some '.' then fail .emptyTablePart
    else
      let part ← readPart c
      skipSpaces
      match ← next with
      | some '.' => return part :: (← readTableName fuel)
      | some ']' => return [part]
      | c => failAt c (.tableNameGoesOn c)

/-- The parts of a key, up to the sign before its value. -/
def readParts : Nat → Read Key
  | 0 => return []
  | fuel + 1 => do
    skipSpaces
    let c ← peek
    if c == some '=' || c == none then fail .missingKeyPart
    else if c == some '.' then fail .doubledDot
    else
      let part ← readPart c
      skipSpaces
      match ← next with
      | none => failAtEnd .keyWithoutValue
      | some '.' => return part :: (← readParts fuel)
      | some '=' => return [part]
      | some c => fail (.keyGoesOn c)

/-- A key, up to the sign before its value. -/
def readKey : Read Key := do
  skipSpaces
  let c ← peek
  if c == some '=' || c == none then fail .blankKey
  else if c == some '.' then fail .keyStartsWithDot
  else
    modify fun r => { r with tables := { r.tables with keyLine := r.line } }
    readParts ((← get).rest.length + 1)

/-! ### Numbers and dates -/

/-- A character of a date behind its first separator. -/
def isDateChar (c : Char) : Bool :=
  c.isDigit || ['-', ':', 'T', 't', ' ', '.', 'Z', 'z', '+'].contains c

/-- A character of a number behind its point or exponent. -/
def isFloatChar (c : Char) : Bool := c.isDigit || ['_', '.', '-', '+', 'e', 'E'].contains c

/-- The sign of a fraction or an exponent. -/
def isFloatMark (c : Char) : Bool := c == '.' || c == 'e' || c == 'E'

/-- A number with a fraction or an exponent that begins with `word`. -/
def readFloat (word : List Char) : Read Value := do
  let more ← takeRun isFloatChar
  checked (checkFloat (word ++ more))
  return .float

/-- A whole number. -/
def asInteger (word : List Char) : Read Value := do
  checked (checkInteger word)
  return .integer

/-- A number that begins with `word` and may have underscores. -/
def readDecimal (word : List Char) : Read Value := do
  let word := word ++ (← takeRun fun c => c.isDigit || c == '_')
  if ((← peek).map isFloatMark).getD false then readFloat word else asInteger word

/-- A number or a date that begins with the digits `word`. -/
def readNumberOrDate (word : List Char) : Read Value := do
  let word := word ++ (← takeRun Char.isDigit)
  match ← peek with
  | some c =>
    if c == '-' || c == ':' then
      let more ← takeRun isDateChar
      checked (checkDate (Text.trimEnds isSpace (word ++ more)))
      return .date
    else if c == '_' then readDecimal word
    else if isFloatMark c then readFloat word
    else asInteger word
  | none => asInteger word

/-- A whole number in another base, from behind its letter. -/
def readInBase (base : Nat) (letter : Char) (name : String) : Read Value := do
  let c ← peek
  let isDigit (c : Char) : Bool := (Text.digitValue? base c).isSome
  if !((c.map isDigit).getD false) then fail (.noDigits name (String.ofList ['0', letter]) c)
  let digits ← takeRun fun c => isDigit c || c == '_'
  asInteger ('0' :: letter :: digits)

/-- A number or a date that begins with a zero, which was taken. -/
def readAfterZero : Read Value := do
  match ← peek with
  | none => asInteger ['0']
  | some c =>
    if c.isDigit then readNumberOrDate ['0']
    else if c == '_' then readDecimal ['0']
    else if isFloatMark c then readFloat ['0']
    else if c == 'b' then let _ ← next; readInBase 2 c "a binary"
    else if c == 'o' then let _ ← next; readInBase 8 c "an octal"
    else if c == 'x' then let _ ← next; readInBase 16 c "a hexidecimal"
    else asInteger ['0']

/-- The rest of a word after a sign, of which the first letter was taken. -/
def readSignedWord (word : List Char) : List Char → Read Value
  | [] => do
    checked (checkFloat word)
    return .float
  | c :: more => do
    if ← accept c then readSignedWord (word ++ [c]) more
    else fail (.signedWord (String.ofList word))

/-- A number with a sign, which was taken. -/
def readSigned (sign : Char) : Read Value := do
  let c ← next
  match c with
  | some 'i' => readSignedWord [sign, 'i'] ['n', 'f']
  | some 'n' => readSignedWord [sign, 'n'] ['a', 'n']
  | some '.' => fail .pointWithoutDigit
  | some d =>
    if d == '0' then
      if let some letter ← peek then
        if ['b', 'o', 'x'].contains letter then
          fail (.signedBase (String.ofList [sign, d]) letter)
    if d.isDigit then readDecimal [sign, d] else fail (.signWithoutDigit c)
  | none => failAtEnd (.signWithoutDigit c)

/-! ### Words -/

/-- A word of letters, which has to be a truth value. -/
def readBool : Read Value := do
  let word := String.ofList (← takeRun Text.isLetter)
  if word == "true" then return .bool true
  else if word == "false" then return .bool false
  else fail (.noValueWord word)

/-- A value that begins with `c`, an `i` or an `n`: a number that is a word, or any other word. What
looked like the beginning of a number is not told. -/
def readWord (c : Char) : Read Value := do
  let start ← get
  let number (word : List Char) : Read Value := do
    checked (checkFloat word)
    return .float
  let _ ← next
  let afterFirst ← get
  let viaN ← accept 'n'
  let viaF ← if viaN then accept 'f' else pure false
  if viaF then number [c, 'n', 'f']
  else
    let beforeA ← get
    let word := if viaN then [c, 'n'] else [c]
    if ← accept 'a' then
      if ← accept 'n' then number (word ++ ['a', 'n'])
      else
        set beforeA
        readBool
    else
      set (if viaN then afterFirst else start)
      readBool

end ClassAudit.Toml
