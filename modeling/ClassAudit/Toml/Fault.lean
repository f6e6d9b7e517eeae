import ClassAudit.Toml.Key

/-!
# Faults of TOML documents

## Main definitions

* `Toml.Cause` - what is wrong, with its wording.
* `Toml.Fault` - a cause with the line and the key where it was found.
-/

namespace ClassAudit.Toml

/-- What is wrong with a document. An absent character stands for the end of the text. -/
inductive Cause where
  /-- The text begins like one of another encoding. -/
  | zeroByte
  | controlChar (c : Char)
  | invalidByte (b : UInt8)
  /-- A line goes on after its statement. -/
  | lineGoesOn (found : Char)
  /-- A header of a table in an array has no second bracket. -/
  | openHeader (found : Option Char)
  | emptyTableName
  | emptyTablePart
  | tableNameGoesOn (found : Option Char)
  | blankKey
  | keyStartsWithDot
  | missingKeyPart
  | doubledDot
  | keyWithoutValue
  | keyGoesOn (found : Char)
  | missingValue
  | noValue (found : Char)
  | noValueWord (found : String)
  | pointWithoutDigit
  | lonelyComma
  | arrayGoesOn (found : Option Char)
  | tableGoesOn (found : Option Char)
  | trailingComma
  | breakInTable
  | breakInString
  /-- A string without its closing marks. -/
  | openString (marks : String)
  /-- More marks than a string can end with. -/
  | manyMarks (marks : String)
  | unknownEscape (c : Char)
  | shortCode (digits : String) (letter : Char) (found : String)
  | invalidCode (digits : String)
  | blankEscape (c : Char)
  | signedWord (found : String)
  | signedBase (found : String) (letter : Char)
  | signWithoutDigit (found : Option Char)
  | noDigits (base : String) (found : String) (next : Option Char)
  | integerUnderscores (text : String)
  | integerZeros (text : String)
  | integerRange (text : String)
  | floatUnderscores (text : String)
  | floatZeros (text : String)
  | floatPoint (text : String)
  | floatRange (text : String)
  | noFloat (text : String)
  | noDate (text : String)
  | keyTwice (key : Key)
  /-- A part of a key before the last one names no table. -/
  | noTable (key : Key)
  | noArray (key : Key)
  | tableOverValue (key : Key)
deriving DecidableEq, Repr

/-- A character in words. -/
def charInWords : Option Char → String
  | none => "end of file"
  | some c => String.ofList [Text.singleMark, c, Text.singleMark]

/-- A character between marks; the end of the text is told as a zero. -/
def charQuoted (c : Option Char) : String := Text.quoteSingle (c.getD (Char.ofNat 0))

/-- The wording of a cause. -/
def Cause.message : Cause → String
  | zeroByte =>
    "files cannot contain NULL bytes; probably using UTF-16; TOML files must be UTF-8"
  | controlChar c =>
    "TOML files cannot contain control characters: '0x" ++
      String.ofList (Text.hexDigits 2 c.toNat) ++ "'"
  | invalidByte b => "invalid UTF-8 byte: 0x" ++ String.ofList (Text.hexDigits 2 b.toNat)
  | lineGoesOn c =>
    "expected a top-level item to end with a newline, comment, or EOF, but got " ++
      Text.quoteSingle c ++ " instead"
  | openHeader c =>
    "expected end of table array name delimiter ']', but got " ++ charQuoted c ++ " instead"
  | emptyTableName => "unexpected end of table name (table names cannot be empty)"
  | emptyTablePart => "unexpected table separator (table names cannot be empty)"
  | tableNameGoesOn c =>
    "expected '.' or ']' to end table name, but got " ++ charQuoted c ++ " instead"
  | blankKey => "unexpected '=': key name appears blank"
  | keyStartsWithDot => "unexpected '.': keys cannot start with a '.'"
  | missingKeyPart => "unexpected '='"
  | doubledDot => "unexpected '.'"
  | keyWithoutValue => "unexpected EOF; expected key separator '='"
  | keyGoesOn c => "expected '.' or '=', but got " ++ Text.quoteSingle c ++ " instead"
  | missingValue => "unexpected EOF; expected value"
  | noValue c => "expected value but found " ++ Text.quoteSingle c ++ " instead"
  | noValueWord word => "expected value but found " ++ Text.quote word ++ " instead"
  | pointWithoutDigit => "floats must start with a digit, not '.'"
  | lonelyComma => "unexpected comma"
  | arrayGoesOn c =>
    "expected a comma (',') or array terminator (']'), but got " ++ charInWords c
  | tableGoesOn c =>
    "expected a comma or an inline table terminator '\x7d', but got " ++ charInWords c ++ " instead"
  | trailingComma => "trailing comma not allowed in inline tables"
  | breakInTable => "newlines not allowed within inline tables"
  | breakInString => "strings cannot contain newlines"
  | openString marks => "unexpected EOF; expected " ++ marks
  | manyMarks marks => "unexpected " ++ marks
  | unknownEscape c => "invalid escape in string '\\" ++ String.ofList [c] ++ "'"
  | shortCode digits letter found =>
    "expected " ++ digits ++ " hexadecimal digits after '\\" ++ String.ofList [letter] ++
      "', but got " ++ Text.quote found ++ " instead"
  | invalidCode digits => "Escaped character '\\u" ++ digits ++ "' is not valid UTF-8."
  | blankEscape c => "invalid escape: '\\" ++ String.ofList [c] ++ "'"
  | signedWord found => "invalid float: '" ++ found ++ "'"
  | signedBase found letter =>
    "cannot use sign with non-decimal numbers: '" ++ found ++ String.ofList [letter] ++ "'"
  | signWithoutDigit c => "expected a digit but got " ++ charQuoted c
  | noDigits base found next =>
    "not " ++ base ++ " number: '" ++ found ++ String.ofList [next.getD (Char.ofNat 0)] ++ "'"
  | integerUnderscores text =>
    "Invalid integer " ++ Text.quote text ++ ": underscores must be surrounded by digits"
  | integerZeros text => "Invalid integer " ++ Text.quote text ++ ": cannot have leading zeroes"
  | integerRange text => text ++ " is out of range for int64"
  | floatUnderscores text =>
    "Invalid float " ++ Text.quote text ++ ": underscores must be surrounded by digits"
  | floatZeros text => "Invalid float " ++ Text.quote text ++ ": cannot have leading zeroes"
  | floatPoint text =>
    "Invalid float " ++ Text.quote text ++ ": '.' must be followed by one or more digits"
  | floatRange text => text ++ " is out of range for float64"
  | noFloat text => "Invalid float value: " ++ Text.quote text
  | noDate text => "invalid datetime: " ++ Text.quote text
  | keyTwice key => "Key '" ++ keyText key ++ "' has already been defined."
  | noTable key => "Key '" ++ keyText key ++ "' was already created as a hash."
  | noArray key =>
    "Key '" ++ keyText key ++ "' was already created and cannot be used as an array."
  | tableOverValue key => Text.quote (keyText key) ++ " is not a table"

/-- What is wrong with a document, and where. -/
structure Fault where
  line : Int
  /-- The text of the key that was read last; empty for none. -/
  lastKey : String
  cause : Cause
deriving DecidableEq, Repr

/-- The beginning of a message that names a place. -/
def placeText (line : Int) (lastKey : String) : String :=
  "toml: line " ++ toString line ++
    (if lastKey == "" then ": " else " (last key " ++ Text.quote lastKey ++ "): ")

/-- The wording of a fault. -/
def Fault.message (f : Fault) : String := placeText f.line f.lastKey ++ f.cause.message

end ClassAudit.Toml
