import ClassAudit.Text.Basic
import ClassAudit.Text.Printable
import ClassAudit.Text.Utf8

/-!
# Quoted texts

Texts in double quotes, with escapes for what cannot be shown. Writing keeps printable
characters and escapes the rest; reading also knows octal and hexadecimal bytes, texts in single
quotes (one character) and texts in backquotes (no escapes).

## Main definitions

* `quote` - a text in double quotes; `quoteSymbols`, `quoteKept` - the same with stray bytes by
  their numbers.
* `Literal` - what a quoted text stands for: a text, or a byte string that is no text.
* `unquote` - the literal that a quoted form stands for, if the form is well formed.
-/

namespace ClassAudit.Text

/-! ### Marks -/

/-- The double quote. -/
def doubleMark : Char := Char.ofNat 34

/-- The apostrophe. -/
def singleMark : Char := Char.ofNat 39

/-- The backquote. -/
def backMark : Char := Char.ofNat 96

/-! ### Writing -/

/-- A lower-case hexadecimal digit. -/
def hexDigit (n : Nat) : Char :=
  if n % 16 < 10 then Char.ofNat (48 + n % 16) else Char.ofNat (87 + n % 16)

/-- The last `width` hexadecimal digits of a number. -/
def hexDigits : Nat → Nat → List Char
  | 0, _ => []
  | width + 1, n => hexDigits width (n / 16) ++ [hexDigit n]

/-- The escape letter of a control character that has one. -/
def escapeLetter? (c : Char) : Option Char :=
  match c.toNat with
  | 7 => some 'a'
  | 8 => some 'b'
  | 12 => some 'f'
  | 10 => some 'n'
  | 13 => some 'r'
  | 9 => some 't'
  | 11 => some 'v'
  | _ => none

/-- One character inside double quotes. -/
def quoteChar (c : Char) : List Char :=
  if c = doubleMark ∨ c = '\\' then ['\\', c]
  else if isPrintable c then [c]
  else match escapeLetter? c with
    | some letter => ['\\', letter]
    | none =>
      if c.toNat < 0x80 then '\\' :: 'x' :: hexDigits 2 c.toNat
      else if c.toNat < 0x10000 then '\\' :: 'u' :: hexDigits 4 c.toNat
      else '\\' :: 'U' :: hexDigits 8 c.toNat

/-- The characters of a text in double quotes. -/
def quoteChars (s : List Char) : List Char :=
  doubleMark :: (s.flatMap quoteChar ++ [doubleMark])

/-- A text in double quotes. -/
def quote (s : String) : String := String.ofList (quoteChars s.toList)

/-- A symbol between double marks, a stray byte by its number. -/
def quoteSymbol : Symbol → List Char
  | .char c => quoteChar c
  | .stray b => '\\' :: 'x' :: hexDigits 2 b.toNat

/-- Symbols in double quotes. -/
def quoteSymbols (s : List Symbol) : String :=
  String.ofList (doubleMark :: (s.flatMap quoteSymbol ++ [doubleMark]))

/-- A value in double quotes. -/
def quoteKept (s : String) : String := quoteSymbols (s.toList.map Symbol.ofKept)

/-- A single character between single marks, escaped like a text. -/
def quoteSingle (c : Char) : String :=
  let shown :=
    if c == singleMark then ['\\', c] else if c == doubleMark then [c] else quoteChar c
  String.ofList ([singleMark] ++ shown ++ [singleMark])

/-! ### Reading -/

/-- What a quoted form stands for. Byte escapes can spell a byte string that is not UTF-8; only
such a byte string is kept as `bytes`. -/
inductive Literal where
  | text (chars : List Char)
  | bytes (raw : List UInt8)
deriving DecidableEq, Repr

/-- The characters of a literal, a byte string in the forgiving reading. -/
def Literal.chars : Literal → List Char
  | .text chars => chars
  | .bytes raw => decodeForgiving raw

/-- A part of a quoted form: a character, or a byte from 80 to FF given by its number. -/
inductive Piece where
  | char (c : Char)
  | byte (b : UInt8)

/-- The characters of a sequence of pieces, if no piece is a byte. -/
def Piece.chars? : List Piece → Option (List Char)
  | [] => some []
  | .char c :: rest => (chars? rest).map (c :: ·)
  | .byte _ :: _ => none

/-- The bytes of a sequence of pieces. -/
def Piece.bytes : List Piece → List UInt8
  | [] => []
  | .char c :: rest => utf8Bytes (String.singleton c) ++ bytes rest
  | .byte b :: rest => b :: bytes rest

/-- The literal that a sequence of pieces spells. -/
def Literal.ofPieces (pieces : List Piece) : Literal :=
  match Piece.chars? pieces with
  | some chars => .text chars
  | none =>
    let raw := Piece.bytes pieces
    match String.fromUTF8? (ByteArray.mk raw.toArray) with
    | some s => .text s.toList
    | none => .bytes raw

/-- The value of a digit in a base up to 16. -/
def digitValue? (base : Nat) (c : Char) : Option Nat :=
  let n := c.toNat
  let v :=
    if 48 ≤ n ∧ n ≤ 57 then n - 48
    else if 97 ≤ n ∧ n ≤ 102 then n - 87
    else if 65 ≤ n ∧ n ≤ 70 then n - 55
    else 16
  if v < base then some v else none

/-- Reads exactly `count` digits after the value `acc`. -/
def readDigits (base : Nat) : Nat → Nat → List Char → Option (Nat × List Char)
  | 0, acc, s => some (acc, s)
  | _ + 1, _, [] => none
  | count + 1, acc, c :: s =>
    match digitValue? base c with
    | some v => readDigits base count (acc * base + v) s
    | none => none

/-- The piece of a byte given by its number. -/
def Piece.ofByte (n : Nat) : Piece :=
  if n < 0x80 then .char (Char.ofNat n) else .byte (UInt8.ofNat n)

/-- The piece of a character given by its code point, which must be one. -/
def Piece.ofCodePoint? (n : Nat) : Option Piece :=
  if n < 0xd800 ∨ (0xe000 ≤ n ∧ n < 0x110000) then some (.char (Char.ofNat n)) else none

/-- Reads an escape, after the backslash, in a text quoted by `mark`. -/
def readEscape (mark : Char) : List Char → Option (Piece × List Char)
  | [] => none
  | c :: s =>
    match c with
    | 'a' => some (.char (Char.ofNat 7), s)
    | 'b' => some (.char (Char.ofNat 8), s)
    | 'f' => some (.char (Char.ofNat 12), s)
    | 'n' => some (.char '\n', s)
    | 'r' => some (.char '\r', s)
    | 't' => some (.char '\t', s)
    | 'v' => some (.char (Char.ofNat 11), s)
    | 'x' => (readDigits 16 2 0 s).map fun (n, s) => (Piece.ofByte n, s)
    | 'u' => do
      let (n, s) ← readDigits 16 4 0 s
      return (← Piece.ofCodePoint? n, s)
    | 'U' => do
      let (n, s) ← readDigits 16 8 0 s
      return (← Piece.ofCodePoint? n, s)
    | '\\' => some (.char '\\', s)
    | _ =>
      if c = singleMark ∨ c = doubleMark then
        if c = mark then some (.char c, s) else none
      else do
        let (n, s) ← readDigits 8 3 0 (c :: s)
        if n < 256 then return (Piece.ofByte n, s) else none

/-- Reads the pieces up to the closing `mark`, which must be the last character; at most `fuel`
pieces. -/
def readPieces (mark : Char) : Nat → List Char → Option (List Piece)
  | _, [] => none
  | 0, c :: s => if c = mark ∧ s = [] then some [] else none
  | fuel + 1, c :: s =>
    if c = mark then (if s = [] then some [] else none)
    else if c = '\n' then none
    else do
      let (piece, s) ← if c = '\\' then readEscape mark s else some (.char c, s)
      return piece :: (← readPieces mark fuel s)

/-- The literal that a quoted form stands for. Line feeds must be escaped, except between
backquotes, where carriage returns are dropped and nothing is an escape. -/
def unquote : List Char → Option Literal
  | [] => none
  | mark :: s =>
    if mark = doubleMark then (readPieces mark s.length s).map Literal.ofPieces
    else if mark = singleMark then (readPieces mark 1 s).map Literal.ofPieces
    else if mark = backMark then
      match cutAt (· == backMark) s with
      | some (body, []) => some (.text (body.filter (· != '\r')))
      | _ => none
    else none

end ClassAudit.Text
