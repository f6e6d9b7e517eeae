import ClassAudit.Text.Quoted
import ClassAudit.Yaml.Cursor

/-!
# Scalars

The three ways to write a text: plain, between quotation marks, and as an indented block. While a
text is read, its characters are kept in reverse order.

## Main definitions

* `Yaml.Gap` - the blanks and line breaks between two words, and what they stand for.
* `Yaml.readPlain` - a text without marks; it ends where something else begins.
* `Yaml.readQuoted` - a text between quotation marks.
* `Yaml.readBlock` - a literal or folded block.
-/

namespace ClassAudit.Yaml

/-! ### Gaps between words -/

/-- The blanks and line breaks between two words, both in reverse order. -/
structure Gap where
  /-- The blanks before the first line break. -/
  spaces : List Char := []
  breaks : List Char := []
deriving Repr, Inhabited

/-- Does the gap reach into another line? -/
def Gap.isBroken (g : Gap) : Bool := !g.breaks.isEmpty

/-- Line breaks between words: a single line feed stands for a space, and the first of several is
dropped. -/
def foldBreaks : List Char → List Char
  | [] => []
  | first :: others =>
    if first != '\n' then first :: others
    else if others.isEmpty then [' ']
    else others

/-- What a gap stands for. -/
def Gap.text (g : Gap) : List Char :=
  if g.isBroken then foldBreaks g.breaks.reverse else g.spaces.reverse

/-- Reads blanks and line breaks. After a line break no tab may stand before column `indent`.
`broken` tells whether a line break came before. -/
def readGap (indent : Int) (start : Mark) :
    Nat → Bool → Gap → Cursor → Except Fault (Gap × Cursor)
  | 0, _, gap, c => .ok (gap, c)
  | fuel + 1, broken, gap, c =>
    match c.rest with
    | [] => .ok (gap, c)
    | x :: _ =>
      if isBreak x then do
        let c ← c.need 2
        match c.break? with
        | some (b, after) =>
          readGap indent start fuel true { breaks := b :: gap.breaks } (← after.need 1)
        | none => return (gap, c)
      else if !isSpace x then .ok (gap, c)
      else if broken && (c.column : Int) < indent && x == '\t' then
        .error (c.faultAt start "found a tab character that violates indentation")
      else do
        let gap := if broken then gap else { gap with spaces := x :: gap.spaces }
        readGap indent start fuel broken gap (← c.skip.need 1)

/-! ### Plain texts -/

/-- Does a plain text end before this character? `rest` follows it. -/
def endsPlain (inFlow : Bool) (c : Char) (rest : List Char) : Bool :=
  (c == ':' && endsWord rest) ||
    (inFlow && (c == ',' || c == '?' || c == '[' || c == ']' || c == '\x7b' || c == '\x7d'))

/-- Reads the characters up to a blank or the end of a plain text. -/
def readPlainWord (inFlow : Bool) :
    Nat → List Char → Cursor → Except Fault (List Char × Cursor)
  | 0, word, c => .ok (word, c)
  | fuel + 1, word, c =>
    match c.rest with
    | [] => .ok (word, c)
    | x :: rest =>
      if isSpace x || isBreak x || endsPlain inFlow x rest then .ok (word, c)
      else do readPlainWord inFlow fuel (x :: word) (← c.skip.need 2)

/-- A text with the position after it. -/
structure Reading where
  text : List Char
  after : Cursor
  /-- Does a line end between the text and the position after it? -/
  broken : Bool := false
deriving Repr, Inhabited

/-- Reads a plain text. `indent` is the first column of its further lines outside of brackets. -/
def readPlain (inFlow : Bool) (indent : Int) (start : Mark) :
    Nat → List Char → Gap → Cursor → Except Fault Reading
  | 0, text, gap, c => .ok { text := text.reverse, after := c, broken := gap.isBroken }
  | fuel + 1, text, gap, c => do
    let c ← c.need 4
    let stop : Reading := { text := text.reverse, after := c, broken := gap.isBroken }
    if c.atDocumentMark || c.rest.head? == some '#' then return stop
    let (word, c) ← readPlainWord inFlow c.size [] c
    if word.isEmpty then return { stop with after := c }
    let text := word ++ gap.text.reverse ++ text
    if c.rest.isEmpty || !endsWord c.rest then return { text := text.reverse, after := c }
    let c ← c.need 1
    let (gap, c) ← readGap indent start c.size false {} c
    if !inFlow && (c.column : Int) < indent then
      return { text := text.reverse, after := c, broken := gap.isBroken }
    else readPlain inFlow indent start fuel text gap c

/-! ### Quoted texts -/

/-- The number of hexadecimal digits after an escape. -/
def escapeDigits (c : Char) : Nat :=
  if c == 'x' then 2 else if c == 'u' then 4 else if c == 'U' then 8 else 0

/-- The code point that a letter stands for after a backslash. -/
def escapeValue? (c : Char) : Option Nat :=
  match c with
  | '0' => some 0
  | 'a' => some 7
  | 'b' => some 8
  | 't' => some 9
  | '\t' => some 9
  | 'n' => some 10
  | 'v' => some 11
  | 'f' => some 12
  | 'r' => some 13
  | 'e' => some 0x1b
  | ' ' => some 0x20
  | '\\' => some 0x5c
  | 'N' => some 0x85
  | '_' => some 0xa0
  | 'L' => some 0x2028
  | 'P' => some 0x2029
  | c => if c == Text.doubleMark || c == Text.singleMark then some c.toNat else none

/-- The value of hexadecimal digits. -/
def hexValue? (s : List Char) : Option Nat :=
  s.foldlM (fun n c => (Text.digitValue? 16 c).map fun d => 16 * n + d) 0

/-- Reads the escape at a position, the backslash of which comes first. -/
def readEscape (start : Mark) (c : Cursor) : Except Fault (Char × Cursor) :=
  match c.rest.drop 1 with
  | [] => .error (c.faultAt start "found unknown escape character")
  | e :: _ =>
    let n := escapeDigits e
    if n == 0 then
      match escapeValue? e with
      | some v => .ok (Char.ofNat v, c.skip.skip)
      | none => .error (c.faultAt start "found unknown escape character")
    else do
      let c ← c.skip.skip.need n
      let digits := c.rest.take n
      match (if digits.length < n then none else hexValue? digits) with
      | none => throw (c.faultAt start "did not find expected hexdecimal number")
      | some v =>
        if (0xd800 ≤ v && v ≤ 0xdfff) || 0x10ffff < v then
          throw (c.faultAt start "found invalid Unicode character escape code")
        else return (Char.ofNat v, Cursor.skipMany n c)

/-- Reads the characters up to a blank, a line break, the closing mark or an escaped line break,
after which the position is on the next line and the second result is true. -/
def readQuotedWord (single : Bool) (start : Mark) :
    Nat → List Char → Cursor → Except Fault (List Char × Bool × Cursor)
  | 0, text, c => .ok (text, false, c)
  | fuel + 1, text, c =>
    match c.rest with
    | [] => .ok (text, false, c)
    | q :: rest =>
      if isSpace q || isBreak q then .ok (text, false, c)
      else if single && q == Text.singleMark then
        if rest.head? == some Text.singleMark then do
          readQuotedWord single start fuel (q :: text) (← c.skip.skip.need 2)
        else .ok (text, false, c)
      else if !single && q == Text.doubleMark then .ok (text, false, c)
      else if !single && q == '\\' then
        if startsBreak rest then do
          let c ← c.need 3
          return (text, true, ← c.skip.skipBreak)
        else do
          let (e, c) ← readEscape start c
          readQuotedWord single start fuel (e :: text) (← c.need 2)
      else do readQuotedWord single start fuel (q :: text) (← c.skip.need 2)

/-- Reads a text between quotation marks, from behind the opening mark to behind the closing
one. -/
def readQuoted (single : Bool) (start : Mark) :
    Nat → List Char → Cursor → Except Fault Reading
  | 0, _, c => .error (c.faultAt start "found unexpected end of stream")
  | fuel + 1, text, c => do
    let c ← c.need 4
    if c.atDocumentMark then throw (c.faultAt start "found unexpected document indicator")
    if c.rest.isEmpty then throw (c.faultAt start "found unexpected end of stream")
    let (text, escaped, c) ← readQuotedWord single start c.size text c
    let c ← c.need 1
    let mark := if single then Text.singleMark else Text.doubleMark
    if c.rest.head? == some mark then return { text := text.reverse, after := c.skip }
    let (gap, c) ← readGap 0 start c.size escaped {} c
    let between := if escaped then gap.breaks else gap.text.reverse
    readQuoted single start fuel (between ++ text) c

/-! ### Blocks -/

/-- What becomes of the line breaks at the end of a block. -/
inductive Chomp where
  /-- All are dropped. -/
  | strip
  /-- One is kept. -/
  | clip
  /-- All are kept. -/
  | keep
deriving DecidableEq, Repr

/-- The mark at the head of a block that tells what becomes of its last line breaks. -/
def Chomp.ofChar? (c : Char) : Option Chomp :=
  if c == '+' then some .keep else if c == '-' then some .strip else none

/-- The indentation that is told at the head of a block, 0 for none. -/
def readIncrement (start : Mark) (c : Cursor) : Except Fault (Nat × Cursor) :=
  match c.rest.head? with
  | some d =>
    if d == '0' then .error (c.faultAt start "found an indentation indicator equal to 0")
    else if d.isDigit then .ok (d.toNat - 48, c.skip)
    else .ok (0, c)
  | none => .ok (0, c)

/-- The head of a block: what becomes of the last line breaks, and the indentation beyond the
surrounding one, 0 when it is not told. -/
def readBlockHead (start : Mark) (c : Cursor) : Except Fault (Chomp × Nat × Cursor) := do
  let chomp? (c : Cursor) : Option Chomp := c.rest.head?.bind Chomp.ofChar?
  let c ← c.need 1
  match chomp? c with
  | some chomp =>
    let (n, c) ← readIncrement start (← c.skip.need 1)
    return (chomp, n, c)
  | none =>
    let (n, c) ← readIncrement start c
    if n == 0 then return (.clip, n, c)
    let c ← c.need 1
    match chomp? c with
    | some chomp => return (chomp, n, c.skip)
    | none => return (.clip, n, c)

/-- Skips spaces, up to the column `indent` unless that is 0. -/
def skipIndent (indent : Nat) : Nat → Cursor → Except Fault Cursor
  | 0, c => .ok c
  | fuel + 1, c =>
    if (indent == 0 || c.column < indent) && c.rest.head? == some ' ' then do
      skipIndent indent fuel (← c.skip.need 1)
    else .ok c

/-- Reads the indentation and the empty lines before the next line of a block. An unknown
indentation is 0. Gives the line breaks, the widest indentation seen, and the position reached. -/
def readBlockBreaks (indent : Nat) (start : Mark) :
    Nat → List Char → Nat → Cursor → Except Fault (List Char × Nat × Cursor)
  | 0, breaks, widest, c => .ok (breaks, widest, c)
  | fuel + 1, breaks, widest, c => do
    let c ← c.need 1
    let c ← skipIndent indent c.size c
    let widest := max widest c.column
    if (indent == 0 || c.column < indent) && c.rest.head? == some '\t' then
      throw (c.faultAt start "found a tab character where an indentation space is expected")
    if !startsBreak c.rest then return (breaks, widest, c)
    let c ← c.need 2
    match c.break? with
    | some (b, after) => readBlockBreaks indent start fuel (b :: breaks) widest after
    | none => return (breaks, widest, c)

/-- The text of a block while it is read: what is known to belong to it, the break after its last
line, the breaks of the empty lines after that, and whether that line began with a blank. -/
structure BlockText where
  text : List Char := []
  lineBreak : List Char := []
  emptyLines : List Char := []
  blankStart : Bool := false
deriving Repr, Inhabited

/-- Adds a line to a block, given in reverse order. In a folded block the break before a line
becomes a space, unless one of the two lines begins with a blank or empty lines stand between
them. -/
def BlockText.addLine (b : BlockText) (literal blank : Bool) (line : List Char) : BlockText :=
  let joined :=
    if !literal && !b.blankStart && !blank && b.lineBreak == ['\n'] then
      if b.emptyLines.isEmpty then [' '] else []
    else b.lineBreak
  { text := line ++ b.emptyLines ++ joined ++ b.text, blankStart := blank }

/-- Reads the lines of a block. -/
def readBlockLines (literal : Bool) (indent : Nat) (start : Mark) :
    Nat → BlockText → Cursor → Except Fault (BlockText × Cursor)
  | 0, b, c => .ok (b, c)
  | fuel + 1, b, c =>
    if c.column != indent || c.rest.isEmpty then .ok (b, c)
    else do
      let blank := (c.rest.head?.map isSpace).getD false
      let (line, c) ← c.readWhile (!isBreak ·)
      let c ← c.need 2
      let (lineBreak, c) := match c.break? with
        | some (b, after) => ([b], after)
        | none => ([], c)
      let (emptyLines, _, c) ← readBlockBreaks indent start c.size [] 0 c
      readBlockLines literal indent start fuel
        { b.addLine literal blank line with lineBreak, emptyLines } c

/-- Reads a literal or folded block, from behind its first mark. `outer` is the surrounding
indentation, -1 for none. -/
def readBlock (literal : Bool) (outer : Int) (start : Mark) (c : Cursor) :
    Except Fault Reading := do
  let (chomp, increment, c) ← readBlockHead start c
  let c ← (← c.need 1).skipWhile isSpace
  let c ← if c.rest.head? == some '#' then c.skipWhile (!isBreak ·) else pure c
  if !endsLine c.rest then throw (c.faultAt start "did not find expected comment or line break")
  let c ← c.skipBreak
  let known := if increment == 0 then 0 else (max outer 0).toNat + increment
  let (emptyLines, widest, c) ← readBlockBreaks known start c.size [] 0 c
  let indent := if known == 0 then max widest (max (outer + 1).toNat 1) else known
  let (b, c) ← readBlockLines literal indent start c.size { emptyLines } (← c.need 1)
  let ending := match chomp with
    | .strip => []
    | .clip => b.lineBreak
    | .keep => b.emptyLines ++ b.lineBreak
  return { text := (ending ++ b.text).reverse, after := c }

end ClassAudit.Yaml
