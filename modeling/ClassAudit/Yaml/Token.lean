import ClassAudit.Yaml.Scalar
import ClassAudit.Yaml.Source

/-!
# The tokens of a YAML text

A text is cut into tokens. Indentation becomes tokens, too: where a block collection begins and
ends. Whether a text is the key of a mapping shows only at the colon behind it, so tokens may have
to be put in before tokens that were already read. For this reason tokens wait in a queue, and the
first of them is given away only when two more are known and no colon can make it a key.

## Main definitions

* `Yaml.Token` - a token with its line.
* `Yaml.Scanner` - the state of the reading; `Yaml.Scanner.next` - one step of it.
* `Yaml.Scanner.peek` - the first token of the queue; `Yaml.Scanner.pop` - takes it away.
-/

namespace ClassAudit.Yaml

/-- What a token says. -/
inductive TokenKind where
  | streamEnd
  | versionDirective (major minor : Nat)
  | tagDirective (handle beginning : String)
  | documentStart
  | documentEnd
  | blockSequenceStart
  | blockMappingStart
  | blockEnd
  | flowSequenceStart
  | flowSequenceEnd
  | flowMappingStart
  | flowMappingEnd
  | blockEntry
  | flowEntry
  | key
  | value
  | reference (name : String)
  | anchor (name : String)
  | tag (handle suffix : String)
  | scalar (text : String) (isPlain : Bool)
deriving DecidableEq, Repr, Inhabited

/-- A token with the line that it begins on. -/
structure Token where
  kind : TokenKind
  line : Nat
deriving DecidableEq, Repr, Inhabited

/-- A token that may turn out to be a key, should a colon follow. -/
structure PossibleKey where
  /-- Can it still be a key? -/
  possible : Bool := false
  /-- Has a colon to follow? -/
  required : Bool := false
  /-- The number of the token. -/
  number : Nat := 0
  mark : Mark := {}
deriving Repr, Inhabited

/-- The state of the reading. -/
structure Scanner where
  cursor : Cursor
  /-- The tokens that were read and not given away. -/
  queue : List Token := []
  /-- The number of tokens that were given away. -/
  taken : Nat := 0
  /-- The column of the innermost block collection, -1 for none, and those around it. -/
  indent : Int := -1
  outer : List Int := []
  /-- The number of block collections around the current position. -/
  depth : Nat := 0
  /-- May a key begin here? -/
  keyAllowed : Bool := true
  /-- The number of open brackets. -/
  flowDepth : Nat := 0
  /-- The possible keys inside of each open bracket, innermost first, and the one outside. -/
  keys : List PossibleKey := [{}]
  /-- The numbers of tokens that may be keys, with the number of brackets around them. -/
  levels : List (Nat × Nat) := []
deriving Repr, Inhabited

namespace Scanner

/-- Are there open brackets? -/
def inFlow (s : Scanner) : Bool := 0 < s.flowDepth

/-- Adds a token that begins at the current position. -/
def push (s : Scanner) (kind : TokenKind) : Scanner :=
  { s with queue := s.queue ++ [{ kind, line := s.cursor.line }] }

/-- Puts a token in before the token with a given number, or at the end if that was given away. -/
def insertAt (s : Scanner) (number : Nat) (token : Token) : Scanner :=
  if number < s.taken then { s with queue := s.queue ++ [token] }
  else
    let place := number - s.taken
    { s with queue := s.queue.take place ++ token :: s.queue.drop place }

/-! ### Indentation -/

/-- How deep collections may lie in each other. -/
def depthLimit : Nat := 10000

/-- Collections lie too deep in each other. -/
def tooDeep (s : Scanner) (at_ : Mark) : Fault :=
  s.cursor.faultAt at_ ("exceeded max depth of " ++ toString depthLimit)

/-- Opens a block collection at a column that lies deeper than those around it, before the token
with a given number or else at the end of the queue. -/
def openBlock (s : Scanner) (column : Nat) (before : Option Nat) (line : Nat) (kind : TokenKind) :
    Except Fault Scanner :=
  if s.inFlow || column ≤ s.indent then .ok s
  else if depthLimit ≤ s.depth then
    .error (s.tooDeep ((s.keys.head?.map (·.mark)).getD {}))
  else
    let s := { s with indent := column, outer := s.indent :: s.outer, depth := s.depth + 1 }
    .ok (s.insertAt (before.getD (s.taken + s.queue.length)) { kind, line })

/-- Closes the block collections that lie deeper than a column. -/
def closeBlocks (column : Int) : List Int → Scanner → Scanner
  | [], s => s
  | enclosing :: outer, s =>
    if column < s.indent then
      closeBlocks column outer
        { s.push .blockEnd with indent := enclosing, outer, depth := s.depth - 1 }
    else s

/-- Closes the block collections that lie deeper than a column; brackets keep them open. -/
def unindent (s : Scanner) (column : Int) : Scanner :=
  if s.inFlow then s else closeBlocks column s.outer s

/-! ### Keys -/

/-- A key has to be followed by a colon and is not. -/
def missingColon (s : Scanner) (k : PossibleKey) : Fault :=
  s.cursor.faultAt k.mark "could not find expected ':'"

/-- The levels without the entry of a token. -/
def forget (number : Nat) (levels : List (Nat × Nat)) : List (Nat × Nat) :=
  levels.eraseP fun l => l.1 == number

/-- Gives up the possible key. -/
def dropKey (s : Scanner) : Except Fault Scanner :=
  match s.keys with
  | k :: keys =>
    if !k.possible then .ok s
    else if k.required then .error (s.missingColon k)
    else
      .ok { s with keys := { k with possible := false } :: keys
                   levels := forget k.number s.levels }
  | [] => .ok s

/-- Notes that the next token may be a key. -/
def noteKey (s : Scanner) : Except Fault Scanner := do
  if !s.keyAllowed then return s
  let k : PossibleKey :=
    { possible := true
      required := !s.inFlow && s.indent == s.cursor.column
      number := s.taken + s.queue.length
      mark := s.cursor.mark }
  let s ← s.dropKey
  return { s with keys := k :: s.keys.tail, levels := (k.number, s.flowDepth) :: s.levels }

/-- The number of characters that a key may have. -/
def keyLimit : Nat := 1024

/-- Is there a possible key with a number of brackets around it? Too much text or a line break
behind it makes it impossible. -/
def checkKey (s : Scanner) (level : Nat) : Except Fault (Bool × Scanner) :=
  let place := s.flowDepth - level
  match s.keys[place]? with
  | none => .ok (false, s)
  | some k =>
    if !k.possible then .ok (false, s)
    else if k.mark.line < s.cursor.line || k.mark.index + keyLimit < s.cursor.index then
      if k.required then .error (s.missingColon k)
      else .ok (false, { s with keys := s.keys.set place { k with possible := false } })
    else .ok (true, s)

/-! ### White space -/

/-- The mark that may stand before a text to tell its encoding. -/
def orderMark : Char := Char.ofNat 0xfeff

/-- Skips blanks, comments and line breaks. A tab may not stand where a key may begin. When the part
of the text that was taken in last began with an order mark, every line loses its first
character. -/
def skipBlanks : Nat → Scanner → Except Fault Scanner
  | 0, s => .ok s
  | fuel + 1, s => do
    let c ← s.cursor.need 1
    let c := if c.column == 0 && c.opening == some orderMark then c.skip else c
    let c ← c.need 1
    let tabs := s.inFlow || !s.keyAllowed
    let c ← c.skipWhile fun x => x == ' ' || (tabs && x == '\t')
    let c ←
      if c.rest.head? == some '#' then Cursor.skipComments c.size Cursor.commentReach 0 c
      else pure c
    if startsBreak c.rest then
      skipBlanks fuel
        { s with cursor := ← c.skipBreak, keyAllowed := s.keyAllowed || !s.inFlow }
    else return { s with cursor := c }

/-! ### Tokens of one or few characters -/

/-- Adds a token and skips the characters that it is written with. -/
def take (s : Scanner) (kind : TokenKind) (length : Nat) : Scanner :=
  { s.push kind with cursor := Cursor.skipMany length s.cursor }

/-- The end of the text. -/
def atEnd (s : Scanner) : Except Fault Scanner := do
  let c := s.cursor
  let s := { s with cursor := if c.column == 0 then c else { c with column := 0, line := c.line + 1 } }
  let s ← (s.unindent (-1)).dropKey
  return { s with keyAllowed := false }.push .streamEnd

/-- The mark before or after a document. -/
def documentMark (s : Scanner) (kind : TokenKind) : Except Fault Scanner := do
  let s ← (s.unindent (-1)).dropKey
  return { s with keyAllowed := false }.take kind 3

/-- An opening bracket. -/
def openFlow (s : Scanner) (kind : TokenKind) : Except Fault Scanner := do
  let s ← s.noteKey
  if depthLimit ≤ s.flowDepth then throw (s.tooDeep s.cursor.mark)
  let inner : PossibleKey := { number := s.taken + s.queue.length, mark := s.cursor.mark }
  return { s with keys := inner :: s.keys, flowDepth := s.flowDepth + 1, keyAllowed := true }.take
    kind 1

/-- A closing bracket. -/
def closeFlow (s : Scanner) (kind : TokenKind) : Except Fault Scanner := do
  let s ← s.dropKey
  let s := match s.inFlow, s.keys with
    | true, k :: keys =>
      { s with keys, flowDepth := s.flowDepth - 1, levels := forget k.number s.levels }
    | _, _ => s
  return { s with keyAllowed := false }.take kind 1

/-- A comma between brackets. -/
def flowEntry (s : Scanner) : Except Fault Scanner := do
  let s ← s.dropKey
  return { s with keyAllowed := true }.take .flowEntry 1

/-- A hyphen before an entry. -/
def blockEntry (s : Scanner) : Except Fault Scanner := do
  if !s.inFlow && !s.keyAllowed then
    throw (s.cursor.faultAt s.cursor.mark "block sequence entries are not allowed in this context")
  let s ← s.openBlock s.cursor.column none s.cursor.line .blockSequenceStart
  let s ← s.dropKey
  return { s with keyAllowed := true }.take .blockEntry 1

/-- A question mark before a key. -/
def explicitKey (s : Scanner) : Except Fault Scanner := do
  if !s.inFlow && !s.keyAllowed then
    throw (s.cursor.faultAt s.cursor.mark "mapping keys are not allowed in this context")
  let s ← s.openBlock s.cursor.column none s.cursor.line .blockMappingStart
  let s ← s.dropKey
  return { s with keyAllowed := !s.inFlow }.take .key 1

/-- A colon before a value. -/
def value (s : Scanner) : Except Fault Scanner := do
  let (isKey, s) ← s.checkKey s.flowDepth
  match isKey, s.keys with
  | true, k :: keys =>
    let s := s.insertAt k.number { kind := .key, line := k.mark.line }
    let s ← s.openBlock k.mark.column (some k.number) k.mark.line .blockMappingStart
    return { s with keys := { k with possible := false } :: keys
                    levels := forget k.number s.levels, keyAllowed := false }.take .value 1
  | _, _ =>
    if s.inFlow then return { s with keyAllowed := false }.take .value 1
    else if !s.keyAllowed then
      throw (s.cursor.faultAt s.cursor.mark "mapping values are not allowed in this context")
    else
      let s ← s.openBlock s.cursor.column none s.cursor.line .blockMappingStart
      return { s with keyAllowed := true }.take .value 1

/-! ### Names -/

/-- Adds a token that was read from the current position to another one. -/
def advance (s : Scanner) (kind : TokenKind) (after : Cursor) : Scanner :=
  { s.push kind with cursor := after }

/-- Reads a name. -/
def readName (c : Cursor) : Except Fault (String × Cursor) := do
  let (name, c) ← (← c.need 1).readWhile isNameChar
  return (String.ofList name.reverse, c)

/-- An anchor or an alias. -/
def anchor (s : Scanner) (make : String → TokenKind) : Except Fault Scanner := do
  let s ← s.noteKey
  let start := s.cursor.mark
  let (name, after) ← readName s.cursor.skip
  let ends := endsWord after.rest ||
    (after.rest.head?.map ("?:,]\x7d%@".toList ++ [Text.backMark]).contains).getD false
  if name == "" || !ends then
    throw (after.faultAt start "did not find expected alphabetic or numeric character")
  return { s with keyAllowed := false }.advance (make name) after

/-! ### Tags -/

/-- A character that a tag may hold. -/
def isTagChar (c : Char) : Bool :=
  isNameChar c || ";/?:@&=+$.!~*()[],%".toList.contains c || c == Text.singleMark

/-- Reads a byte that is written as a percent sign and two hexadecimal digits. -/
def readOctet (start : Mark) (c : Cursor) : Except Fault (UInt8 × Cursor) := do
  let c ← c.need 3
  let value := match c.rest with
    | '%' :: a :: b :: _ => hexValue? [a, b]
    | _ => none
  match value with
  | some v => return (UInt8.ofNat v, Cursor.skipMany 3 c)
  | none => throw (c.faultAt start "did not find URI escaped octet")

/-- Reads the last bytes of a character, in reverse order. -/
def readTailOctets (start : Mark) :
    Nat → List UInt8 → Cursor → Except Fault (List UInt8 × Cursor)
  | 0, bytes, c => .ok (bytes, c)
  | n + 1, bytes, c => do
    let (b, after) ← readOctet start c
    if !Text.isTail b then throw (c.faultAt start "found an incorrect trailing UTF-8 octet")
    readTailOctets start n (b :: bytes) after

/-- Reads a character whose bytes are written as hexadecimal numbers, in reverse order. -/
def readOctets (start : Mark) (c : Cursor) : Except Fault (List UInt8 × Cursor) := do
  let (first, after) ← readOctet start c
  let width := octetWidth first
  if width == 0 then throw (c.faultAt start "found an incorrect leading UTF-8 octet")
  readTailOctets start (width - 1) [first] after

/-- Reads the characters of a tag, as bytes in reverse order. -/
def readTagBytes (start : Mark) :
    Nat → List UInt8 → Cursor → Except Fault (List UInt8 × Cursor)
  | 0, bytes, c => .ok (bytes, c)
  | fuel + 1, bytes, c =>
    match c.rest with
    | [] => .ok (bytes, c)
    | x :: _ =>
      if !isTagChar x then .ok (bytes, c)
      else if x == '%' then do
        let (more, c) ← readOctets start c
        readTagBytes start fuel (more ++ bytes) (← c.need 1)
      else do readTagBytes start fuel (UInt8.ofNat x.toNat :: bytes) (← c.skip.need 1)

/-- Reads the characters of a tag; nothing stands only if `mayBeEmpty`. -/
def readTagText (start : Mark) (mayBeEmpty : Bool) (c : Cursor) :
    Except Fault (String × Cursor) := do
  let c ← c.need 1
  let (bytes, c) ← readTagBytes start c.size [] c
  if bytes.isEmpty && !mayBeEmpty then throw (c.faultAt start "did not find expected tag URI")
  return (String.ofList (Text.decodeKeeping bytes.reverse), c)

/-- A tag: in angle brackets, or a handle between exclamation marks and what follows it. -/
def tag (s : Scanner) : Except Fault Scanner := do
  let s ← s.noteKey
  let start := s.cursor.mark
  let c ← s.cursor.need 2
  let (handle, suffix, after) ←
    if c.rest[1]? == some '<' then do
      let (uri, c) ← readTagText start false c.skip.skip
      if c.rest.head? != some '>' then throw (c.faultAt start "did not find the expected '>'")
      pure ("", uri, c.skip)
    else do
      let (name, c) ← readName c.skip
      if c.rest.head? == some '!' then
        let (uri, c) ← readTagText start false c.skip
        pure ("!" ++ name ++ "!", uri, c)
      else
        let (uri, c) ← readTagText start true c
        pure (if name ++ uri == "" then ("", "!", c) else ("!", name ++ uri, c))
  let after ← after.need 1
  if !endsWord after.rest then
    throw (after.faultAt start "did not find expected whitespace or line break")
  return { s with keyAllowed := false }.advance (.tag handle suffix) after

/-! ### Directives -/

/-- Reads a number of at most two digits, `count` of which were read. -/
def readVersionNumber (start : Mark) :
    Nat → Nat → Cursor → Except Fault (Nat × Cursor)
  | fuel, value, c => do
    let c ← c.need 1
    match c.rest.head?, fuel with
    | some d, fuel + 1 =>
      if d.isDigit then readVersionNumber start fuel (10 * value + (d.toNat - 48)) c.skip
      else return (value, c)
    | some d, 0 =>
      if d.isDigit then throw (c.faultAt start "found extremely long version number")
      else return (value, c)
    | none, _ => return (value, c)

/-- Reads a part of a version. -/
def readVersionPart (start : Mark) (c : Cursor) : Except Fault (Nat × Cursor) := do
  let c ← c.need 1
  if !(c.rest.head?.map Char.isDigit).getD false then
    throw (c.faultAt start "did not find expected version number")
  readVersionNumber start 2 0 c

/-- Reads a version. -/
def readVersion (start : Mark) (c : Cursor) : Except Fault (TokenKind × Cursor) := do
  let c ← (← c.need 1).skipWhile isSpace
  let (major, c) ← readVersionPart start c
  if c.rest.head? != some '.' then
    throw (c.faultAt start "did not find expected digit or '.' character")
  let (minor, c) ← readVersionPart start c.skip
  return (.versionDirective major minor, c)

/-- Reads a handle for tags and what it stands for. -/
def readTagHandle (start : Mark) (c : Cursor) : Except Fault (TokenKind × Cursor) := do
  let c ← (← c.need 1).skipWhile isSpace
  if c.rest.head? != some '!' then throw (c.faultAt start "did not find expected '!'")
  let (name, c) ← readName c.skip
  let closed := c.rest.head? == some '!'
  if !closed && name != "" then throw (c.faultAt start "did not find expected '!'")
  let (handle, c) := if closed then ("!" ++ name ++ "!", c.skip) else ("!", c)
  let c ← c.need 1
  if !(c.rest.head?.map isSpace).getD false then
    throw (c.faultAt start "did not find expected whitespace")
  let c ← c.skipWhile isSpace
  let (uri, c) ← readTagText start false c
  let c ← c.need 1
  if !endsWord c.rest then
    throw (c.faultAt start "did not find expected whitespace or line break")
  return (.tagDirective handle uri, c)

/-- A directive before a document. -/
def directive (s : Scanner) : Except Fault Scanner := do
  let s ← (s.unindent (-1)).dropKey
  let start := s.cursor.mark
  let (name, c) ← readName s.cursor.skip
  if name == "" then throw (c.faultAt start "could not find expected directive name")
  if !endsWord c.rest then throw (c.faultAt start "found unexpected non-alphabetical character")
  let (kind, c) ←
    if name == "YAML" then readVersion start c
    else if name == "TAG" then readTagHandle start c
    else throw (c.faultAt start "found unknown directive name")
  let c ← (← c.need 1).skipWhile isSpace
  let c ← if c.rest.head? == some '#' then c.skipWhile (!isBreak ·) else pure c
  if !endsLine c.rest then throw (c.faultAt start "did not find expected comment or line break")
  return { s with keyAllowed := false }.advance kind (← c.skipBreak)

/-! ### Scalars -/

/-- Adds a text that was read. -/
def scalar (s : Scanner) (r : Reading) (isPlain : Bool) : Scanner :=
  s.advance (.scalar (String.ofList r.text) isPlain) r.after

/-- A text between quotation marks. -/
def quoted (s : Scanner) (single : Bool) : Except Fault Scanner := do
  let s ← s.noteKey
  let r ← readQuoted single s.cursor.mark s.cursor.size [] s.cursor.skip
  return { s.scalar r false with keyAllowed := false }

/-- A literal or folded block. -/
def block (s : Scanner) (literal : Bool) : Except Fault Scanner := do
  let s ← s.dropKey
  let r ← readBlock literal s.indent s.cursor.mark s.cursor.skip
  return { s.scalar r false with keyAllowed := true }

/-- A plain text. -/
def plain (s : Scanner) : Except Fault Scanner := do
  let s ← s.noteKey
  let r ← readPlain s.inFlow (s.indent + 1) s.cursor.mark s.cursor.size [] {} s.cursor
  return { s.scalar r true with keyAllowed := r.broken }

/-- Characters that cannot begin a plain text. -/
def isIndicator (c : Char) : Bool :=
  "-?:,[]\x7b\x7d#&*!|>%@".toList.contains c || c == Text.singleMark || c == Text.doubleMark ||
    c == Text.backMark

/-! ### Steps -/

/-- Reads the token that begins with a character which is no blank and marks off no document;
`rest` follows it. -/
def fetch (s : Scanner) (c : Char) (rest : List Char) : Except Fault Scanner :=
  if c == '[' then s.openFlow .flowSequenceStart
  else if c == '\x7b' then s.openFlow .flowMappingStart
  else if c == ']' then s.closeFlow .flowSequenceEnd
  else if c == '\x7d' then s.closeFlow .flowMappingEnd
  else if c == ',' then s.flowEntry
  else if c == '-' && endsWord rest then s.blockEntry
  else if c == '?' && (s.inFlow || endsWord rest) then s.explicitKey
  else if c == ':' && (s.inFlow || endsWord rest) then s.value
  else if c == '*' then s.anchor .reference
  else if c == '&' then s.anchor .anchor
  else if c == '!' then s.tag
  else if c == '|' && !s.inFlow then s.block true
  else if c == '>' && !s.inFlow then s.block false
  else if c == Text.singleMark then s.quoted true
  else if c == Text.doubleMark then s.quoted false
  else if (!isSpace c && !isBreak c && !isIndicator c) || c == '-' ||
      (!s.inFlow && (c == '?' || c == ':') && !endsWord rest) then s.plain
  else .error (s.cursor.faultAt s.cursor.mark "found character that cannot start any token")

/-- Skips the comment that follows the latest token on its line. A comment behind the hyphen of an
entry belongs to what comes after it. -/
def skipLineComment (s : Scanner) : Except Fault Scanner := do
  if s.queue.getLast?.map (·.kind) == some .blockEntry then return s
  return { s with cursor := ← s.cursor.skipLineComment }

/-- Reads the next token. -/
def next (s : Scanner) : Except Fault Scanner := do
  let s ← skipBlanks s.cursor.size { s with cursor := ← s.cursor.need 1 }
  let s := s.unindent s.cursor.column
  let s := { s with cursor := ← s.cursor.need 4 }
  match s.cursor.rest with
  | [] => s.atEnd
  | c :: rest =>
    if s.cursor.column == 0 && c == '%' then s.directive
    else if s.cursor.atDocumentMark then
      s.documentMark (if c == '-' then .documentStart else .documentEnd)
    else (← s.fetch c rest).skipLineComment

/-- Reads tokens until the first of the queue is settled. -/
def settle : Nat → Scanner → Except Fault Scanner
  | 0, s => .ok s
  | fuel + 1, s => do
    match s.queue with
    | _ :: _ :: _ :: _ =>
      match s.levels.lookup s.taken with
      | none => return s
      | some level =>
        let (isKey, s) ← s.checkKey level
        if isKey then settle fuel (← s.next) else return s
    | _ => settle fuel (← s.next)

/-- The first token of the queue. -/
def peek (s : Scanner) : Except Fault (Token × Scanner) := do
  let s ← settle (s.cursor.size + 4) s
  return (s.queue.headD { kind := .streamEnd, line := s.cursor.line }, s)

/-- Takes the first token away. -/
def pop (s : Scanner) : Scanner := { s with queue := s.queue.tail, taken := s.taken + 1 }

/-- The beginning of a byte string. -/
def ofBytes (bytes : List UInt8) : Scanner := { cursor := .ofBytes bytes }

end Scanner

end ClassAudit.Yaml
