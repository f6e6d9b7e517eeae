import ClassAudit.Toml.Reader

/-!
# TOML documents

A document is a sequence of statements: table headers, headers of tables in arrays, and assignments.

## Main definitions

* `Toml.readValue` - a value; `Toml.readStatements` - the statements of a document.
* `Toml.Document` - a table, and what is known of its keys.
* `Toml.parse` - the document that a byte string spells.
-/

namespace ClassAudit.Toml

/-! ### Values -/

/-- Begins the assignment of a key: its tables are opened, and its last part is being defined. -/
def startKey (key : Key) : Read Unit := do
  modify fun r => { r with tables := { r.tables with current := key.getLast?.getD "" } }
  define (·.openDotted key.dropLast)
  modify fun r => { r with tables := r.tables.addKey (r.tables.context ++ [r.tables.current]) }

/-- Ends the assignment of a key whose value was written at a line. -/
def finishKey (v : Value) (line : Nat) : Read Unit := do
  define fun t => t.setValue t.current v
  modify fun r => { r with tables := r.tables.note r.tables.current v.isList line }

/-- Takes blanks, line ends and comments. -/
def skipBlanks : Nat → Read Unit
  | 0 => return ()
  | fuel + 1 => do
    match ← peek with
    | some c =>
      if isSpace c || isBreak c then
        let _ ← next
        skipBlanks fuel
      else if c == '#' then
        skipComment
        skipBlanks fuel
      else return ()
    | none => return ()

/-- Takes blanks and comments inside a table in braces, where no line may end. -/
def skipInLine : Nat → Read Unit
  | 0 => return ()
  | fuel + 1 => do
    match ← peek with
    | some c =>
      if isSpace c then
        skipSpaces
        skipInLine fuel
      else if isBreak c then
        let _ ← next
        failAbove 1 .breakInTable
      else if c == '#' then
        skipComment
        skipInLine fuel
      else return ()
    | none => return ()

mutual

/-- A value and the line where it is told to stand. -/
def readValue (inArray : Bool) : Nat → Read (Value × Nat)
  | 0 => failAtEnd .missingValue
  | fuel + 1 => do
    skipSpaces
    match ← peek with
    | none => failAtEnd .missingValue
    | some c =>
      let line := (← get).line
      let here (v : Read Value) : Read (Value × Nat) := do
        let v ← v
        return (v, (← get).line)
      if c.isDigit then
        let _ ← next
        here (if c == '0' then readAfterZero else readNumberOrDate [c])
      else if c == '[' then
        let _ ← next
        modify fun r => { r with tables := r.tables.note r.tables.current true line }
        let items ← readItems fuel
        return (.list items, line)
      else if c == '\x7b' then
        let _ ← next
        let outer := (← get).tables
        let key := outer.context ++ [outer.current]
        define fun t =>
          let t := { t with context := key, current := "" }.mention key
          if inArray then t.openInArray key else t.openTable key
        let entries ← readEntries fuel key []
        modify fun r =>
          { r with tables := { r.tables with context := outer.context, current := outer.current } }
        return (.table entries, line)
      else if c == Text.doubleMark || c == Text.singleMark then
        let _ ← next
        here (.text <$> readText c)
      else if c == '.' then
        let _ ← next
        fail .pointWithoutDigit
      else if c == 'i' || c == 'n' then here (readWord c)
      else if c == '-' || c == '+' then
        let _ ← next
        here (readSigned c)
      else if Text.isLetter c then here readBool
      else
        let _ ← next
        fail (.noValue c)

/-- The items of an array, from behind its bracket or a comma. `fuel` always exceeds what is left of
the text, so it also bounds the blanks. -/
def readItems : Nat → Read (List Value)
  | 0 => return []
  | fuel + 1 => do
    skipBlanks fuel
    match ← peek with
    | some ',' => fail .lonelyComma
    | some ']' =>
      let _ ← next
      return []
    | _ =>
      let (item, _) ← readValue true fuel
      skipBlanks fuel
      let c ← next
      match c with
      | some ',' => return item :: (← readItems fuel)
      | some ']' => return [item]
      | _ => failAt c (.arrayGoesOn c)

/-- The entries of a table in braces, from behind its brace or a comma, after those that were read
before. The name that was defined last stays the current one. -/
def readEntries (fuel : Nat) (context : Key) (before : Table) : Read Table :=
  match fuel with
  | 0 => return before
  | fuel + 1 => do
    skipInLine fuel
    match ← peek with
    | some ',' => fail .lonelyComma
    | some '\x7d' =>
      let _ ← next
      return before
    | _ =>
      let line := (← get).line
      let key ← readKey
      startKey key
      let (v, _) ← readValue false fuel
      finishKey v line
      let name := key.getLast?.getD ""
      let r ← get
      match Table.setBelow name v key.dropLast before with
      | none => throw (r.tables.fault (.tableOverValue r.tables.context))
      | some entries =>
        set { r with tables := { r.tables with context } }
        skipInLine fuel
        let c ← next
        match c with
        | some ',' =>
          skipSpaces
          if (← peek) == some '\x7d' then fail .trailingComma
          readEntries fuel context entries
        | some '\x7d' => return entries
        | _ => failAt c (.tableGoesOn c)

end

/-! ### Statements -/

/-- A header of a table, from behind its first bracket. -/
def readHeader : Read Unit := do
  let inArray ← accept '['
  let line := (← get).line
  modify fun r => { r with tables := { r.tables with keyLine := r.line } }
  let key ← readTableName ((← get).rest.length + 1)
  if inArray then
    let c ← next
    if c != some ']' then failAt c (.openHeader c)
  define fun t => do
    let t ← if inArray then t.openInArray key else t.openTable key
    return (t.note "" false line).addKey key

/-- An assignment. The context stays as it was. -/
def readAssignment : Read Unit := do
  let context := (← get).tables.context
  let key ← readKey
  startKey key
  let (v, line) ← readValue false (2 * (← get).rest.length + 4)
  finishKey v line
  modify fun r => { r with tables := { r.tables with context, current := "" } }

/-- The statements of a document. -/
def readStatements : Nat → Read Unit
  | 0 => return ()
  | fuel + 1 => do
    skipBlanks ((← get).rest.length + 1)
    match ← peek with
    | none => return ()
    | some c =>
      if c == '[' then
        let _ ← next
        readHeader
      else readAssignment
      skipSpaces
      match ← peek with
      | none => return ()
      | some c =>
        if c == '#' || isBreak c then readStatements fuel else fail (.lineGoesOn c)

/-! ### Documents -/

/-- A document: its table, all keys that it gives in the order of the text, and the lines of keys. -/
structure Document where
  root : Table
  keys : List Key
  info : Std.HashMap String KeyInfo

/-- The line of a key. -/
def Document.lineOf? (d : Document) (key : Key) : Option Nat :=
  (d.info.get? (keyText key)).map (·.line)

/-- A byte string without the mark that may stand before it to tell its encoding. -/
def dropOrderMark : List UInt8 → List UInt8
  | 0xff :: 0xfe :: rest => rest
  | 0xfe :: 0xff :: rest => rest
  | 0xef :: 0xbb :: 0xbf :: rest => rest
  | bytes => bytes

/-- The document that a byte string spells. -/
def parse (bytes : List UInt8) : Except Fault Document := do
  let bytes := dropOrderMark bytes
  if (bytes.take 6).contains 0 then
    throw { line := 1, lastKey := "", cause := .zeroByte }
  let s := Text.symbols bytes
  let (_, r) ← (readStatements (s.length + 1)).run { rest := s }
  return { root := r.tables.root, keys := r.tables.keys.reverse, info := r.tables.info }

end ClassAudit.Toml
