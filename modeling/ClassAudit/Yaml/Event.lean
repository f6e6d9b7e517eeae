import ClassAudit.Yaml.Token

/-!
# The structure of a YAML document

The tokens of a document become events: single values, and the beginnings and ends of collections.
What may come next is kept on a stack, innermost first, so that no depth of a document is a
problem.

## Main definitions

* `Yaml.Event` - an event.
* `Yaml.Awaited` - what may come next; `Yaml.Grammar` - the state of the reading.
* `Yaml.Grammar.next` - the next event of the first document of a text.
-/

namespace ClassAudit.Yaml

/-- An event. Lines count from one; a missing anchor or tag is empty. -/
inductive Event where
  /-- There is no document. -/
  | streamEnd
  | documentEnd
  | reference (line : Nat) (name : String)
  | scalar (line : Nat) (anchor tag text : String) (isPlain : Bool)
  | sequenceStart (line : Nat) (anchor tag : String)
  | mappingStart (line : Nat) (anchor tag : String)
  | collectionEnd
deriving DecidableEq, Repr

/-- What may come next. `start` is the line that a collection begins on. -/
inductive Awaited where
  | document
  | documentEnd
  /-- An entry of a block sequence. -/
  | blockItem (start : Nat)
  /-- An entry of a sequence without indentation, inside of a mapping. -/
  | looseItem
  | blockKey (start : Nat)
  | blockValue (start : Nat)
  /-- An entry of a sequence in brackets. -/
  | flowItem (start : Nat) (isFirst : Bool)
  /-- The parts of a mapping with a single entry, inside of a sequence in brackets. -/
  | pairKey
  | pairValue
  | pairEnd
  /-- An entry of a mapping in brackets. -/
  | flowKey (start : Nat) (isFirst : Bool)
  | flowValue (start : Nat)
  /-- The value of an entry that has none. -/
  | noValue (start : Nat)
deriving DecidableEq, Repr

/-- The beginning that all tags of the language share. -/
def longTagStart : String := "tag:yaml.org,2002:"

/-- The state of the reading. -/
structure Grammar where
  scanner : Scanner
  awaited : List Awaited := [.document]
  /-- What tag handles stand for. -/
  handles : List (String × String) := [("!", "!"), ("!!", longTagStart)]
deriving Repr, Inhabited

/-- A step of the reading. -/
abbrev Grammar.Step := StateT Grammar (Except Fault)

namespace Grammar

/-- The next token. -/
def peek : Step Token := do
  let g ← get
  let (t, scanner) ← g.scanner.peek
  set { g with scanner }
  return t

/-- Passes the next token. -/
def skip : Step Unit := modify fun g => { g with scanner := g.scanner.pop }

/-- Passes the next token and gives the one behind it. -/
def skipPeek : Step Token := do
  skip
  peek

/-- Tells what comes behind the next event. -/
def await (a : Awaited) : Step Unit := modify fun g => { g with awaited := a :: g.awaited }

/-- Stops with a problem at a line, in something that begins at another one. -/
def fail {α : Type} (problem : String) (start line : Nat) : Step α :=
  throw { problem, line := if start != 0 then start else line }

/-- The event of a value that is not written. -/
def nothing (line : Nat) : Event := .scalar (line + 1) "" "" "" true

/-! ### Nodes -/

/-- A tag as it is written: a handle and a suffix, with the line of both. -/
structure WrittenTag where
  handle : String
  suffix : String
  line : Nat

/-- The tag that is meant. `start` is the line of the node. -/
def meant (start : Nat) (t : WrittenTag) : Step String := do
  if t.handle == "" then return t.suffix
  match (← get).handles.lookup t.handle with
  | some beginning => return beginning ++ t.suffix
  | none => fail "found undefined tag handle" start t.line

/-- The anchor and the tag before a node that begins with the token `t`, in any order. -/
def properties (t : Token) : Step (String × Option WrittenTag) := do
  match t.kind with
  | .anchor name =>
    let u ← skipPeek
    match u.kind with
    | .tag handle suffix =>
      skip
      return (name, some { handle, suffix, line := u.line })
    | _ => return (name, none)
  | .tag handle suffix =>
    let written : WrittenTag := { handle, suffix, line := t.line }
    let u ← skipPeek
    match u.kind with
    | .anchor name =>
      skip
      return (name, some written)
    | _ => return ("", some written)
  | _ => return ("", none)

/-- The first event of a node. Block collections begin only outside of brackets (`block`), and
sequences without indentation only as parts of a block mapping (`loose`). An anchor or a tag alone
stands for an empty text. -/
def node (block loose : Bool) : Step Event := do
  let first ← peek
  let line := first.line + 1
  match first.kind with
  | .reference name =>
    skip
    return .reference line name
  | _ =>
    let (anchor, written) ← properties first
    let t ← peek
    let tag ← match written with
      | some written => meant first.line written
      | none => pure ""
    match t.kind, block, loose with
    | .blockEntry, _, true =>
      await .looseItem
      return .sequenceStart line anchor tag
    | .scalar text isPlain, _, _ =>
      skip
      return .scalar line anchor tag text isPlain
    | .flowSequenceStart, _, _ =>
      skip
      await (.flowItem t.line true)
      return .sequenceStart line anchor tag
    | .flowMappingStart, _, _ =>
      skip
      await (.flowKey t.line true)
      return .mappingStart line anchor tag
    | .blockSequenceStart, true, _ =>
      skip
      await (.blockItem t.line)
      return .sequenceStart line anchor tag
    | .blockMappingStart, true, _ =>
      skip
      await (.blockKey t.line)
      return .mappingStart line anchor tag
    | _, _, _ =>
      if anchor != "" || tag != "" then return .scalar line anchor tag "" true
      else fail "did not find expected node content" first.line t.line

/-! ### Block collections -/

/-- An entry of a block sequence, or its end. -/
def blockItem (start : Nat) : Step Event := do
  let t ← peek
  match t.kind with
  | .blockEntry =>
    let u ← skipPeek
    await (.blockItem start)
    if u.kind == .blockEntry || u.kind == .blockEnd then return nothing t.line
    else node true false
  | .blockEnd =>
    skip
    return .collectionEnd
  | _ => fail "did not find expected '-' indicator" start t.line

/-- An entry of a sequence without indentation, or its end. -/
def looseItem : Step Event := do
  let t ← peek
  match t.kind with
  | .blockEntry =>
    let u ← skipPeek
    await .looseItem
    if u.kind == .blockEntry || u.kind == .key || u.kind == .value || u.kind == .blockEnd then
      return nothing t.line
    else node true false
  | _ => return .collectionEnd

/-- A key or a value of a block mapping, behind its mark `t`. -/
def blockPart (t : Token) : Step Event := do
  let u ← peek
  if u.kind == .key || u.kind == .value || u.kind == .blockEnd then return nothing t.line
  else node true true

/-- A key of a block mapping, or its end. -/
def blockKey (start : Nat) : Step Event := do
  let t ← peek
  match t.kind with
  | .key =>
    skip
    await (.blockValue start)
    blockPart t
  | .blockEnd =>
    skip
    return .collectionEnd
  | _ => fail "did not find expected key" start t.line

/-- A value of a block mapping. -/
def blockValue (start : Nat) : Step Event := do
  let t ← peek
  await (.blockKey start)
  if t.kind == .value then
    skip
    blockPart t
  else return nothing t.line

/-! ### Collections in brackets -/

/-- The token behind the comma that has to stand before every entry but the first; the end needs
no comma. -/
def behindComma (ending : TokenKind) (isFirst : Bool) (problem : String) (start : Nat) :
    Step Token := do
  let t ← peek
  if t.kind == ending || isFirst then return t
  else if t.kind == .flowEntry then skipPeek
  else fail problem start t.line

/-- An entry of a sequence in brackets, or its end. -/
def flowItem (start : Nat) (isFirst : Bool) : Step Event := do
  let t ← behindComma .flowSequenceEnd isFirst "did not find expected ',' or ']'" start
  if t.kind == .flowSequenceEnd then
    skip
    return .collectionEnd
  await (.flowItem start false)
  if t.kind == .key then
    skip
    await .pairKey
    return .mappingStart (t.line + 1) "" ""
  else node false false

/-- The key of a mapping with a single entry. A missing key takes the token behind it along. -/
def pairKey : Step Event := do
  let t ← peek
  await .pairValue
  if t.kind == .value || t.kind == .flowEntry || t.kind == .flowSequenceEnd then
    skip
    return nothing t.line
  else node false false

/-- The value of a mapping with a single entry. -/
def pairValue : Step Event := do
  let t ← peek
  await .pairEnd
  if t.kind != .value then return nothing t.line
  let u ← skipPeek
  if u.kind == .flowEntry || u.kind == .flowSequenceEnd then return nothing t.line
  else node false false

/-- The end of a mapping with a single entry. -/
def pairEnd : Step Event := do
  discard peek
  return .collectionEnd

/-- A key of a mapping in brackets, or its end. -/
def flowKey (start : Nat) (isFirst : Bool) : Step Event := do
  let t ← behindComma .flowMappingEnd isFirst "did not find expected ',' or '\x7d'" start
  if t.kind == .flowMappingEnd then
    skip
    return .collectionEnd
  if t.kind == .key then
    let u ← skipPeek
    await (.flowValue start)
    if u.kind == .value || u.kind == .flowEntry || u.kind == .flowMappingEnd then
      return nothing u.line
    else node false false
  else
    await (.noValue start)
    node false false

/-- A value of a mapping in brackets. -/
def flowValue (start : Nat) : Step Event := do
  let t ← peek
  await (.flowKey start false)
  if t.kind != .value then return nothing t.line
  let u ← skipPeek
  if u.kind == .flowEntry || u.kind == .flowMappingEnd then return nothing u.line
  else node false false

/-- The missing value of an entry in brackets. -/
def noValue (start : Nat) : Step Event := do
  let t ← peek
  await (.flowKey start false)
  return nothing t.line

/-! ### Documents -/

/-- The directives before a document: at most one version, which has to be 1.1, and tag handles,
each at most once. `version` tells whether a version came before, and `handles` holds the handles
that did. Tells whether there were any directives. -/
def directives : Nat → Bool → List String → Step Bool
  | 0, version, handles => return version || !handles.isEmpty
  | fuel + 1, version, handles => do
    let t ← peek
    match t.kind with
    | .versionDirective major minor =>
      if version then fail "found duplicate %YAML directive" 0 t.line
      if major != 1 || minor != 1 then fail "found incompatible YAML document" 0 t.line
      skip
      directives fuel true handles
    | .tagDirective handle beginning =>
      if handles.contains handle then fail "found duplicate %TAG directive" 0 t.line
      skip
      modify fun g => { g with handles := (handle, beginning) :: g.handles }
      directives fuel version (handle :: handles)
    | _ => return version || !handles.isEmpty

/-- The content of a document behind the mark that begins it. -/
def documentContent : Step Event := do
  let t ← peek
  match t.kind with
  | .documentStart => return nothing t.line
  | .documentEnd => return nothing t.line
  | .streamEnd => return nothing t.line
  | .versionDirective .. => return nothing t.line
  | .tagDirective .. => return nothing t.line
  | _ => node true false

/-- The first event of the first document. -/
def document : Step Event := do
  let directed ← directives (← get).scanner.cursor.size false []
  let t ← peek
  await .documentEnd
  match t.kind with
  | .documentStart =>
    skip
    documentContent
  | .streamEnd =>
    if directed then fail "did not find expected <document start>" 0 t.line
    else return .streamEnd
  | _ =>
    if directed then fail "did not find expected <document start>" 0 t.line
    else node true false

/-- The end of the first document; what follows it has to be readable, but is not looked at. -/
def documentEnd : Step Event := do
  discard peek
  return .documentEnd

/-- The next event. -/
def next : Step Event := do
  let g ← get
  set { g with awaited := g.awaited.tail }
  match g.awaited.headD .documentEnd with
  | .document => document
  | .documentEnd => documentEnd
  | .blockItem start => blockItem start
  | .looseItem => looseItem
  | .blockKey start => blockKey start
  | .blockValue start => blockValue start
  | .flowItem start isFirst => flowItem start isFirst
  | .pairKey => pairKey
  | .pairValue => pairValue
  | .pairEnd => pairEnd
  | .flowKey start isFirst => flowKey start isFirst
  | .flowValue start => flowValue start
  | .noValue start => noValue start

end Grammar

end ClassAudit.Yaml
