import ClassAudit.Bytecode.Body
import ClassAudit.ClassFile.Decode
import ClassAudit.ClassFile.StackMap

/-!
# Code attributes

The body of a method is stored as its code array together with the table of exception handlers
and the tables that tie positions to source lines, local variables and stack map frames. Line
numbers and local variables that do not lie at instructions are dropped. The body is kept as one
sequence, in which labels, line numbers and frames stand before the instruction that they belong
to.

## Main definitions

* `LineEntry`, `LocalEntry`, `Handler` - the entries of the tables.
* `Code.Tables` - everything that a body's attributes say about positions.
* `Code.interleave` - the body with its markers.
* `Code.Content`, `Code.readContent` - what the bytes of a code attribute hold.
* `Code.read` - the body that the bytes of a code attribute spell.
-/

namespace ClassAudit

/-- A source line begins at a position. -/
structure LineEntry where
  pc : Nat
  line : Nat
deriving DecidableEq, Repr

/-- A local variable has a name between two positions. -/
structure LocalEntry where
  start : Nat
  stop : Nat
  slot : Nat
  name : String
deriving DecidableEq, Repr

/-- A range of positions that is covered by an exception handler. -/
structure Handler where
  start : Nat
  stop : Nat
  target : Nat
deriving DecidableEq, Repr

namespace Code

/-! ### Attributes -/

/-- Reads an attribute: its name and its content. -/
def readAttribute (pool : ConstantPool) : Read (String × List UInt8) := do
  let index ← Read.u2 "attribute_name_index"
  let name ← Read.within .attributeName (Decode.lookup (pool.text index))
  let start ← Read.position
  let length ← Read.u4 "attribute_length"
  if length > (← Read.remaining) then
    Read.fail (.attributeTooLong name length) (some start)
  else
    let content ← Read.bytes length name
    return (name, content)

/-- Reads a table of line numbers. -/
def lineTable : Read (List LineEntry) := do
  let n ← Read.u2 "line_number_table_length"
  Read.times n do
    let pc ← Read.u2 "line start_pc"
    let line ← Read.u2 "line_number"
    return { pc, line }

/-- Reads an entry of the table of local variables. -/
def localEntry (pool : ConstantPool) : Read LocalEntry := do
  let item := "local_variable_table entry"
  let start ← Read.u2 item
  let length ← Read.u2 item
  let nameIndex ← Read.u2 item
  let descIndex ← Read.u2 item
  let slot ← Read.u2 item
  let name ← Decode.lookup (pool.text nameIndex)
  discard (Decode.lookup (pool.text descIndex))
  return { start, stop := start + length, slot, name }

/-- Reads a table of local variables. -/
def localTable (pool : ConstantPool) : Read (List LocalEntry) := do
  let n ← Read.u2 "local_variable_table_length"
  Read.times n (localEntry pool)

/-- What the attributes of a body say about its positions. -/
structure Tables where
  lines : List LineEntry := []
  locals : List LocalEntry := []
  frames : List Nat := []
deriving DecidableEq, Repr

/-- Adds what one attribute says. -/
def Tables.add (pool : ConstantPool) (t : Tables) (name : String) (content : List UInt8) :
    Except Malformed Tables :=
  if name == "LineNumberTable" then do
    let lines ← Read.runOn content lineTable
    return { t with lines := t.lines ++ lines }
  else if name == "LocalVariableTable" then do
    let locals ← Read.runOn content (localTable pool)
    return { t with locals := t.locals ++ locals }
  else if name == "StackMapTable" then do
    let frames ← StackMap.positions content
    return { t with frames := t.frames ++ frames }
  else return t

/-- Reads `n` attributes of a body. -/
def readTables (pool : ConstantPool) : Nat → Tables → Read Tables
  | 0, t => return t
  | n + 1, t => do
    let (name, content) ← readAttribute pool
    let t ← Decode.lookup (t.add pool name content)
    readTables pool n t

/-! ### Handlers and branch targets -/

/-- Reads an entry of the exception table. The range must lie between instructions, or end with
the code array, and the handler must be an instruction. -/
def handler (pool : ConstantPool) (starts : List Nat) (codeLength : Nat) : Read Handler := do
  let item := "exception_table entry"
  let start ← Read.u2 item
  let stop ← Read.u2 item
  let target ← Read.u2 item
  let type ← Read.u2 item
  if !starts.contains start || !starts.contains stop || target ≥ codeLength ||
      !starts.contains target || start ≥ stop then
    Read.fail (.badHandler start stop target)
  else
    if type ≠ 0 then discard (Decode.lookup (pool.className type))
    return { start, stop, target }

/-- The first branch that does not lead to an instruction: its target and its position. -/
def badTarget? (codeLength : Nat) (starts : List Nat) (body : List Instruction) :
    Option (Int × Nat) :=
  body.findSome? fun i =>
    (i.action.targets.find? fun (t : Int) =>
      t < 0 || t ≥ codeLength || !starts.contains t.toNat).map (·, i.pc)

/-! ### Markers -/

/-- The markers before the instruction at `pc`: its label, its source lines, its frame. -/
def markersAt (labels : List Nat) (lines : List LineEntry) (frames : List Nat) (pc : Nat) :
    List Instruction :=
  (match labels.idxOf? pc with
    | some id => [{ action := .label id, pc }]
    | none => []) ++
  (lines.filter (·.pc == pc)).map (fun l => { action := .line l.line, pc }) ++
  (if frames.contains pc then [{ action := .frame, pc }] else [])

/-- The body with its markers. Labels are numbered in ascending order of their positions; a label at
the end of the code array comes last. -/
def interleave (body : List Instruction) (codeLength : Nat) (labels : List Nat)
    (lines : List LineEntry) (frames : List Nat) : Body :=
  let marked := body.flatMap fun i => markersAt labels lines frames i.pc ++ [i]
  let last : List Instruction :=
    match labels.idxOf? codeLength with
    | some id => [{ action := .label id, pc := codeLength }]
    | none => []
  ⟨marked ++ last⟩

/-- The names of local variables that a list of entries declares; the last entry of a variable
wins. -/
def declareNames (names : List (Nat × String)) : List LocalEntry → List (Nat × String)
  | [] => names
  | l :: rest => declareNames (names.filter (·.1 != l.slot) ++ [(l.slot, l.name)]) rest

/-! ### Contents -/

/-- What the bytes of a code attribute hold. -/
structure Content where
  instructions : List Instruction
  /-- The number of bytes of the code array. -/
  codeLength : Nat
  handlers : List Handler
  tables : Tables
deriving DecidableEq, Repr

namespace Content

/-- The positions of the instructions, and of the end of the code array. -/
def starts (c : Content) : List Nat := c.instructions.map (·.pc) ++ [c.codeLength]

/-- The line numbers that are kept: those at instructions. -/
def lines (c : Content) : List LineEntry :=
  c.tables.lines.filter fun l => c.starts.contains l.pc && l.pc != c.codeLength

/-- The local variables that are kept: those whose ranges lie between instructions. -/
def locals (c : Content) : List LocalEntry :=
  c.tables.locals.filter fun l => c.starts.contains l.start && c.starts.contains l.stop

/-- The positions that something refers to. -/
def references (c : Content) : List Nat :=
  c.instructions.flatMap (fun i => i.action.targets.map Int.toNat) ++
  c.handlers.flatMap (fun h => [h.start, h.stop, h.target]) ++
  c.lines.map (·.pc) ++ c.locals.flatMap fun l => [l.start, l.stop]

/-- The positions of the labels in ascending order, each once. -/
def labels (c : Content) : List Nat := c.references.mergeSort.eraseReps

/-- The body with its markers. -/
def body (c : Content) : Body :=
  interleave c.instructions c.codeLength c.labels c.lines c.tables.frames

/-- The declared names of local variables. -/
def localNames (c : Content) : List (Nat × String) := declareNames [] c.locals

end Content

/-- Reads what follows the code array of a code attribute. No branch may lead outside the
instructions. -/
def readTablesOf (pool : ConstantPool) (codeLength : Nat) (instructions : List Instruction) :
    Read Content := do
  let starts := instructions.map (·.pc) ++ [codeLength]
  match badTarget? codeLength starts instructions with
  | some (target, pc) => Read.fail (.badTarget target pc)
  | none =>
    let handlerCount ← Read.u2 "exception_table_length"
    let handlers ← Read.times handlerCount (handler pool starts codeLength)
    let attributeCount ← Read.u2 "code attributes_count"
    let tables ← readTables pool attributeCount {}
    return { instructions, codeLength, handlers, tables }

/-- Reads the content of a code attribute. -/
def readContent (pool : ConstantPool) : Read Content := do
  Read.skip 4 "max_stack/max_locals"
  let lengthPos ← Read.position
  let codeLength ← Read.u4 "code_length"
  if codeLength = 0 ∨ codeLength ≥ 65536 then
    Read.fail (.badCodeLength codeLength) (some lengthPos)
  else
    let code ← Read.bytes codeLength "code"
    let instructions ← Decode.lookup (Decode.body pool code)
    readTablesOf pool codeLength instructions

/-- The body and the declared names of local variables that the bytes of a code attribute
spell. -/
def read (pool : ConstantPool) (data : List UInt8) :
    Except Malformed (Body × List (Nat × String)) :=
  (Read.runOn data (readContent pool)).map fun c => (c.body, c.localNames)

end Code

end ClassAudit
