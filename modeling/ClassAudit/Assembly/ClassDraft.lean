import ClassAudit.Assembly.Layout
import ClassAudit.Bytecode.MemberName
import ClassAudit.ClassFile.StackMap

/-!
# Writing class files

A class draft describes a class compactly; writing it gives the bytes of a class file. Its names
and descriptors are Unicode texts: names that are byte strings and no UTF-8 are not modelled. String
constants may be any byte strings.

## Main definitions

* `FieldDraft`, `MethodDraft`, `HandlerDraft`, `LocalDraft`, `ClassDraft` - the description.
* `WriteError` - a body that cannot be written, with its method.
* `ClassDraft.encode` - the bytes of the class file.
-/

namespace ClassAudit

/-- A field to be written. -/
structure FieldDraft where
  name : String
  desc : String
  access : Int := 0
deriving Repr, Inhabited

/-- An exception handler to be written; positions are labels, and an empty type catches
everything. -/
structure HandlerDraft where
  start : String
  stop : String
  target : String
  type : String := ""
deriving Repr, Inhabited

/-- A local variable to be declared; empty labels stand for the ends of the body. -/
structure LocalDraft where
  slot : Int
  name : String
  desc : String
  start : String := ""
  stop : String := ""
deriving Repr, Inhabited

/-- A method to be written; without steps it has no body. -/
structure MethodDraft where
  name : String
  desc : String
  access : Int := 0
  steps : List Step := []
  handlers : List HandlerDraft := []
  locals : List LocalDraft := []
deriving Repr, Inhabited

/-- A class to be written. -/
structure ClassDraft where
  name : String
  /-- Empty for the root class. -/
  superName : String := ""
  interfaces : List String := []
  access : Int := 0
  fields : List FieldDraft := []
  methods : List MethodDraft := []
  /-- Not written when empty. -/
  sourceFile : String := ""
  /-- The default version when 0. -/
  major : Int := 0
deriving Repr, Inhabited

/-- A method that cannot be written. -/
structure WriteError where
  method : String
  desc : String
  fault : WriteFault
deriving DecidableEq, Repr

/-- The wording of a write error. -/
def WriteError.message (e : WriteError) : String :=
  "method " ++ e.method ++ e.desc ++ ": " ++ e.fault.message

/-! ### Bodies -/

/-- An attribute: the index of its name, its length and its content. -/
def encodeAttribute (name : String) (content : List UInt8) : Emit (List UInt8) := do
  let index ← Emit.request (PoolBuilder.utf8 name)
  return Binary.u2 index ++ Binary.u4 content.length ++ content

namespace MethodDraft

/-- The number of local variables that a body reserves: two past the highest that it uses, since
the last may be a long or double. Variable numbers are 64-bit words. -/
def maxLocals (m : MethodDraft) : Int :=
  let used := m.steps.filterMap Step.slot? ++ m.locals.map (·.slot)
  used.foldl (fun n slot => max n (Binary.signed 64 (Binary.wrap 64 (slot + 2)))) 1

/-- The position of a label, or the given fault. -/
def position (labels : List (String × Nat)) (label : String) (fault : WriteFault) : Emit Nat :=
  match labels.lookup label with
  | some pc => return pc
  | none => throw fault

/-- The index of the class that a handler catches; 0 stands for everything. -/
def catchType (h : HandlerDraft) : Emit Nat :=
  if h.type == "" then return 0 else Emit.request (PoolBuilder.classRef h.type)

/-- The bytes of an entry of the exception table. -/
def encodeHandler (labels : List (String × Nat)) (h : HandlerDraft) : Emit (List UInt8) := do
  let start ← position labels h.start (.handlerLabel h.start)
  let stop ← position labels h.stop (.handlerLabel h.stop)
  let target ← position labels h.target (.handlerLabel h.target)
  let type ← catchType h
  return Binary.u2 start ++ Binary.u2 stop ++ Binary.u2 target ++ Binary.u2 type

/-- The position of a label of a local variable; an empty label stands for an end of the body. -/
def bound (labels : List (String × Nat)) (l : LocalDraft) (label : String) (atEnd : Nat) :
    Emit Nat :=
  if label == "" then return atEnd else position labels label (.localLabel l.name label)

/-- The bytes of an entry of the local variable table. -/
def encodeLocal (labels : List (String × Nat)) (codeLength : Nat) (l : LocalDraft) :
    Emit (List UInt8) := do
  let start ← bound labels l l.start 0
  let stop ← bound labels l l.stop codeLength
  let name ← Emit.request (PoolBuilder.utf8 l.name)
  let desc ← Emit.request (PoolBuilder.utf8 l.desc)
  return Binary.u2 start ++ Binary.u2 ((stop : Int) - start) ++ Binary.u2 name ++
    Binary.u2 desc ++ Binary.u2 l.slot

/-- The attribute that lists source lines, unless there are none. -/
def encodeLines (lines : List (Nat × Int)) : Emit (List (List UInt8)) :=
  if lines.isEmpty then return []
  else do
    let table := lines.flatMap fun (pc, n) => Binary.u2 pc ++ Binary.u2 n
    let entry ← encodeAttribute "LineNumberTable" (Binary.u2 lines.length ++ table)
    return [entry]

/-- The attribute that lists local variables, unless there are none. -/
def encodeLocals (labels : List (String × Nat)) (codeLength : Nat) (locals : List LocalDraft) :
    Emit (List (List UInt8)) :=
  if locals.isEmpty then return []
  else do
    let table ← locals.mapM (encodeLocal labels codeLength)
    let entry ←
      encodeAttribute "LocalVariableTable" (Binary.u2 locals.length ++ table.flatten)
    return [entry]

/-- The attribute that lists stack map frames, unless there are none. -/
def encodeFrames (frames : List Nat) : Emit (List (List UInt8)) :=
  if frames.isEmpty then return []
  else do
    let entry ← encodeAttribute "StackMapTable" (StackMap.encode frames)
    return [entry]

/-- The code attribute of a method. -/
def encodeCode (m : MethodDraft) : Emit (List UInt8) := do
  let layout ← Layout.ofSteps m.steps
  let code ← layout.code
  let handlers ← m.handlers.mapM (encodeHandler layout.labels)
  let lines ← encodeLines layout.lines
  let locals ← encodeLocals layout.labels code.length m.locals
  let frames ← encodeFrames layout.frames
  let attributes := lines ++ locals ++ frames
  encodeAttribute "Code" (Binary.u2 16 ++ Binary.u2 m.maxLocals ++ Binary.u4 code.length ++
    code ++ Binary.u2 m.handlers.length ++ handlers.flatten ++ Binary.u2 attributes.length ++
    attributes.flatten)

end MethodDraft

/-! ### Classes -/

namespace ClassDraft

/-- The version that is written when a draft gives none. -/
def defaultMajor : Int := 52

/-- Writes parts of a class while constants are added to its pool. -/
abbrev Write := StateT PoolBuilder (Except WriteError)

/-- Asks the pool for a constant, as two bytes. -/
def request (r : PoolBuilder.Request) : Write (List UInt8) := fun p =>
  let (n, p) := r p
  .ok (Binary.u2 n, p)

/-- The bytes of a field. -/
def encodeField (f : FieldDraft) : Write (List UInt8) := do
  let name ← request (PoolBuilder.utf8 f.name)
  let desc ← request (PoolBuilder.utf8 f.desc)
  return Binary.u2 f.access ++ name ++ desc ++ Binary.u2 0

/-- The bytes of a method. -/
def encodeMethod (m : MethodDraft) : Write (List UInt8) := do
  let name ← request (PoolBuilder.utf8 m.name)
  let desc ← request (PoolBuilder.utf8 m.desc)
  let header := Binary.u2 m.access ++ name ++ desc
  if m.steps.isEmpty then return header ++ Binary.u2 0
  else
    let code ← fun p =>
      (m.encodeCode p).mapError fun fault => { method := m.name, desc := m.desc, fault }
    return header ++ Binary.u2 1 ++ code

/-- The bytes of the superclass index. Every class but the root class extends something. -/
def encodeSuper (c : ClassDraft) : Write (List UInt8) :=
  if c.superName != "" then request (PoolBuilder.classRef c.superName)
  else if c.name != objectClass then request (PoolBuilder.classRef objectClass)
  else return Binary.u2 0

/-- The bytes of the attributes of a class. -/
def encodeSourceFile (c : ClassDraft) : Write (List UInt8) := do
  if c.sourceFile == "" then return Binary.u2 0
  else
    let source ← request (PoolBuilder.utf8 c.sourceFile)
    let name ← request (PoolBuilder.utf8 "SourceFile")
    return Binary.u2 1 ++ name ++ Binary.u4 source.length ++ source

/-- Everything after the constant pool. -/
def encodeBody (c : ClassDraft) : Write (List UInt8) := do
  let name ← request (PoolBuilder.classRef c.name)
  let superName ← c.encodeSuper
  let interfaces ← c.interfaces.mapM fun i => request (PoolBuilder.classRef i)
  let fields ← c.fields.mapM encodeField
  let methods ← c.methods.mapM encodeMethod
  let attributes ← c.encodeSourceFile
  return Binary.u2 c.access ++ name ++ superName ++
    Binary.u2 c.interfaces.length ++ interfaces.flatten ++
    Binary.u2 c.fields.length ++ fields.flatten ++
    Binary.u2 c.methods.length ++ methods.flatten ++ attributes

/-- The bytes of a class file. -/
def encode (c : ClassDraft) : Except WriteError (List UInt8) := do
  let (body, pool) ← c.encodeBody {}
  let major := if c.major = 0 then defaultMajor else c.major
  return Binary.u4 0xcafebabe ++ Binary.u2 0 ++ Binary.u2 major ++ pool.encode ++ body

end ClassDraft

end ClassAudit
