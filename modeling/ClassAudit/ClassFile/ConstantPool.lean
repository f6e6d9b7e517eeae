import ClassAudit.Bytecode.Instruction
import ClassAudit.ClassFile.Cursor
import ClassAudit.Text.ModifiedUtf8

/-!
# The constant pool

Names, descriptors, literals and references to members are kept once per class file, in a table
that everything else refers to by index. Index 0 and the index after an eight-byte literal are
never used.

## Main definitions

* `Constant` - an entry of the pool; `Constant.tag` - its kind by number.
* `Constant.encode` - the bytes of an entry; `Constant.read` - the entry that bytes spell.
* `ConstantPool` - the table; `ConstantPool.read` - the table that bytes spell, with every
  reference inside it checked.
* `ConstantPool.text`, `className`, `nameAndType`, `memberRef` - checked look-ups.
-/

namespace ClassAudit

/-- A constant of a class file. References to other constants are pool indexes. -/
inductive Constant where
  | utf8 (text : List Char)
  | integer (bits : Nat)
  | float (bits : Nat)
  | long (bits : Nat)
  | double (bits : Nat)
  | classRef (name : Nat)
  | string (text : Nat)
  | fieldRef (owner nameAndType : Nat)
  | methodRef (owner nameAndType : Nat)
  | interfaceMethodRef (owner nameAndType : Nat)
  | nameAndType (name desc : Nat)
  | methodHandle (kind target : Nat)
  | methodType (desc : Nat)
  | dynamic (bootstrap nameAndType : Nat)
  | invokeDynamic (bootstrap nameAndType : Nat)
  | module (name : Nat)
  | package (name : Nat)
deriving DecidableEq, Repr, Inhabited

/-! ### Tags -/

/-- The kinds of constants. -/
inductive Tag where
  | utf8
  | integer
  | float
  | long
  | double
  | classRef
  | string
  | fieldRef
  | methodRef
  | interfaceMethodRef
  | nameAndType
  | methodHandle
  | methodType
  | dynamic
  | invokeDynamic
  | module
  | package
deriving DecidableEq, Repr, Inhabited

/-- The number of a kind in class files. -/
def Tag.number : Tag → Nat
  | utf8 => 1
  | integer => 3
  | float => 4
  | long => 5
  | double => 6
  | Tag.classRef => 7
  | string => 8
  | fieldRef => 9
  | methodRef => 10
  | interfaceMethodRef => 11
  | nameAndType => 12
  | methodHandle => 15
  | methodType => 16
  | dynamic => 17
  | invokeDynamic => 18
  | module => 19
  | package => 20

namespace Constant

/-- The kind of a constant. -/
def tag : Constant → Tag
  | utf8 _ => .utf8
  | integer _ => .integer
  | float _ => .float
  | long _ => .long
  | double _ => .double
  | Constant.classRef _ => .classRef
  | string _ => .string
  | fieldRef _ _ => .fieldRef
  | methodRef _ _ => .methodRef
  | interfaceMethodRef _ _ => .interfaceMethodRef
  | nameAndType _ _ => .nameAndType
  | methodHandle _ _ => .methodHandle
  | methodType _ => .methodType
  | dynamic _ _ => .dynamic
  | invokeDynamic _ _ => .invokeDynamic
  | module _ => .module
  | package _ => .package

/-- Does the constant take two places of the pool? -/
def isWide : Constant → Bool
  | long _ => true
  | double _ => true
  | _ => false

/-! ### Writing and reading -/

/-- The bytes of a constant. The length of a text keeps its lowest two bytes. -/
def encode (c : Constant) : List UInt8 :=
  UInt8.ofNat c.tag.number ::
    match c with
    | utf8 text =>
      let bytes := Text.ModifiedUtf8.encode text
      Binary.u2 bytes.length ++ bytes
    | integer bits => Binary.u4 bits
    | float bits => Binary.u4 bits
    | long bits => Binary.u8 bits
    | double bits => Binary.u8 bits
    | Constant.classRef a => Binary.u2 a
    | string a => Binary.u2 a
    | methodType a => Binary.u2 a
    | module a => Binary.u2 a
    | package a => Binary.u2 a
    | fieldRef a b => Binary.u2 a ++ Binary.u2 b
    | methodRef a b => Binary.u2 a ++ Binary.u2 b
    | interfaceMethodRef a b => Binary.u2 a ++ Binary.u2 b
    | nameAndType a b => Binary.u2 a ++ Binary.u2 b
    | dynamic a b => Binary.u2 a ++ Binary.u2 b
    | invokeDynamic a b => Binary.u2 a ++ Binary.u2 b
    | methodHandle kind b => Binary.byte kind :: Binary.u2 b

/-- Reads one index and applies a constructor to it. -/
def readOne (make : Nat → Constant) : Read Constant := make <$> Read.u2 "constant index"

/-- Reads two indexes and applies a constructor to them. -/
def readTwo (make : Nat → Nat → Constant) : Read Constant := do
  let a ← Read.u2 "constant index"
  let b ← Read.u2 "constant index"
  return make a b

/-- Reads a text, its length before it. -/
def readText (index start : Nat) : Read Constant := do
  let n ← Read.u2 "utf8 length"
  let raw ← Read.bytes n "utf8 bytes"
  match ← Read.access (Text.ModifiedUtf8.read raw) with
  | some text => return utf8 text
  | none => Read.fail (.badText index) (some start)

/-- Reads the constant at `index`. Faults of its content are reported at its first byte. -/
def read (index : Nat) : Read Constant := do
  let start ← Read.position
  let tag ← Read.u1 "constant tag"
  match tag with
  | 1 => readText index start
  | 3 => (integer ∘ Binary.value) <$> Read.bytes 4 "constant value"
  | 4 => (float ∘ Binary.value) <$> Read.bytes 4 "constant value"
  | 5 => (long ∘ Binary.value) <$> Read.bytes 8 "constant value"
  | 6 => (double ∘ Binary.value) <$> Read.bytes 8 "constant value"
  | 7 => readOne Constant.classRef
  | 8 => readOne string
  | 16 => readOne methodType
  | 19 => readOne module
  | 20 => readOne package
  | 9 => readTwo fieldRef
  | 10 => readTwo methodRef
  | 11 => readTwo interfaceMethodRef
  | 12 => readTwo nameAndType
  | 17 => readTwo dynamic
  | 18 => readTwo invokeDynamic
  | 15 =>
    let kind ← Read.u1 "reference_kind"
    if 1 ≤ kind ∧ kind ≤ 9 then
      let target ← Read.u2 "reference_index"
      return methodHandle kind target
    else Read.fail (.badReferenceKind index kind) (some start)
  | _ => Read.fail (.unknownTag index tag) (some start)

end Constant

/-! ### The table -/

/-- A constant pool. The entry at an index that is never used is `none`. -/
structure ConstantPool where
  entries : Array (Option Constant)
deriving Repr, Inhabited

namespace ConstantPool

/-- The number of the kind of the entry at an index, 0 where there is no constant. -/
def tagAt (p : ConstantPool) (index : Nat) : Access Nat := do
  match ← Access.get p.entries index with
  | some c => return c.tag.number
  | none => return 0

/-- What is wrong with an index that should lead to a constant of one of the given kinds. -/
def check (p : ConstantPool) (index : Nat) (tags : List Tag) : Access (Option PoolFault) :=
  if index = 0 ∨ p.entries.size ≤ index then return some (.outOfRange index)
  else do
    let found ← p.tagAt index
    if (tags.map Tag.number).contains found then return none
    else return some (.wrongTag index found (tags.map Tag.number))

/-- The kinds of constants that an index inside a constant may lead to. -/
def requirements : Constant → List (Nat × List Tag)
  | .classRef a => [(a, [.utf8])]
  | .string a => [(a, [.utf8])]
  | .methodType a => [(a, [.utf8])]
  | .module a => [(a, [.utf8])]
  | .package a => [(a, [.utf8])]
  | .fieldRef a b => [(a, [.classRef]), (b, [.nameAndType])]
  | .methodRef a b => [(a, [.classRef]), (b, [.nameAndType])]
  | .interfaceMethodRef a b => [(a, [.classRef]), (b, [.nameAndType])]
  | .nameAndType a b => [(a, [.utf8]), (b, [.utf8])]
  | .dynamic _ b => [(b, [.nameAndType])]
  | .invokeDynamic _ b => [(b, [.nameAndType])]
  | .methodHandle _ b => [(b, [.fieldRef, .methodRef, .interfaceMethodRef])]
  | _ => []

/-- The first entry with a reference that its kind does not allow. -/
def validate (p : ConstantPool) : Access (Option (Nat × PoolFault)) :=
  p.entries.toList.zipIdx.findSomeM? fun (entry, index) =>
    match entry with
    | none => return none
    | some c => do
      let fault ← (requirements c).findSomeM? fun (a, tags) => p.check a tags
      return fault.map (index, ·)

/-- Puts the constants from `index` on into a table for `count` entries. -/
def fill (count : Nat) (entries : Array (Option Constant)) (index : Nat) :
    Read (Array (Option Constant)) :=
  if index < count then do
    let c ← Constant.read index
    let entries ← Read.access (Access.put entries index (some c))
    fill count entries (if c.isWide then index + 2 else index + 1)
  else return entries
termination_by count - index
decreasing_by split <;> omega

/-- Reads a constant pool and checks every reference inside it. -/
def read : Read ConstantPool := do
  let start ← Read.position
  let count ← Read.u2 "constant_pool_count"
  if count = 0 then Read.fail .emptyPool (some start)
  else
    let entries ← fill count (Array.replicate count none) 1
    let pool : ConstantPool := ⟨entries⟩
    match ← Read.access pool.validate with
    | some (index, fault) => Read.fail (.badConstant index fault)
    | none => return pool

/-! ### Look-ups -/

/-- An access to an entry that the table does not have. -/
def outside {α : Type} (p : ConstantPool) (index : Nat) : Except Malformed α :=
  .error { cause := .outside index p.entries.size, offset := none }

/-- The text of the entry at an index, empty where the entry is no text. The index is not
checked. -/
def textAt (p : ConstantPool) (index : Nat) : Except Malformed String :=
  match p.entries[index]? with
  | some (some (.utf8 text)) => .ok (String.ofList text)
  | some _ => .ok ""
  | none => p.outside index

/-- The constant at an index, which must be of one of the given kinds. -/
def entry (p : ConstantPool) (index : Nat) (tags : List Tag) : Except Malformed Constant :=
  match p.check index tags with
  | .error e => p.outside e.index
  | .ok (some fault) => .error { cause := .badReference fault, offset := none }
  | .ok none =>
    match p.entries[index]? with
    | some (some c) => .ok c
    | _ => p.outside index

/-- The text at an index. -/
def text (p : ConstantPool) (index : Nat) : Except Malformed String := do
  let _ ← p.entry index [.utf8]
  p.textAt index

/-- The class name at an index. -/
def className (p : ConstantPool) (index : Nat) : Except Malformed String := do
  match ← p.entry index [.classRef] with
  | .classRef name => p.textAt name
  | _ => return ""

/-- The name and the descriptor at an index. -/
def nameAndType (p : ConstantPool) (index : Nat) : Except Malformed (String × String) := do
  match ← p.entry index [.nameAndType] with
  | .nameAndType name desc => return (← p.textAt name, ← p.textAt desc)
  | _ => return ("", "")

/-- The class name that the entry at an index refers to, empty where the entry is no class. The
index is not checked. -/
def classNameAt (p : ConstantPool) (index : Nat) : Except Malformed String :=
  match p.entries[index]? with
  | some (some (.classRef name)) => p.textAt name
  | some _ => .ok ""
  | none => p.outside index

/-- The member that the entry at an index refers to. -/
def memberRef (p : ConstantPool) (index : Nat) (tags : List Tag) :
    Except Malformed MemberRef := do
  match ← p.entry index tags with
  | .fieldRef owner nt => member owner nt
  | .methodRef owner nt => member owner nt
  | .interfaceMethodRef owner nt => member owner nt
  | _ => return ⟨"", "", ""⟩
where
  /-- The member behind the indexes of its owner and of its name and descriptor. -/
  member (owner nt : Nat) : Except Malformed MemberRef := do
    let owner ← p.classNameAt owner
    let (name, desc) ← p.nameAndType nt
    return ⟨owner, name, desc⟩

end ConstantPool

end ClassAudit
