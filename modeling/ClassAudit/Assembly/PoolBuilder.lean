import ClassAudit.ClassFile.ConstantPool
import ClassAudit.Text.Quoted

/-!
# Building a constant pool

Constants are added on request and shared: a request with a key that was used before gets the
index of that time. Keys spell out what is asked for; the key of a member joins owner, name and
descriptor in one text, and so do the keys of a name with a descriptor and of a call site.

## Main definitions

* `PoolKey` - what a request is recognised by.
* `PoolBuilder` - the constants so far, and where the next one goes.
* `PoolBuilder.utf8`, `integer`, `long`, `classRef`, `string`, `nameAndType`, `member`,
  `invokeDynamic` - the requests.
* `PoolBuilder.encode` - the bytes of the pool.
-/

namespace ClassAudit

/-- What a request for a constant is recognised by. -/
inductive PoolKey where
  | utf8 (text : Text.Literal)
  | integer (bits : Nat)
  | long (bits : Nat)
  | classRef (name : String)
  | string (text : Text.Literal)
  /-- Name, a space, and the descriptor. -/
  | nameAndType (joined : String)
  /-- Owner, a dot, the name and the descriptor. -/
  | member (tag : Tag) (joined : String)
  /-- Name and descriptor. -/
  | invokeDynamic (joined : String)
deriving DecidableEq, Repr

/-- A constant pool that is being built. -/
structure PoolBuilder where
  /-- The index given to each key, newest first. -/
  index : List (PoolKey × Nat) := []
  /-- The constants in the order of their indexes. -/
  constants : Array Constant := #[]
  /-- The next index; indexes are two-byte words and wrap around. -/
  next : Nat := 1

namespace PoolBuilder

/-- A request for a constant, answered with its index. -/
abbrev Request := StateM PoolBuilder Nat

/-- The index of a key; a new key gets the next index and its constant joins the pool. -/
def add (key : PoolKey) (c : Constant) : Request := fun p =>
  match p.index.lookup key with
  | some n => (n, p)
  | none =>
    (p.next,
      { index := (key, p.next) :: p.index
        constants := p.constants.push c
        next := (p.next + if c.isWide then 2 else 1) % 65536 })

/-- The index of a text or byte string. -/
def literal (text : Text.Literal) : Request := add (.utf8 text) (.utf8 text.chars)

/-- The index of a text. -/
def utf8 (text : String) : Request := literal (.text text.toList)

/-- The index of an int, of which the lowest 32 bits count. -/
def integer (value : Int) : Request :=
  let bits := Binary.wrap 32 value
  add (.integer bits) (.integer bits)

/-- The index of a long. -/
def long (value : Int) : Request :=
  let bits := Binary.wrap 64 value
  add (.long bits) (.long bits)

/-- The index of a class. -/
def classRef (name : String) : Request := do
  let a ← utf8 name
  add (.classRef name) (.classRef a)

/-- The index of a string literal. -/
def string (text : Text.Literal) : Request := do
  let a ← literal text
  add (.string text) (.string a)

/-- The index of a name with a descriptor. -/
def nameAndType (name desc : String) : Request := do
  let a ← utf8 name
  let b ← utf8 desc
  add (.nameAndType (name ++ " " ++ desc)) (.nameAndType a b)

/-- The kinds of members. -/
inductive MemberTag where
  | field
  | method
  | interfaceMethod
deriving DecidableEq, Repr

/-- The kind of constant that refers to a member. -/
def MemberTag.tag : MemberTag → Tag
  | field => .fieldRef
  | method => .methodRef
  | interfaceMethod => .interfaceMethodRef

/-- The constant that refers to a member. -/
def MemberTag.constant : MemberTag → Nat → Nat → Constant
  | field => .fieldRef
  | method => .methodRef
  | interfaceMethod => .interfaceMethodRef

/-- The index of a member. -/
def member (kind : MemberTag) (m : MemberRef) : Request := do
  let a ← classRef m.owner
  let b ← nameAndType m.name m.desc
  add (.member kind.tag (m.owner ++ "." ++ m.name ++ m.desc)) (kind.constant a b)

/-- The index of a call site that is bound at run time. -/
def invokeDynamic (name desc : String) : Request := do
  let b ← nameAndType name desc
  add (.invokeDynamic (name ++ desc)) (.invokeDynamic 0 b)

/-- The bytes of a pool: the next index, then the constants. -/
def encode (p : PoolBuilder) : List UInt8 :=
  Binary.u2 p.next ++ p.constants.toList.flatMap Constant.encode

end PoolBuilder

end ClassAudit
