import ClassAudit.Text.Number

/-!
# Opcodes and value types

The instruction set of the Java virtual machine, by number and by mnemonic.

## Main definitions

* `Opcode` - an opcode byte; `Opcode.mnemonic`, `Opcode.ofMnemonic?` - its name.
* `ValueType` - the computational type that an instruction works on.
* `InvokeKind`, `FieldAccess` - the four ways to call a method and to reach a field.
-/

namespace ClassAudit

/-- An opcode byte of the virtual machine. -/
structure Opcode where
  code : UInt8
deriving DecidableEq, Repr, Inhabited

namespace Opcode

/-- The mnemonics of the defined opcodes, by number. -/
def mnemonics : List String :=
  ["nop", "aconst_null", "iconst_m1", "iconst_0", "iconst_1", "iconst_2",
   "iconst_3", "iconst_4", "iconst_5", "lconst_0", "lconst_1", "fconst_0",
   "fconst_1", "fconst_2", "dconst_0", "dconst_1", "bipush", "sipush",
   "ldc", "ldc_w", "ldc2_w", "iload", "lload", "fload",
   "dload", "aload", "iload_0", "iload_1", "iload_2", "iload_3",
   "lload_0", "lload_1", "lload_2", "lload_3", "fload_0", "fload_1",
   "fload_2", "fload_3", "dload_0", "dload_1", "dload_2", "dload_3",
   "aload_0", "aload_1", "aload_2", "aload_3", "iaload", "laload",
   "faload", "daload", "aaload", "baload", "caload", "saload",
   "istore", "lstore", "fstore", "dstore", "astore", "istore_0",
   "istore_1", "istore_2", "istore_3", "lstore_0", "lstore_1", "lstore_2",
   "lstore_3", "fstore_0", "fstore_1", "fstore_2", "fstore_3", "dstore_0",
   "dstore_1", "dstore_2", "dstore_3", "astore_0", "astore_1", "astore_2",
   "astore_3", "iastore", "lastore", "fastore", "dastore", "aastore",
   "bastore", "castore", "sastore", "pop", "pop2", "dup",
   "dup_x1", "dup_x2", "dup2", "dup2_x1", "dup2_x2", "swap",
   "iadd", "ladd", "fadd", "dadd", "isub", "lsub",
   "fsub", "dsub", "imul", "lmul", "fmul", "dmul",
   "idiv", "ldiv", "fdiv", "ddiv", "irem", "lrem",
   "frem", "drem", "ineg", "lneg", "fneg", "dneg",
   "ishl", "lshl", "ishr", "lshr", "iushr", "lushr",
   "iand", "land", "ior", "lor", "ixor", "lxor",
   "iinc", "i2l", "i2f", "i2d", "l2i", "l2f",
   "l2d", "f2i", "f2l", "f2d", "d2i", "d2l",
   "d2f", "i2b", "i2c", "i2s", "lcmp", "fcmpl",
   "fcmpg", "dcmpl", "dcmpg", "ifeq", "ifne", "iflt",
   "ifge", "ifgt", "ifle", "if_icmpeq", "if_icmpne", "if_icmplt",
   "if_icmpge", "if_icmpgt", "if_icmple", "if_acmpeq", "if_acmpne", "goto",
   "jsr", "ret", "tableswitch", "lookupswitch", "ireturn", "lreturn",
   "freturn", "dreturn", "areturn", "return", "getstatic", "putstatic",
   "getfield", "putfield", "invokevirtual", "invokespecial", "invokestatic", "invokeinterface",
   "invokedynamic", "new", "newarray", "anewarray", "arraylength", "athrow",
   "checkcast", "instanceof", "monitorenter", "monitorexit", "wide", "multianewarray",
   "ifnull", "ifnonnull", "goto_w", "jsr_w"]

/-- The name of the opcode with number `n`. Elements of a stream that do not come from the code
array have the number -1, called `none`; other numbers without a mnemonic are named in
hexadecimal. -/
def nameOfNumber (n : Int) : String :=
  match n with
  | .ofNat k => (mnemonics[k]?).getD ("Opcode(0x" ++ Text.hexAtLeast 2 k ++ ")")
  | .negSucc 0 => "none"
  | .negSucc k =>
    -- the sign counts as one of the two places
    "Opcode(0x-" ++ Text.hexAtLeast 1 (k + 1) ++ ")"

/-- The mnemonic of an opcode. -/
def mnemonic (op : Opcode) : String := nameOfNumber op.code.toNat

/-- The opcode with a given mnemonic. -/
def ofMnemonic? (name : String) : Option Opcode :=
  (mnemonics.findIdx? (· == name)).map fun n => ⟨UInt8.ofNat n⟩

/-! ### Opcodes that are referred to by name -/

/-- The opcode `nop`. -/
def nop : Opcode := ⟨0x00⟩

/-- The opcode `aconst_null`. -/
def aconstNull : Opcode := ⟨0x01⟩

/-- The opcode `iconst_m1`. -/
def iconstM1 : Opcode := ⟨0x02⟩

/-- The opcode `bipush`. -/
def bipush : Opcode := ⟨0x10⟩

/-- The opcode `sipush`. -/
def sipush : Opcode := ⟨0x11⟩

/-- The opcode `ldc`. -/
def ldc : Opcode := ⟨0x12⟩

/-- The opcode `ldc_w`. -/
def ldcW : Opcode := ⟨0x13⟩

/-- The opcode `ldc2_w`. -/
def ldc2W : Opcode := ⟨0x14⟩

/-- The opcode `iload`. -/
def iload : Opcode := ⟨0x15⟩

/-- The opcode `aload`. -/
def aload : Opcode := ⟨0x19⟩

/-- The opcode `iload_0`. -/
def iload0 : Opcode := ⟨0x1a⟩

/-- The opcode `aload_3`. -/
def aload3 : Opcode := ⟨0x2d⟩

/-- The opcode `istore`. -/
def istore : Opcode := ⟨0x36⟩

/-- The opcode `astore`. -/
def astore : Opcode := ⟨0x3a⟩

/-- The opcode `istore_0`. -/
def istore0 : Opcode := ⟨0x3b⟩

/-- The opcode `astore_3`. -/
def astore3 : Opcode := ⟨0x4e⟩

/-- The opcode `iinc`. -/
def iinc : Opcode := ⟨0x84⟩

/-- The opcode `ifeq`. -/
def ifeq : Opcode := ⟨0x99⟩

/-- The opcode `goto`. -/
def goto : Opcode := ⟨0xa7⟩

/-- The opcode `jsr`. -/
def jsr : Opcode := ⟨0xa8⟩

/-- The opcode `ret`. -/
def ret : Opcode := ⟨0xa9⟩

/-- The opcode `tableswitch`. -/
def tableswitch : Opcode := ⟨0xaa⟩

/-- The opcode `lookupswitch`. -/
def lookupswitch : Opcode := ⟨0xab⟩

/-- The opcode `ireturn`. -/
def ireturn : Opcode := ⟨0xac⟩

/-- The opcode `return`. -/
def voidReturn : Opcode := ⟨0xb1⟩

/-- The opcode `getstatic`. -/
def getstatic : Opcode := ⟨0xb2⟩

/-- The opcode `putstatic`. -/
def putstatic : Opcode := ⟨0xb3⟩

/-- The opcode `getfield`. -/
def getfield : Opcode := ⟨0xb4⟩

/-- The opcode `putfield`. -/
def putfield : Opcode := ⟨0xb5⟩

/-- The opcode `invokevirtual`. -/
def invokevirtual : Opcode := ⟨0xb6⟩

/-- The opcode `invokespecial`. -/
def invokespecial : Opcode := ⟨0xb7⟩

/-- The opcode `invokestatic`. -/
def invokestatic : Opcode := ⟨0xb8⟩

/-- The opcode `invokeinterface`. -/
def invokeinterface : Opcode := ⟨0xb9⟩

/-- The opcode `invokedynamic`. -/
def invokedynamic : Opcode := ⟨0xba⟩

/-- The opcode `new`. -/
def new : Opcode := ⟨0xbb⟩

/-- The opcode `newarray`. -/
def newarray : Opcode := ⟨0xbc⟩

/-- The opcode `anewarray`. -/
def anewarray : Opcode := ⟨0xbd⟩

/-- The opcode `athrow`. -/
def athrow : Opcode := ⟨0xbf⟩

/-- The opcode `checkcast`. -/
def checkcast : Opcode := ⟨0xc0⟩

/-- The opcode `instanceof`. -/
def instanceof : Opcode := ⟨0xc1⟩

/-- The opcode `wide`. -/
def wide : Opcode := ⟨0xc4⟩

/-- The opcode `multianewarray`. -/
def multianewarray : Opcode := ⟨0xc5⟩

/-- The opcode `ifnull`. -/
def ifnull : Opcode := ⟨0xc6⟩

/-- The opcode `ifnonnull`. -/
def ifnonnull : Opcode := ⟨0xc7⟩

/-- The opcode `goto_w`. -/
def gotoW : Opcode := ⟨0xc8⟩

/-- The opcode `jsr_w`. -/
def jsrW : Opcode := ⟨0xc9⟩

/-- Is the opcode between two others, both included? -/
def between (op first last : Opcode) : Bool := first.code ≤ op.code && op.code ≤ last.code

/-- The opcode `n` places after `op`. -/
def plus (op : Opcode) (n : Nat) : Opcode := ⟨op.code + UInt8.ofNat n⟩

end Opcode

/-! ### Value types -/

/-- The computational type that an instruction works on. -/
inductive ValueType where
  | void
  | int
  | long
  | float
  | double
  | reference
deriving DecidableEq, Repr, Inhabited

namespace ValueType

/-- The name of a value type. -/
def name : ValueType → String
  | void => "void"
  | int => "int"
  | long => "long"
  | float => "float"
  | double => "double"
  | reference => "reference"

/-- The value types by number; every other number stands for `void`. -/
def ofNumber (n : Int) : ValueType :=
  match n with
  | 1 => int
  | 2 => long
  | 3 => float
  | 4 => double
  | 5 => reference
  | _ => void

/-- The place of a type in the order int, long, float, double, reference that the load, store
and return opcodes share. -/
def place : ValueType → Nat
  | void => 0
  | int => 0
  | long => 1
  | float => 2
  | double => 3
  | reference => 4

/-- The type at a place of that order. -/
def atPlace : Nat → ValueType
  | 0 => int
  | 1 => long
  | 2 => float
  | 3 => double
  | _ => reference

/-- The opcode that loads a local variable of this type. -/
def loadOpcode (t : ValueType) : Opcode := Opcode.iload.plus t.place

/-- The opcode that stores into a local variable of this type. -/
def storeOpcode (t : ValueType) : Opcode := Opcode.istore.plus t.place

/-- The opcode that returns a value of this type. -/
def returnOpcode (t : ValueType) : Opcode :=
  if t = void then Opcode.voidReturn else Opcode.ireturn.plus t.place

end ValueType

/-! ### Calls and field accesses -/

/-- The four ways to call a method by name. -/
inductive InvokeKind where
  | virtual
  | interface
  | special
  | static
deriving DecidableEq, Repr, Inhabited

namespace InvokeKind

/-- The name of a kind of call. -/
def name : InvokeKind → String
  | virtual => "virtual"
  | interface => "interface"
  | special => "special"
  | static => "static"

/-- The kinds of call in order. -/
def all : List InvokeKind := [virtual, interface, special, static]

/-- The name of the kind of call with number `n`. -/
def nameOfNumber (n : Nat) : String :=
  ((all[n]?).map name).getD ("InvokeKind(" ++ toString n ++ ")")

/-- The opcode of a kind of call. -/
def opcode : InvokeKind → Opcode
  | virtual => Opcode.invokevirtual
  | interface => Opcode.invokeinterface
  | special => Opcode.invokespecial
  | static => Opcode.invokestatic

end InvokeKind

/-- The four ways to reach a field. -/
inductive FieldAccess where
  | getStatic
  | putStatic
  | getField
  | putField
deriving DecidableEq, Repr, Inhabited

/-- The opcode of a field access. -/
def FieldAccess.opcode : FieldAccess → Opcode
  | getStatic => Opcode.getstatic
  | putStatic => Opcode.putstatic
  | getField => Opcode.getfield
  | putField => Opcode.putfield

end ClassAudit
