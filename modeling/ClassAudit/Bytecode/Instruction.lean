import ClassAudit.Bytecode.Opcode
import ClassAudit.Text.Basic

/-!
# Instructions

A decoded method body is a sequence of instructions, interleaved with markers that carry no
meaning for the machine: labels, source line numbers and stack map frames.

## Main definitions

* `MemberRef` - a field or method named by owner, name and descriptor.
* `Action` - what an element of a body does, with its operands.
* `Kind` - the coarse classification of actions.
* `Instruction` - an action at a position of the code array.
* `Instruction.text` - the one-line form of an instruction.
-/

namespace ClassAudit

/-- A field or method named by the class that owns it, its name and its descriptor. All three are
Unicode texts; bytes that are no UTF-8 are not modelled. -/
structure MemberRef where
  owner : String
  name : String
  desc : String
deriving DecidableEq, Repr, Inhabited

/-- What an element of a method body does. -/
inductive Action where
  /-- A position that branches, handlers or tables refer to. -/
  | label (id : Int)
  /-- The beginning of a source line. -/
  | line (number : Int)
  /-- A stack map frame. -/
  | frame
  | load (type : ValueType) (slot : Int)
  | store (type : ValueType) (slot : Int)
  | inc (slot : Int)
  | field (access : FieldAccess) (target : MemberRef)
  | invoke (kind : InvokeKind) (target : MemberRef)
  /-- A call site bound at run time; it has no owner. -/
  | invokeDynamic (name desc : String)
  | new (owner : String)
  /-- A cast, a type test, or the creation of an array of references. -/
  | typeCheck (op : Opcode) (owner : String)
  | jump (op : Opcode) (target : Int)
  | branch (op : Opcode) (target : Int)
  /-- The default target comes first. -/
  | tableSwitch (targets : List Int)
  | lookupSwitch (targets : List Int)
  | return (type : ValueType)
  | throw
  | stack (op : Opcode)
  | const (op : Opcode)
  /-- A call of a subroutine inside the method. -/
  | subroutine (op : Opcode) (target : Int)
  /-- The return from a subroutine through a wide local variable. -/
  | wideRet (slot : Int)
  /-- Everything else: arithmetic, conversions, array accesses, monitors. -/
  | plain (op : Opcode)
deriving DecidableEq, Repr, Inhabited

/-! ### Kinds -/

/-- The coarse classification of actions. -/
inductive Kind where
  | label
  | lineMarker
  | frameMarker
  | loadLocal
  | storeLocal
  | incLocal
  | getField
  | putField
  | getStatic
  | putStatic
  | invoke
  | invokeDynamic
  | new
  | typeCheck
  | jump
  | conditionalJump
  | tableSwitch
  | lookupSwitch
  | return
  | throw
  | stackOp
  | constLoad
  | other
deriving DecidableEq, Repr, Inhabited

namespace Kind

/-- The name of a kind. -/
def name : Kind → String
  | label => "Label"
  | lineMarker => "LineMarker"
  | frameMarker => "FrameMarker"
  | loadLocal => "LoadLocal"
  | storeLocal => "StoreLocal"
  | incLocal => "IncLocal"
  | getField => "GetField"
  | putField => "PutField"
  | getStatic => "GetStatic"
  | putStatic => "PutStatic"
  | invoke => "Invoke"
  | invokeDynamic => "InvokeDynamic"
  | new => "New"
  | typeCheck => "TypeCheck"
  | jump => "Jump"
  | conditionalJump => "ConditionalJump"
  | tableSwitch => "TableSwitch"
  | lookupSwitch => "LookupSwitch"
  | Kind.return => "Return"
  | throw => "Throw"
  | stackOp => "StackOp"
  | constLoad => "ConstLoad"
  | other => "Other"

/-- The kinds in order. -/
def all : List Kind :=
  [label, lineMarker, frameMarker, loadLocal, storeLocal, incLocal, getField, putField,
   getStatic, putStatic, invoke, invokeDynamic, new, typeCheck, jump, conditionalJump,
   tableSwitch, lookupSwitch, Kind.return, throw, stackOp, constLoad, other]

/-- The name of the kind with number `n`. -/
def nameOfNumber (n : Nat) : String :=
  ((all[n]?).map name).getD ("Kind(" ++ toString n ++ ")")

end Kind

namespace Action

/-- The kind of an action. -/
def kind : Action → Kind
  | label _ => .label
  | line _ => .lineMarker
  | frame => .frameMarker
  | load _ _ => .loadLocal
  | store _ _ => .storeLocal
  | inc _ => .incLocal
  | field .getField _ => .getField
  | field .putField _ => .putField
  | field .getStatic _ => .getStatic
  | field .putStatic _ => .putStatic
  | invoke _ _ => .invoke
  | invokeDynamic _ _ => .invokeDynamic
  | new _ => .new
  | typeCheck _ _ => .typeCheck
  | jump _ _ => .jump
  | branch _ _ => .conditionalJump
  | tableSwitch _ => .tableSwitch
  | lookupSwitch _ => .lookupSwitch
  | Action.return _ => .return
  | throw => .throw
  | stack _ => .stackOp
  | const _ => .constLoad
  | subroutine _ _ => .other
  | wideRet _ => .other
  | plain _ => .other

/-! ### Operands -/

/-- The opcode of an action; markers have none. -/
def opcode? : Action → Option Opcode
  | label _ => none
  | line _ => none
  | frame => none
  | load t _ => some t.loadOpcode
  | store t _ => some t.storeOpcode
  | inc _ => some .iinc
  | field access _ => some access.opcode
  | invoke k _ => some k.opcode
  | invokeDynamic _ _ => some .invokedynamic
  | new _ => some .new
  | typeCheck op _ => some op
  | jump op _ => some op
  | branch op _ => some op
  | tableSwitch _ => some .tableswitch
  | lookupSwitch _ => some .lookupswitch
  | Action.return t => some t.returnOpcode
  | throw => some .athrow
  | stack op => some op
  | const op => some op
  | subroutine op _ => some op
  | wideRet _ => some .ret
  | plain op => some op

/-- The mnemonic of an action, `none` for a marker. -/
def mnemonic (a : Action) : String :=
  match a.opcode? with
  | some op => op.mnemonic
  | none => Opcode.nameOfNumber (-1)

/-- The local variable that an action names. -/
def slot? : Action → Option Int
  | load _ s => some s
  | store _ s => some s
  | inc s => some s
  | wideRet s => some s
  | _ => none

/-- The positions that control can be sent to. -/
def targets : Action → List Int
  | jump _ t => [t]
  | branch _ t => [t]
  | subroutine _ t => [t]
  | tableSwitch ts => ts
  | lookupSwitch ts => ts
  | _ => []

/-- The class that an action names. -/
def owner : Action → String
  | field _ m => m.owner
  | invoke _ m => m.owner
  | new o => o
  | typeCheck _ o => o
  | _ => ""

/-- The member name that an action uses. -/
def name : Action → String
  | field _ m => m.name
  | invoke _ m => m.name
  | invokeDynamic n _ => n
  | _ => ""

/-- The member descriptor that an action uses. -/
def desc : Action → String
  | field _ m => m.desc
  | invoke _ m => m.desc
  | invokeDynamic _ d => d
  | _ => ""

/-- The type of the value that an action moves. -/
def valueType : Action → ValueType
  | load t _ => t
  | store t _ => t
  | inc _ => .int
  | Action.return t => t
  | _ => .void

/-- The source line of a line marker. -/
def line? : Action → Option Int
  | line n => some n
  | _ => none

/-- The kind and target of a call. -/
def call? : Action → Option (InvokeKind × MemberRef)
  | invoke k m => some (k, m)
  | _ => none

/-! ### Tests -/

/-- Labels, line numbers and frames carry no meaning and are skipped by every scan. -/
def isMarker : Action → Bool
  | label _ => true
  | line _ => true
  | frame => true
  | _ => false

/-- A method call with an owner. -/
def isInvoke : Action → Bool
  | invoke _ _ => true
  | _ => false

/-- A read or a write of a field. -/
def isFieldAccess : Action → Bool
  | field _ _ => true
  | _ => false

/-- A push of a reference from a local variable. -/
def isRefLoad : Action → Bool
  | load t _ => t == .reference
  | _ => false

/-- Control never falls through to the next instruction: a return, a throw, or a jump. -/
def isTerminal : Action → Bool
  | Action.return _ => true
  | throw => true
  | jump _ _ => true
  | _ => false

/-- Does the action use exactly this owner, name and descriptor? -/
def uses (a : Action) (owner name desc : String) : Bool :=
  a.owner == owner && a.name == name && a.desc == desc

/-! ### Text -/

/-- The one-line form of an action. -/
def text (a : Action) : String :=
  match a with
  | label id => "L" ++ toString id ++ ":"
  | line n => "line " ++ toString n
  | frame => "frame"
  | load _ s => a.mnemonic ++ " " ++ toString s
  | store _ s => a.mnemonic ++ " " ++ toString s
  | inc s => a.mnemonic ++ " " ++ toString s
  | field _ m => a.mnemonic ++ " " ++ m.owner ++ "." ++ m.name ++ m.desc
  | invoke _ m => a.mnemonic ++ " " ++ m.owner ++ "." ++ m.name ++ m.desc
  | invokeDynamic n d => a.mnemonic ++ " " ++ n ++ d
  | new o => a.mnemonic ++ " " ++ o
  | typeCheck _ o => a.mnemonic ++ " " ++ o
  | jump _ t => arrow [t]
  | branch _ t => arrow [t]
  | tableSwitch ts => arrow ts
  | lookupSwitch ts => arrow ts
  | _ => a.mnemonic
where
  /-- The mnemonic and the targets after an arrow. -/
  arrow (ts : List Int) : String :=
    a.mnemonic ++ " -> " ++ Text.joinWith "," (ts.map toString)

end Action

/-- An element of a method body: an action and its position in the code array. -/
structure Instruction where
  action : Action
  pc : Nat := 0
deriving DecidableEq, Repr, Inhabited

namespace Instruction

/-- The kind of an instruction. -/
def kind (i : Instruction) : Kind := i.action.kind

/-- Labels, line numbers and frames. -/
def isMarker (i : Instruction) : Bool := i.action.isMarker

/-- The one-line form of an instruction. -/
def text (i : Instruction) : String := i.action.text

/-- A condition on actions is one on instructions that does not ask for the position. -/
instance : Coe (Action → Bool) (Instruction → Bool) := ⟨fun p i => p i.action⟩

end Instruction

end ClassAudit
