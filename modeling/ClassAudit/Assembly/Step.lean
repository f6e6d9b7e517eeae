import ClassAudit.Bytecode.Instruction
import ClassAudit.Text.Quoted

/-!
# Assembly steps

A method body to be written is a list of steps: instructions with symbolic operands, and the
pseudo steps that place labels, source lines and stack map frames.

## Main definitions

* `Step` - one step of a body.
* `Step.slot?` - the local variable that a step uses.
-/

namespace ClassAudit

/-- One step of a method body to be written. Branches name their targets by label. -/
inductive Step where
  /-- An instruction without operands, such as a return or an addition. -/
  | plain (op : Opcode)
  | label (name : String)
  | line (number : Int)
  | frame
  | load (type : ValueType) (slot : Int)
  | store (type : ValueType) (slot : Int)
  | inc (slot delta : Int)
  /-- Pushes an int in the shortest form. -/
  | int (value : Int)
  | string (value : Text.Literal)
  | long (value : Int)
  | field (access : FieldAccess) (target : MemberRef)
  | invoke (kind : InvokeKind) (target : MemberRef)
  | invokeDynamic (name desc : String)
  /-- One of `new`, `anewarray`, `checkcast` and `instanceof`. -/
  | type (op : Opcode) (owner : String)
  | newArray (element : Int)
  | multiNewArray (desc : String) (dims : Int)
  /-- `goto` or a conditional jump. -/
  | jump (op : Opcode) (target : String)
  /-- Jumps to the target at the value's distance from `low`, or to the default. -/
  | tableSwitch (low : Int) (default : String) (targets : List String)
  | lookupSwitch (default : String) (cases : List (Int × String))
deriving DecidableEq, Repr, Inhabited

namespace Step

/-- The local variable that a step uses. -/
def slot? : Step → Option Int
  | load _ s => some s
  | store _ s => some s
  | inc s _ => some s
  | _ => none

/-- The labels that a step jumps to. -/
def targets : Step → List String
  | jump _ t => [t]
  | tableSwitch _ d ts => d :: ts
  | lookupSwitch d cases => d :: cases.map (·.2)
  | _ => []

end Step

end ClassAudit
