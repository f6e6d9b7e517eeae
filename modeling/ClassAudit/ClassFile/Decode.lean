import ClassAudit.ClassFile.ConstantPool

/-!
# Decoding code arrays

A code array is a sequence of opcodes, each with operands of a length that the opcode and, for
switches, the operands decide. The short and the wide forms of local variable accesses are
decoded to the same instruction.

## Main definitions

* `Decode.one` - the instruction of an opcode, with its operands read.
* `Decode.body` - the instructions of a code array.
-/

namespace ClassAudit.Decode

/-- Carries a pool look-up into a reader. -/
def lookup {α : Type} (r : Except Malformed α) : Read α := fun c => r.map fun a => (a, c)

/-! ### Operands -/

/-- How far an opcode is behind another one. Opcodes are bytes, and so is their difference. -/
def distance (first code : Nat) : Nat := (code + 256 - first) % 256

/-- The type at a place of the order that the load, store and return opcodes share. -/
def typeAt (place : Nat) : Read ValueType :=
  if place < 5 then return .atPlace place else Read.fail (.outside place 5)

/-- A two-byte branch offset, as a target. -/
def branch16 (pc : Nat) : Read Int := do
  let offset ← Read.u2 "branch offset"
  return pc + Binary.signed 16 offset

/-- A four-byte branch offset, as a target. -/
def branch32 (pc : Nat) : Read Int := do
  let offset ← Read.s4 "branch offset"
  return pc + offset

/-- The kinds of constants that can be pushed. -/
def loadable : List Tag :=
  [.integer, .float, .long, .double, .classRef, .string, .methodHandle, .methodType, .dynamic]

/-- A reference to a member of one of the given kinds. -/
def member (pool : ConstantPool) (tags : List Tag) : Read MemberRef := do
  let index ← Read.u2 "member index"
  lookup (pool.memberRef index tags)

/-- A reference to a class. -/
def classOperand (pool : ConstantPool) : Read String := do
  let index ← Read.u2 "class index"
  lookup (pool.className index)

/-- Skips to the next multiple of four, counted from the beginning of the code array. -/
def switchPadding : Read Unit := do
  let pos ← Read.position
  Read.skip ((4 - pos % 4) % 4) "switch padding"

/-- The operands of a table switch: the default target first, then one target for each value
between the bounds. -/
def tableSwitch (pc : Nat) : Read Action := do
  switchPadding
  let default ← Read.s4 "tableswitch operand"
  let low ← Read.s4 "tableswitch operand"
  let high ← Read.s4 "tableswitch operand"
  if low > high then Read.fail (.switchBounds low high) (some pc)
  else
    let cases := high - low + 1
    if cases * 4 > (← Read.remaining) then Read.fail (.switchTooLong cases) (some pc)
    else
      let offsets ← Read.times cases.toNat (Read.s4 "tableswitch offset")
      return .tableSwitch ((pc + default) :: offsets.map (pc + ·))

/-- The operands of a lookup switch: the default target first, then the target of each pair. -/
def lookupSwitch (pc : Nat) : Read Action := do
  switchPadding
  let default ← Read.s4 "lookupswitch default"
  let pairs ← Read.s4 "lookupswitch npairs"
  if pairs < 0 ∨ pairs * 8 > (← Read.remaining) then Read.fail (.badPairCount pairs) (some pc)
  else
    let offsets ← Read.times pairs.toNat do
      Read.skip 4 "lookupswitch match"
      Read.s4 "lookupswitch offset"
    return .lookupSwitch ((pc + default) :: offsets.map (pc + ·))

/-- The instruction after a wide marker, whose local variable takes two bytes. -/
def wide (pc : Nat) : Read Action := do
  let code ← Read.u1 "wide opcode"
  let slot ← Read.u2 "wide local index"
  if 0x15 ≤ code ∧ code ≤ 0x19 then return .load (← typeAt (distance 0x15 code)) slot
  else if 0x36 ≤ code ∧ code ≤ 0x3a then return .store (← typeAt (distance 0x36 code)) slot
  else if code = 0xa9 then return .wideRet slot
  else if code = 0x84 then
    Read.skip 2 "wide iinc const"
    return .inc slot
  else Read.fail (.badWideOpcode code) (some pc)

/-! ### Instructions -/

/-- The opcodes up to `ldc2_w`: nothing is done, or a constant is pushed. -/
def push (pool : ConstantPool) (code : Nat) : Read Action := do
  let op : Opcode := ⟨UInt8.ofNat code⟩
  if code = 0x00 then return .plain op
  else if code ≤ 0x0f then return .const op
  else if code = 0x10 then
    Read.skip 1 "bipush operand"
    return .const op
  else if code = 0x11 then
    Read.skip 2 "sipush operand"
    return .const op
  else if code = 0x12 then
    let index ← Read.u1 "ldc index"
    discard (lookup (pool.entry index loadable))
    return .const op
  else
    let index ← Read.u2 "ldc index"
    discard (lookup (pool.entry index loadable))
    return .const op

/-- The opcodes from `iload` to `saload`, or from `istore` to `sastore`, where `first` is the first
of them: a local variable with its number in an operand, one of the first four local variables
of each type, or an element of an array. -/
def access (first : Nat) (make : ValueType → Int → Action) (code : Nat) : Read Action := do
  if code < first + 5 then
    let type ← typeAt (distance first code)
    let slot ← Read.u1 "local index"
    return make type slot
  else if code < first + 25 then
    let n := distance (first + 5) code
    return make (← typeAt (n / 4)) (n % 4 : Nat)
  else return .plain ⟨UInt8.ofNat code⟩

/-- The opcodes from `pop` to `dcmpg`: the operand stack is rearranged or computed on. -/
def compute (code : Nat) : Read Action := do
  let op : Opcode := ⟨UInt8.ofNat code⟩
  if code ≤ 0x5f then return .stack op
  else if code = 0x84 then
    let slot ← Read.u1 "iinc index"
    Read.skip 1 "iinc const"
    return .inc slot
  else return .plain op

/-- The opcodes from `ifeq` to `return`, and from `ifnull` to `jsr_w`: control is transferred. -/
def transfer (pc code : Nat) : Read Action := do
  let op : Opcode := ⟨UInt8.ofNat code⟩
  if code ≤ 0xa6 ∨ code = 0xc6 ∨ code = 0xc7 then return .branch op (← branch16 pc)
  else if code = 0xa7 then return .jump op (← branch16 pc)
  else if code = 0xc8 then return .jump op (← branch32 pc)
  else if code = 0xa8 then return .subroutine op (← branch16 pc)
  else if code = 0xc9 then return .subroutine op (← branch32 pc)
  else if code = 0xa9 then
    Read.skip 1 "ret index"
    return .plain op
  else if code = 0xaa then tableSwitch pc
  else if code = 0xab then lookupSwitch pc
  else if code ≤ 0xb0 then return .return (← typeAt (distance 0xac code))
  else return .return .void

/-- The name and the descriptor of a dynamic call site. -/
def callSite (pool : ConstantPool) (index : Nat) : Except Malformed (String × String) := do
  match ← pool.entry index [.invokeDynamic] with
  | .invokeDynamic _ nt => pool.nameAndType nt
  | _ => return ("", "")

/-- The uses of a field, in the order of their opcodes. -/
def fieldUses : Array FieldAccess := #[.getStatic, .putStatic, .getField, .putField]

/-- The opcodes from `getstatic` to `putfield`. -/
def fieldUse (pool : ConstantPool) (code : Nat) : Read Action := do
  let access ← Read.access (Access.get fieldUses (distance 0xb2 code))
  return .field access (← member pool [.fieldRef])

/-- The opcodes from `getstatic` to `invokedynamic`: a member is used. -/
def use (pool : ConstantPool) (code : Nat) : Read Action := do
  if code ≤ 0xb5 then fieldUse pool code
  else if code = 0xb6 then return .invoke .virtual (← member pool [.methodRef])
  else if code = 0xb7 then
    return .invoke .special (← member pool [.methodRef, .interfaceMethodRef])
  else if code = 0xb8 then
    return .invoke .static (← member pool [.methodRef, .interfaceMethodRef])
  else if code = 0xb9 then
    let target ← member pool [.interfaceMethodRef]
    Read.skip 2 "invokeinterface count"
    return .invoke .interface target
  else
    let index ← Read.u2 "invokedynamic index"
    let (name, desc) ← lookup (callSite pool index)
    Read.skip 2 "invokedynamic padding"
    return .invokeDynamic name desc

/-- The opcodes from `new` to `multianewarray`: objects and arrays. The wide marker and everything
that is no opcode are told apart here. -/
def object (pool : ConstantPool) (pc code : Nat) : Read Action := do
  let op : Opcode := ⟨UInt8.ofNat code⟩
  if code = 0xbb then return .new (← classOperand pool)
  else if code = 0xbc then
    Read.skip 1 "newarray type"
    return .plain op
  else if code = 0xbd ∨ code = 0xc0 ∨ code = 0xc1 then
    return .typeCheck op (← classOperand pool)
  else if code = 0xbe ∨ code = 0xc2 ∨ code = 0xc3 then return .plain op
  else if code = 0xbf then return .throw
  else if code = 0xc4 then wide pc
  else if code = 0xc5 then
    let owner ← classOperand pool
    Read.skip 1 "multianewarray dimensions"
    return .typeCheck op owner
  else Read.fail (.badOpcode code) (some pc)

/-- Reads the operands of the opcode `code`, which stands at position `pc`. -/
def one (pool : ConstantPool) (pc code : Nat) : Read Action :=
  if code ≤ 0x14 then push pool code
  else if code ≤ 0x35 then access 0x15 .load code
  else if code ≤ 0x56 then access 0x36 .store code
  else if code ≤ 0x98 then compute code
  else if code ≤ 0xb1 ∨ 0xc6 ≤ code ∧ code ≤ 0xc9 then transfer pc code
  else if code ≤ 0xba then use pool code
  else object pool pc code

/-- Reads at most `fuel` instructions, up to the end of the code array. -/
def upTo (pool : ConstantPool) : Nat → Read (List Instruction)
  | 0 => return []
  | fuel + 1 => do
    if ← Read.atEnd then return []
    else
      let pc ← Read.position
      let code ← Read.u1 "opcode"
      let action ← one pool pc code
      return { action, pc } :: (← upTo pool fuel)

/-- The instructions of a code array. Each takes at least a byte, so there are at most as many as
bytes. -/
def body (pool : ConstantPool) (code : List UInt8) : Except Malformed (List Instruction) :=
  Read.runOn code (upTo pool code.length)

end ClassAudit.Decode
