import ClassAudit.Assembly.PoolBuilder
import ClassAudit.Assembly.Step

/-!
# Laying out method bodies

Steps become bytes in two passes. The first fixes the position of every step, and with it the
positions of labels, source lines and frames; the second writes the bytes with the branch
offsets resolved. The size of a push of a constant depends on its pool index, so the first pass
already adds the constants that are pushed to the pool.

## Main definitions

* `WriteFault` - why a body cannot be written.
* `argSlots` - the number of argument places that a call descriptor takes.
* `Step.size`, `Step.encode` - the size and the bytes of a step.
* `Layout`, `Layout.ofSteps`, `Layout.code` - the two passes.
-/

namespace ClassAudit

/-- Why a body cannot be written. -/
inductive WriteFault where
  | duplicateLabel (label : String)
  | unknownLabel (label : String)
  | handlerLabel (label : String)
  | localLabel (name label : String)
  /-- The descriptor of an interface call ends inside an array type. -/
  | cutDescriptor (desc : String)
deriving DecidableEq, Repr

/-- The wording of a fault. -/
def WriteFault.message : WriteFault → String
  | duplicateLabel label => "duplicate label " ++ Text.quote label
  | unknownLabel label => "unknown label " ++ Text.quote label
  | handlerLabel label => "handler: unknown label " ++ Text.quote label
  | localLabel name label => "local " ++ name ++ ": unknown label " ++ Text.quote label
  | cutDescriptor desc => "descriptor " ++ Text.quote desc ++ " ends inside an array type"

/-- Writes bytes while constants are added to a pool. -/
abbrev Emit := StateT PoolBuilder (Except WriteFault)

/-- Asks the pool for a constant. -/
def Emit.request (r : PoolBuilder.Request) : Emit Nat := fun p => .ok (r p)

/-! ### Argument places -/

/-- The argument places of a call descriptor after its first character. A long or double takes
two, a class or array one, and anything else as many as it has bytes. -/
def countSlots (s : List Char) : Option Nat :=
  match s with
  | [] => some 0
  | c :: rest =>
    if c == ')' then some 0
    else if c == 'J' || c == 'D' then (countSlots rest).map (· + 2)
    else if c == 'L' then
      have := (List.dropWhile_suffix (l := rest) (· != ';')).length_le
      (countSlots ((rest.dropWhile (· != ';')).drop 1)).map (· + 1)
    else if c == '[' then
      match h : rest.dropWhile (· == '[') with
      | [] => none
      | d :: inner =>
        have := Text.length_lt_of_dropWhile h
        if d == 'L' then
          have := (List.dropWhile_suffix (l := inner) (· != ';')).length_le
          (countSlots ((inner.dropWhile (· != ';')).drop 1)).map (· + 1)
        else (countSlots inner).map (· + d.utf8Size)
    else (countSlots rest).map (· + c.utf8Size)
termination_by s.length
decreasing_by
  all_goals simp only [List.length_cons, List.length_drop]
  all_goals omega

/-- The number of argument places of a call descriptor, none when it ends after an opening
bracket. The first byte, normally a parenthesis, takes no place. -/
def argSlots (desc : String) : Option Nat :=
  match desc.toList with
  | [] => some 0
  | c :: rest => (countSlots rest).map (· + (c.utf8Size - 1))

/-! ### Steps -/

/-- The bytes that align the operands of a switch at `pc` to a multiple of four. -/
def switchPad (pc : Nat) : Nat := (4 - (pc + 1) % 4) % 4

namespace Step

/-- Needs a two-byte local variable. -/
def isWideSlot (slot : Int) : Bool := slot > 255

/-- Does an increment need its wide form? -/
def isWideInc (slot delta : Int) : Bool := isWideSlot slot || delta < -128 || delta > 127

/-- The size of an access to a local variable. -/
def slotSize (slot : Int) : Nat := if slot ≤ 3 then 1 else if isWideSlot slot then 4 else 2

/-- The size of a push of the constant at a pool index. -/
def pushSize (index : Nat) : Nat := if index ≤ 255 then 2 else 3

/-- The size of a step at `pc`. Constants that are pushed are added to the pool. -/
def size (pc : Nat) : Step → PoolBuilder.Request
  | label _ => return 0
  | line _ => return 0
  | frame => return 0
  | plain _ => return 1
  | load _ s => return slotSize s
  | store _ s => return slotSize s
  | inc s delta => return if isWideInc s delta then 6 else 3
  | int v =>
    if -1 ≤ v ∧ v ≤ 5 then return 1
    else if -128 ≤ v ∧ v ≤ 127 then return 2
    else if -32768 ≤ v ∧ v ≤ 32767 then return 3
    else return pushSize (← PoolBuilder.integer v)
  | string text => return pushSize (← PoolBuilder.string text)
  | long v => do
    discard (PoolBuilder.long v)
    return 3
  | field _ _ => return 3
  | type _ _ => return 3
  | jump _ _ => return 3
  | invoke .interface _ => return 5
  | invoke _ _ => return 3
  | invokeDynamic _ _ => return 5
  | newArray _ => return 2
  | multiNewArray _ _ => return 4
  | tableSwitch _ _ targets => return 1 + switchPad pc + 12 + 4 * targets.length
  | lookupSwitch _ cases => return 1 + switchPad pc + 8 + 8 * cases.length

/-- The bytes of an access to a local variable, given the opcodes of its general form and of its
form for variable 0. -/
def encodeSlot (op : Opcode) (short : Opcode) (slot : Int) : List UInt8 :=
  if slot ≤ 3 then [Binary.byte (short.code.toNat + slot)]
  else if isWideSlot slot then Opcode.wide.code :: op.code :: Binary.u2 slot
  else [op.code, Binary.byte slot]

/-- The bytes of a push of the constant at a pool index. -/
def encodePush (index : Nat) : List UInt8 :=
  if index ≤ 255 then [Opcode.ldc.code, Binary.byte index]
  else Opcode.ldcW.code :: Binary.u2 index

/-- The distance from `pc` to a label. -/
def distance (labels : List (String × Nat)) (pc : Nat) (label : String) : Emit Int :=
  match labels.lookup label with
  | some target => return (target : Int) - pc
  | none => throw (.unknownLabel label)

/-- The bytes of a step at `pc`. -/
def encode (labels : List (String × Nat)) (pc : Nat) : Step → Emit (List UInt8)
  | label _ => return []
  | line _ => return []
  | frame => return []
  | plain op => return [op.code]
  | load t s => return encodeSlot t.loadOpcode (Opcode.iload0.plus (4 * t.place)) s
  | store t s => return encodeSlot t.storeOpcode (Opcode.istore0.plus (4 * t.place)) s
  | inc s delta =>
    if isWideInc s delta then
      return Opcode.wide.code :: Opcode.iinc.code :: (Binary.u2 s ++ Binary.u2 delta)
    else return [Opcode.iinc.code, Binary.byte s, Binary.byte delta]
  | int v =>
    if -1 ≤ v ∧ v ≤ 5 then return [Binary.byte (Opcode.iconstM1.code.toNat + v + 1)]
    else if -128 ≤ v ∧ v ≤ 127 then return [Opcode.bipush.code, Binary.byte v]
    else if -32768 ≤ v ∧ v ≤ 32767 then return Opcode.sipush.code :: Binary.u2 v
    else return encodePush (← Emit.request (PoolBuilder.integer v))
  | string text => return encodePush (← Emit.request (PoolBuilder.string text))
  | long v => return Opcode.ldc2W.code :: Binary.u2 (← Emit.request (PoolBuilder.long v))
  | field access m => do
    let index ← Emit.request (PoolBuilder.member .field m)
    return access.opcode.code :: Binary.u2 index
  | invoke .interface m => do
    let index ← Emit.request (PoolBuilder.member .interfaceMethod m)
    match argSlots m.desc with
    | some n =>
      return Opcode.invokeinterface.code :: (Binary.u2 index ++ [Binary.byte (n + 1), 0])
    | none => throw (.cutDescriptor m.desc)
  | invoke kind m => do
    let index ← Emit.request (PoolBuilder.member .method m)
    return kind.opcode.code :: Binary.u2 index
  | invokeDynamic name desc => do
    let index ← Emit.request (PoolBuilder.invokeDynamic name desc)
    return Opcode.invokedynamic.code :: (Binary.u2 index ++ [0, 0])
  | type op owner => return op.code :: Binary.u2 (← Emit.request (PoolBuilder.classRef owner))
  | newArray element => return [Opcode.newarray.code, Binary.byte element]
  | multiNewArray desc dims => do
    let index ← Emit.request (PoolBuilder.classRef desc)
    return Opcode.multianewarray.code :: (Binary.u2 index ++ [Binary.byte dims])
  | jump op target => return op.code :: Binary.u2 (← distance labels pc target)
  | tableSwitch low default targets => do
    let other ← distance labels pc default
    let offsets ← targets.mapM (distance labels pc)
    return Opcode.tableswitch.code :: (List.replicate (switchPad pc) 0 ++ Binary.u4 other ++
      Binary.u4 low ++ Binary.u4 (low + targets.length - 1) ++ offsets.flatMap Binary.u4)
  | lookupSwitch default cases => do
    let other ← distance labels pc default
    let offsets ← cases.mapM fun (key, target) => return (key, ← distance labels pc target)
    return Opcode.lookupswitch.code :: (List.replicate (switchPad pc) 0 ++ Binary.u4 other ++
      Binary.u4 cases.length ++
      offsets.flatMap fun (key, offset) => Binary.u4 key ++ Binary.u4 offset)

end Step

/-! ### The two passes -/

/-- A body with the position of each of its steps. -/
structure Layout where
  steps : List (Nat × Step)

namespace Layout

/-- The steps of a body with their positions, the first of which is `pc`. -/
def positions (pc : Nat) : List Step → StateM PoolBuilder (List (Nat × Step))
  | [] => return []
  | s :: rest => do
    let n ← s.size pc
    return (pc, s) :: (← positions (pc + n) rest)

/-- The labels with their positions. -/
def labels (l : Layout) : List (String × Nat) :=
  l.steps.filterMap fun
    | (pc, .label name) => some (name, pc)
    | _ => none

/-- The position and the number of each source line. -/
def lines (l : Layout) : List (Nat × Int) :=
  l.steps.filterMap fun
    | (pc, .line n) => some (pc, n)
    | _ => none

/-- The positions of the frames. -/
def frames (l : Layout) : List Nat :=
  l.steps.filterMap fun
    | (pc, .frame) => some pc
    | _ => none

/-- The first label that is in `seen` or stands before itself in the list. -/
def firstRepeated? (seen : List String) : List String → Option String
  | [] => none
  | name :: rest =>
    if seen.contains name then some name else firstRepeated? (name :: seen) rest

/-- The first pass: the positions of a list of steps. A label has one place only. -/
def ofSteps (steps : List Step) : Emit Layout := do
  let layout : Layout := ⟨← fun p => .ok (positions 0 steps p)⟩
  match firstRepeated? [] (layout.labels.map (·.1)) with
  | some name => throw (.duplicateLabel name)
  | none => return layout

/-- The second pass: the bytes of a layout. -/
def code (l : Layout) : Emit (List UInt8) := do
  let labels := l.labels
  let parts ← l.steps.mapM fun (pc, s) => s.encode labels pc
  return parts.flatten

end Layout

end ClassAudit
