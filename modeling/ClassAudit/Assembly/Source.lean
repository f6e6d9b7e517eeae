import ClassAudit.Assembly.Step
import ClassAudit.Text.Blank
import ClassAudit.Text.Number

/-!
# Assembly text

Method bodies are written one step per line: a mnemonic and its operands, separated by blanks.
`Name:` alone places a label, `line N` begins a source line, `frame` records a stack map frame,
`int N` pushes an int, and `#` begins a comment.

## Main definitions

* `Source.Fault` - what is wrong with a line.
* `Source.Error` - a fault, with the line that it is in.
* `Step.parse` - the step that the words of a line spell.
* `Step.parseAll` - the steps that a text spells.
-/

namespace ClassAudit

namespace Source

/-- What is wrong with a line. -/
inductive Fault where
  | operandCount (mnemonic : String) (want got : Nat)
  | badNumber (mnemonic text : String)
  | badLong (text : String) (fault : Text.NumberFault)
  | unknownMnemonic (mnemonic : String)
  | tableSwitchOperands
  | lookupSwitchDefault
  | badPair (pair : String)
  | unsupported (mnemonic : String)
deriving DecidableEq, Repr

/-- The wording of a fault. -/
def Fault.message : Fault → String
  | operandCount mnemonic want got =>
    mnemonic ++ " takes " ++ toString want ++ " operands, got " ++ toString got
  | badNumber mnemonic text => mnemonic ++ ": bad number " ++ Text.quote text
  | badLong text fault =>
    "strconv.ParseInt: parsing " ++ Text.quote text ++ ": " ++ fault.message
  | unknownMnemonic mnemonic => "unknown mnemonic " ++ Text.quote mnemonic
  | tableSwitchOperands => "tableswitch needs low, default and at least one target"
  | lookupSwitchDefault => "lookupswitch needs a default target"
  | badPair pair => "lookupswitch pair " ++ Text.quote pair ++ " is not key:label"
  | unsupported mnemonic => mnemonic ++ " is not supported by the assembler"

/-- A line that spells no step. -/
structure Error where
  /-- Lines are counted from 1. -/
  number : Nat
  /-- The line with its comment, without outer blanks. -/
  line : String
  fault : Fault
deriving DecidableEq, Repr

/-- The wording of an error. -/
def Error.message (e : Error) : String :=
  "line " ++ toString e.number ++ " " ++ Text.quote e.line ++ ": " ++ e.fault.message

end Source

namespace Step

open Source

/-! ### Operands -/

/-- Checks the number of operands. -/
def expect (mnemonic : String) (want : Nat) (args : List String) : Except Fault Unit :=
  if args.length = want then return else throw (.operandCount mnemonic want args.length)

/-- A number operand. -/
def number (mnemonic text : String) : Except Fault Int :=
  match Text.readInt64 text.toList with
  | .ok n => return n
  | .error _ => throw (.badNumber mnemonic text)

/-- The only operand, which is a number. -/
def oneNumber (mnemonic : String) : List String → Except Fault Int
  | [a] => number mnemonic a
  | args => throw (.operandCount mnemonic 1 args.length)

/-- A member given by owner, name and descriptor. -/
def memberOperand (mnemonic : String) : List String → Except Fault MemberRef
  | [owner, name, desc] => return ⟨owner, name, desc⟩
  | args => throw (.operandCount mnemonic 3 args.length)

/-- The only operand. -/
def oneWord (mnemonic : String) : List String → Except Fault String
  | [a] => return a
  | args => throw (.operandCount mnemonic 1 args.length)

/-- The cases of a lookup switch, each `key:label`. -/
def switchCases (mnemonic : String) : List String → Except Fault (List (Int × String))
  | [] => return []
  | pair :: rest => do
    match Text.cutAt (· == ':') pair.toList with
    | none => throw (.badPair pair)
    | some (key, target) =>
      let key ← number mnemonic (String.ofList key)
      return (key, String.ofList target) :: (← switchCases mnemonic rest)

/-! ### Lines -/

/-- The step of a mnemonic that names an opcode. -/
def parseOpcode (mnemonic : String) (op : Opcode) (args : List String) : Except Fault Step := do
  let none' : Except Fault Unit := expect mnemonic 0 args
  let code := op.code.toNat
  if 0x15 ≤ code ∧ code ≤ 0x19 then
    return .load (.atPlace (code - 0x15)) (← oneNumber mnemonic args)
  else if 0x36 ≤ code ∧ code ≤ 0x3a then
    return .store (.atPlace (code - 0x36)) (← oneNumber mnemonic args)
  else if 0x1a ≤ code ∧ code ≤ 0x2d then
    none'
    return .load (.atPlace ((code - 0x1a) / 4)) ((code - 0x1a) % 4 : Nat)
  else if 0x3b ≤ code ∧ code ≤ 0x4e then
    none'
    return .store (.atPlace ((code - 0x3b) / 4)) ((code - 0x3b) % 4 : Nat)
  else if op = .iinc then
    match args with
    | [slot, delta] =>
      let slot ← number mnemonic slot
      let delta ← number mnemonic delta
      return .inc slot delta
    | _ => throw (.operandCount mnemonic 2 args.length)
  else if op = .bipush ∨ op = .sipush then return .int (← oneNumber mnemonic args)
  else if op = .getstatic then return .field .getStatic (← memberOperand mnemonic args)
  else if op = .putstatic then return .field .putStatic (← memberOperand mnemonic args)
  else if op = .getfield then return .field .getField (← memberOperand mnemonic args)
  else if op = .putfield then return .field .putField (← memberOperand mnemonic args)
  else if op = .invokevirtual then return .invoke .virtual (← memberOperand mnemonic args)
  else if op = .invokespecial then return .invoke .special (← memberOperand mnemonic args)
  else if op = .invokestatic then return .invoke .static (← memberOperand mnemonic args)
  else if op = .invokeinterface then return .invoke .interface (← memberOperand mnemonic args)
  else if op = .invokedynamic then
    match args with
    | [name, desc] => return .invokeDynamic name desc
    | _ => throw (.operandCount mnemonic 2 args.length)
  else if op = .new ∨ op = .anewarray ∨ op = .checkcast ∨ op = .instanceof then
    return .type op (← oneWord mnemonic args)
  else if op = .newarray then return .newArray (← oneNumber mnemonic args)
  else if op = .multianewarray then
    match args with
    | [desc, dims] => return .multiNewArray desc (← number mnemonic dims)
    | _ => throw (.operandCount mnemonic 2 args.length)
  else if (0x99 ≤ code ∧ code ≤ 0xa7) ∨ op = .ifnull ∨ op = .ifnonnull then
    return .jump op (← oneWord mnemonic args)
  else if op = .tableswitch then
    match args with
    | low :: default :: first :: more =>
      return .tableSwitch (← number mnemonic low) default (first :: more)
    | _ => throw .tableSwitchOperands
  else if op = .lookupswitch then
    match args with
    | default :: pairs => return .lookupSwitch default (← switchCases mnemonic pairs)
    | [] => throw .lookupSwitchDefault
  else if op = .wide ∨ op = .jsr ∨ op = .ret ∨ op = .gotoW ∨ op = .jsrW then
    throw (.unsupported mnemonic)
  else
    none'
    return .plain op

/-- The label that a lone word places, if it ends in a colon. -/
def labelWord? (word : String) : Option String :=
  match word.toList.reverse with
  | ':' :: rest => some (String.ofList rest.reverse)
  | _ => none

/-- The step that the words of a line spell. -/
def parse (mnemonic : String) (args : List String) : Except Fault Step := do
  let pushConstant : Except Fault Step :=
    let operand := Text.joinWith " " args
    match Text.unquote operand.toList with
    | some literal => return .string literal
    | none => return .int (← number mnemonic operand)
  match args, labelWord? mnemonic with
  | [], some name => return .label name
  | _, _ =>
    if mnemonic = "line" then return .line (← oneNumber mnemonic args)
    else if mnemonic = "frame" then
      expect mnemonic 0 args
      return .frame
    else if mnemonic = "int" then return .int (← oneNumber mnemonic args)
    else if mnemonic = "ldc" ∨ mnemonic = "ldc_w" then pushConstant
    else if mnemonic = "ldc2_w" then
      let a ← oneWord mnemonic args
      match Text.readInt64 a.toList with
      | .ok n => return .long n
      | .error fault => throw (.badLong a fault)
    else match Opcode.ofMnemonic? mnemonic with
      | none => throw (.unknownMnemonic mnemonic)
      | some op => parseOpcode mnemonic op args

/-- A line without its comment. -/
def withoutComment (line : List Char) : List Char := line.takeWhile (· != '#')

/-- The step that a line spells, if it holds more than blanks and a comment. -/
def parseLine (line : String) : Except Fault (Option Step) :=
  match Text.words (withoutComment line.toList) with
  | [] => return none
  | mnemonic :: args => some <$> parse (String.ofList mnemonic) (args.map String.ofList)

/-- The steps of lines, the first of which has the given number. -/
def parseLines (number : Nat) : List String → Except Source.Error (List Step)
  | [] => return []
  | text :: rest =>
    match parseLine text with
    | .error fault => throw { number, line := Text.trim text, fault }
    | .ok none => parseLines (number + 1) rest
    | .ok (some step) => return step :: (← parseLines (number + 1) rest)

/-- The steps that a text spells. -/
def parseAll (text : String) : Except Source.Error (List Step) := parseLines 1 (Text.lines text)

end Step

end ClassAudit
