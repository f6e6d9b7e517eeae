import ClassAudit.Proofs.PoolGrowth
import ClassAudit.Assembly.Step

/-!
# What assembly steps mean

A step of a body to be written means an instruction: of a kind, with an opcode, and with a local
variable, a value type, a member or labels as its operands. Only the opcode that pushes an int
or a string is left to the writer.

## Main definitions

* `Step.kind`, `Step.opcode?`, `Step.valueType`, `Step.call?`, `Step.owner`, `Step.name`,
  `Step.desc` - what a step means.
* `Step.Proper` - a step with operands that its opcode has.
* `Step.Agrees`, `AimsAt` - an action that means the same as a step.
* `Vocabulary.Clear` - members and call sites that are told apart by their joined texts.
-/

namespace ClassAudit

namespace Opcode

/-- The opcode of an instruction without operands. -/
def Bare (op : Opcode) : Prop :=
  op.code.toNat ≤ 0x0f ∨ (0x2e ≤ op.code.toNat ∧ op.code.toNat ≤ 0x35) ∨
    (0x4f ≤ op.code.toNat ∧ op.code.toNat ≤ 0x98 ∧ op.code.toNat ≠ 0x84) ∨
    (0xac ≤ op.code.toNat ∧ op.code.toNat ≤ 0xb1) ∨ op.code.toNat ∈ [0xbe, 0xbf, 0xc2, 0xc3]

/-- The kind of an instruction without operands. -/
def bareKind (op : Opcode) : Kind :=
  let code := op.code.toNat
  if 0x01 ≤ code ∧ code ≤ 0x0f then .constLoad
  else if 0x57 ≤ code ∧ code ≤ 0x5f then .stackOp
  else if 0xac ≤ code ∧ code ≤ 0xb1 then .return
  else if code = 0xbf then .throw
  else .other

/-- The type of the value that an instruction without operands returns. -/
def bareType (op : Opcode) : ValueType :=
  let code := op.code.toNat
  if 0xac ≤ code ∧ code ≤ 0xb0 then .atPlace (code - 0xac) else .void

end Opcode

namespace Step

/-- Everything but labels, source lines and frames is an instruction. -/
def isInstruction : Step → Bool
  | label _ => false
  | line _ => false
  | frame => false
  | _ => true

/-- The kind of a step. -/
def kind : Step → Kind
  | label _ => .label
  | line _ => .lineMarker
  | frame => .frameMarker
  | plain op => op.bareKind
  | load _ _ => .loadLocal
  | store _ _ => .storeLocal
  | inc _ _ => .incLocal
  | int _ => .constLoad
  | string _ => .constLoad
  | long _ => .constLoad
  | field .getField _ => .getField
  | field .putField _ => .putField
  | field .getStatic _ => .getStatic
  | field .putStatic _ => .putStatic
  | invoke _ _ => .invoke
  | invokeDynamic _ _ => .invokeDynamic
  | type op _ => if op = .new then .new else .typeCheck
  | newArray _ => .other
  | multiNewArray _ _ => .typeCheck
  | jump op _ => if op = .goto then .jump else .conditionalJump
  | tableSwitch _ _ _ => .tableSwitch
  | lookupSwitch _ _ => .lookupSwitch

/-- The opcode of a step, in the general form of accesses to local variables. An int or a string
is pushed by the opcode that fits it best. -/
def opcode? : Step → Option Opcode
  | label _ => none
  | line _ => none
  | frame => none
  | plain op => some op
  | load t _ => some t.loadOpcode
  | store t _ => some t.storeOpcode
  | inc _ _ => some .iinc
  | int _ => none
  | string _ => none
  | long _ => some .ldc2W
  | field access _ => some access.opcode
  | invoke k _ => some k.opcode
  | invokeDynamic _ _ => some .invokedynamic
  | type op _ => some op
  | newArray _ => some .newarray
  | multiNewArray _ _ => some .multianewarray
  | jump op _ => some op
  | tableSwitch _ _ _ => some .tableswitch
  | lookupSwitch _ _ => some .lookupswitch

/-- The type of the value that a step moves. -/
def valueType : Step → ValueType
  | load t _ => t
  | store t _ => t
  | inc _ _ => .int
  | plain op => op.bareType
  | _ => .void

/-- The kind and target of a call. -/
def call? : Step → Option (InvokeKind × MemberRef)
  | invoke k m => some (k, m)
  | _ => none

/-- The class that a step names. -/
def owner : Step → String
  | field _ m => m.owner
  | invoke _ m => m.owner
  | type _ o => o
  | multiNewArray desc _ => desc
  | _ => ""

/-- The member name that a step uses. -/
def name : Step → String
  | field _ m => m.name
  | invoke _ m => m.name
  | invokeDynamic n _ => n
  | _ => ""

/-- The member descriptor that a step uses. -/
def desc : Step → String
  | field _ m => m.desc
  | invoke _ m => m.desc
  | invokeDynamic _ d => d
  | _ => ""

/-- The step keeps what its constructor asks for: its opcode takes the operands that the step has,
and its local variable has a two-byte number. -/
def Proper : Step → Prop
  | plain op => op.Bare
  | load t slot => t ≠ .void ∧ 0 ≤ slot ∧ slot ≤ 65535
  | store t slot => t ≠ .void ∧ 0 ≤ slot ∧ slot ≤ 65535
  | inc slot _ => 0 ≤ slot ∧ slot ≤ 65535
  | type op _ => op ∈ [.new, .anewarray, .checkcast, .instanceof]
  | jump op _ => (0x99 ≤ op.code.toNat ∧ op.code.toNat ≤ 0xa7) ∨ op = .ifnull ∨ op = .ifnonnull
  | _ => True

/-- The name and the descriptor that a step uses hold no blank. -/
def Unspaced (s : Step) : Prop := ' ' ∉ s.name.toList ∧ ' ' ∉ s.desc.toList

/-- The action means the same as the step. -/
structure Agrees (s : Step) (a : Action) : Prop where
  kind : a.kind = s.kind
  opcode : s.opcode? = none ∨ a.opcode? = s.opcode?
  slot : a.slot? = s.slot?
  valueType : a.valueType = s.valueType
  call : a.call? = s.call?
  owner : a.owner = s.owner
  name : a.name = s.name
  desc : a.desc = s.desc

end Step

/-- Different members have different joined texts, and so do different call sites. -/
structure Vocabulary.Clear (v : Vocabulary) : Prop where
  member : ∀ m m', v.member m → v.member m' → m.joined = m'.joined → m = m'
  site : ∀ n d n' d', v.site n d → v.site n' d' → n ++ d = n' ++ d' → n = n' ∧ d = d'

/-- The targets are the positions of the labels, each up to a multiple of 65536. -/
def AimsAt (labels : List (String × Nat)) (names : List String) (targets : List Int) : Prop :=
  List.Forall₂ (fun name target => ∃ (pc : Nat) (k : Int), labels.lookup name = some pc ∧
    target = pc + k * 65536) names targets

/-! ### Joined texts without blanks -/

/-- A name and a descriptor without blanks are told apart by the blank between them. -/
theorem eq_of_joined_eq {n d n' d' : String} (hn : ' ' ∉ n.toList) (hd : ' ' ∉ d.toList)
    (h : n' ++ " " ++ d' = n ++ " " ++ d) : n' = n ∧ d' = d := by
  have hlist : n'.toList ++ ' ' :: d'.toList = n.toList ++ ' ' :: d.toList := by
    have := congrArg String.toList h
    simpa using this
  obtain ⟨hname, -, hdesc⟩ := (List.append_cons_inj_of_notMem hn hd).mp hlist.symm
  exact ⟨String.toList_inj.mp hname.symm, String.toList_inj.mp hdesc.symm⟩

end ClassAudit
