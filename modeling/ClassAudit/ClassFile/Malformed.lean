import ClassAudit.ClassFile.Descriptor
import ClassAudit.Text.Number

/-!
# Malformed class files

Everything that can be wrong with the bytes of a class file, with the wording of each cause.

## Main definitions

* `PoolFault` - a constant pool index that does not lead to a constant of the right kind.
* `Malformed` - a cause, the structures around it, and the byte offset where it was found.
* `Malformed.reason`, `Malformed.message` - the wording.
-/

namespace ClassAudit

/-- A constant pool index that does not lead to a constant of the right kind. -/
inductive PoolFault where
  | outOfRange (index : Nat)
  /-- The entry has the tag `found` instead of one of `wanted`. -/
  | wrongTag (index found : Nat) (wanted : List Nat)
deriving DecidableEq, Repr

/-- The wording of a pool fault. -/
def PoolFault.message : PoolFault → String
  | .outOfRange index => "index " ++ toString index ++ " out of range"
  | .wrongTag index found wanted =>
    "index " ++ toString index ++ " has tag " ++ toString found ++ ", want [" ++
      Text.joinWith " " (wanted.map toString) ++ "]"

/-- Fields and methods. -/
inductive MemberKind where
  | field
  | method
deriving DecidableEq, Repr

/-- The word for a kind of member. -/
def MemberKind.name : MemberKind → String
  | field => "field"
  | method => "method"

namespace Malformed

/-- What is wrong. -/
inductive Cause where
  /-- The input ends inside the item called `item`. -/
  | truncated (item : String) (need have_ : Nat)
  | badMagic (magic : Nat)
  | unsupportedMajor (major : Nat)
  | emptyPool
  | badText (index : Nat)
  | badReferenceKind (index kind : Nat)
  | unknownTag (index tag : Nat)
  /-- A constant refers to something else than its kind allows. -/
  | badConstant (index : Nat) (fault : PoolFault)
  /-- The pool is used with a wrong index from outside. -/
  | badReference (fault : PoolFault)
  | attributeTooLong (name : String) (length : Nat)
  | badField (name desc : String)
  | badMethod (name desc : String) (fault : DescriptorFault)
  | unexpectedCode (name desc : String)
  | trailing (count : Nat)
  | badCodeLength (length : Nat)
  | badTarget (target : Int) (pc : Nat)
  | badHandler (start stop handler : Nat)
  | badOpcode (code : Nat)
  | badWideOpcode (code : Nat)
  | switchBounds (low high : Int)
  | switchTooLong (cases : Int)
  | badPairCount (count : Int)
  | reservedFrame (type : Nat)
  | badVerificationTag (tag : Nat)
  /-- A table of `size` entries is asked for an entry past its end. No byte string leads here. -/
  | outside (index size : Nat)
deriving DecidableEq, Repr

/-- The wording of a cause. -/
def Cause.message : Cause → String
  | truncated item need have_ =>
    "failed to read " ++ item ++ ": need " ++ toString need ++ " bytes, have " ++ toString have_
  | badMagic magic => "bad magic 0x" ++ Text.hexAtLeast 8 magic
  | unsupportedMajor major => "unsupported major version " ++ toString major
  | emptyPool => "constant_pool_count is zero"
  | badText index => "constant #" ++ toString index ++ ": invalid modified UTF-8"
  | badReferenceKind index kind =>
    "constant #" ++ toString index ++ ": invalid reference_kind " ++ toString kind
  | unknownTag index tag => "constant #" ++ toString index ++ ": unknown tag " ++ toString tag
  | badConstant index fault => "constant #" ++ toString index ++ ": " ++ fault.message
  | badReference fault => "constant pool reference: " ++ fault.message
  | attributeTooLong name length =>
    "attribute " ++ name ++ " length " ++ toString length ++ " exceeds class file"
  | badField name desc => "field " ++ name ++ ": invalid descriptor " ++ Text.quote desc
  | badMethod name desc fault => "method " ++ name ++ ": " ++ fault.message desc
  | unexpectedCode name desc =>
    "method " ++ name ++ desc ++ ": Code attribute on abstract or native method"
  | trailing count => toString count ++ " trailing bytes"
  | badCodeLength length => "invalid code_length " ++ toString length
  | badTarget target pc =>
    "branch target " ++ toString target ++ " at pc " ++ toString pc ++ " is not an instruction"
  | badHandler start stop handler =>
    "invalid exception handler range [" ++ toString start ++ "," ++ toString stop ++ ") -> " ++
      toString handler
  | badOpcode code => "invalid opcode 0x" ++ Text.hexAtLeast 2 code
  | badWideOpcode code => "invalid wide opcode 0x" ++ Text.hexAtLeast 2 code
  | switchBounds low high =>
    "tableswitch low " ++ toString low ++ " > high " ++ toString high
  | switchTooLong cases => "tableswitch with " ++ toString cases ++ " cases exceeds code"
  | badPairCount count => "invalid lookupswitch npairs " ++ toString count
  | reservedFrame type => "reserved stack map frame type " ++ toString type
  | badVerificationTag tag => "invalid verification type tag " ++ toString tag
  | outside index size =>
    "index out of range [" ++ toString index ++ "] with length " ++ toString size

/-- A structure of the class file that a fault lies in. -/
inductive Place where
  | thisClass
  | superClass
  | interface
  | sourceFile
  | attributeName
  | memberName (kind : MemberKind)
  | memberDescriptor (kind : MemberKind) (name : String)
  | member (kind : MemberKind) (name : String)
  | body (name desc : String)
deriving DecidableEq, Repr

/-- The wording of a place. -/
def Place.message : Place → String
  | thisClass => "this_class"
  | superClass => "super_class"
  | interface => "interface"
  | sourceFile => "SourceFile"
  | attributeName => "attribute name"
  | memberName kind => kind.name ++ " name"
  | memberDescriptor kind name => kind.name ++ " " ++ name ++ " descriptor"
  | member kind name => kind.name ++ " " ++ name
  | body name desc => "method " ++ name ++ desc

end Malformed

/-- Why bytes are no class file. -/
structure Malformed where
  cause : Malformed.Cause
  /-- Where reading failed, counted from the beginning of the innermost structure that is read
  on its own; none when the fault is not at a particular byte. -/
  offset : Option Nat
  /-- The structures around the fault, outermost first. -/
  places : List Malformed.Place := []
deriving DecidableEq, Repr

namespace Malformed

/-- The same fault, inside one more structure. -/
def inside (place : Place) (m : Malformed) : Malformed := { m with places := place :: m.places }

/-- The places and the cause in words. -/
def reason (m : Malformed) : String :=
  Text.joinWith ": " (m.places.map Place.message ++ [m.cause.message])

/-- The full wording, with the offset when it is known. -/
def message (m : Malformed) : String :=
  match m.offset with
  | some offset => "malformed class file at offset " ++ toString offset ++ ": " ++ m.reason
  | none => "malformed class file: " ++ m.reason

end Malformed

end ClassAudit
