import ClassAudit.Access
import ClassAudit.Text.Basic
import ClassAudit.Text.Quoted
import ClassAudit.Text.Utf8

/-!
# Type descriptors

A field descriptor is a letter for a primitive type, `L` name `;` for a class, or either of them
after at most 255 opening brackets for an array. A method descriptor lists the descriptors of its
parameters in parentheses, followed by the descriptor of its result or `V`. Descriptors are taken
apart as byte strings, by indexes.

## Main definitions

* `fieldLength` - how many bytes the field descriptor at the beginning of a byte string takes.
* `MethodDescriptor`, `MethodDescriptor.parse` - a method descriptor taken apart.
* `DescriptorFault` - why a text is no method descriptor.
* `typeSize`, `paramSlots` - how many local variables a value takes, and which ones parameters
  are passed in.
-/

namespace ClassAudit

/-! ### Field descriptors -/

/-- The letters of the primitive types. -/
def primitiveLetters : List Char := ['B', 'C', 'D', 'F', 'I', 'J', 'S', 'Z']

/-- The bytes of a text, to be accessed by their index. -/
def byteTable (s : List Char) : Array UInt8 := (s.flatMap String.utf8EncodeChar).toArray

/-- The text that a part of such bytes spells. -/
def ofByteTable (bytes : Array UInt8) : String :=
  String.ofList (Text.decodeForgiving bytes.toList)

/-- The index of the first byte from `i` on that is no opening bracket. -/
def skipBrackets (s : Array UInt8) (i : Nat) : Access Nat :=
  if i < s.size then do
    if (← Access.get s i) = '['.toUInt8 then skipBrackets s (i + 1) else return i
  else return i
termination_by s.size - i

/-- The number of bytes of the field descriptor that a byte string begins with, 0 if it begins with
none. -/
def fieldLength (s : Array UInt8) : Access Nat := do
  let dims ← skipBrackets s 0
  if dims = s.size ∨ dims > 255 then return 0
  else
    let c ← Access.get s dims
    if (primitiveLetters.map Char.toUInt8).contains c then return dims + 1
    else if c = 'L'.toUInt8 then
      let named ← Access.slice s dims s.size
      match named.toList.idxOf? ';'.toUInt8 with
      | some stop => return if stop ≤ 1 then 0 else dims + stop + 1
      | none => return 0
    else return 0

/-- Is the text exactly one field descriptor? -/
def checkFieldDescriptor (desc : String) : Access Bool :=
  let s := byteTable desc.toList
  if s.isEmpty then return false else return (← fieldLength s) == s.size

/-- The text is exactly one field descriptor, and no access failed. -/
def validFieldDescriptor (desc : String) : Bool :=
  match checkFieldDescriptor desc with
  | .ok valid => valid
  | .error _ => false

/-- The internal name of a class descriptor; arrays and primitive types have none. -/
def objectType? (desc : String) : Option String :=
  match desc.toList with
  | 'L' :: rest =>
    if rest.length ≥ 2 && rest.getLast? == some ';' then some (String.ofList rest.dropLast)
    else none
  | _ => none

/-- A descriptor without its array dimensions. -/
def elementType (desc : String) : String :=
  String.ofList (desc.toList.dropWhile (· == '['))

/-- A class or an array. -/
def isReferenceType (desc : String) : Bool :=
  match desc.toList with
  | c :: _ => c == 'L' || c == '['
  | [] => false

/-- The number of local variables that a value of a type takes. -/
def typeSize (desc : String) : Nat := if desc == "J" || desc == "D" then 2 else 1

/-! ### Method descriptors -/

/-- A method descriptor taken apart. -/
structure MethodDescriptor where
  /-- One field descriptor for each parameter. -/
  params : List String
  /-- A field descriptor, or `V`. -/
  result : String
deriving DecidableEq, Repr

/-- Why a text is no method descriptor. -/
inductive DescriptorFault where
  | missingOpen
  /-- No field descriptor begins at this byte. -/
  | badParameter (offset : Nat)
  | missingClose
  | badReturn
  /-- The text was accessed past its end. No text leads here. -/
  | outside (access : OutOfBounds)
deriving DecidableEq, Repr

/-- The wording of a fault of the method descriptor `desc`. -/
def DescriptorFault.message (desc : String) (fault : DescriptorFault) : String :=
  "method descriptor " ++ Text.quote desc ++ ": " ++
    match fault with
    | .missingOpen => "missing '('"
    | .badParameter offset => "bad parameter at " ++ toString offset
    | .missingClose => "missing ')'"
    | .badReturn => "bad return type"
    | .outside access => "index out of range [" ++ toString access.index ++ "] with length " ++
        toString access.size

namespace MethodDescriptor

/-- Runs a computation on the bytes of a descriptor. -/
def access {α : Type} (r : Access α) : Except DescriptorFault α := r.mapError .outside

/-- The parameters from byte `i` on and the index of the closing parenthesis behind them. -/
def readParams (s : Array UInt8) (i : Nat) : Except DescriptorFault (List String × Nat) :=
  if i < s.size then do
    if (← access (Access.get s i)) = ')'.toUInt8 then return ([], i)
    else
      let n ← access (Access.slice s i s.size >>= fieldLength)
      if n = 0 then throw (.badParameter i)
      else
        let param ← access (Access.slice s i (i + n))
        let (params, stop) ← readParams s (i + n)
        return (ofByteTable param :: params, stop)
  else throw .missingClose
termination_by s.size - i

/-- Takes a method descriptor apart. -/
def parse (desc : String) : Except DescriptorFault MethodDescriptor :=
  match desc.toList with
  | '(' :: _ => do
    let s := byteTable desc.toList
    let (params, stop) ← readParams s 1
    let tail ← access (Access.slice s (stop + 1) s.size)
    let result := ofByteTable tail
    if tail.isEmpty then throw .badReturn
    else if result == "V" then return ⟨params, result⟩
    else if (← access (fieldLength tail)) = tail.size then return ⟨params, result⟩
    else throw .badReturn
  | _ => .error .missingOpen

end MethodDescriptor

/-- The result descriptor of a method descriptor, empty when it is invalid. -/
def returnType (desc : String) : String :=
  match MethodDescriptor.parse desc with
  | .ok d => d.result
  | .error _ => ""

/-- The first local variable of each parameter when the first one is passed in `slot`. -/
def slotsFrom : Nat → List String → List Nat
  | _, [] => []
  | slot, p :: ps => slot :: slotsFrom (slot + typeSize p) ps

/-- The local variable of each parameter. Instance methods are passed their receiver in local
variable 0. -/
def paramSlots? (desc : String) (static : Bool) : Option (List Nat) :=
  match MethodDescriptor.parse desc with
  | .ok d => some (slotsFrom (if static then 0 else 1) d.params)
  | .error _ => none

end ClassAudit
