import ClassAudit.Binary
import ClassAudit.Bytecode.Instruction

/-!
# Method bodies

A body is the sequence of instructions and markers of a method. Detectors search it from a position in
either direction, for at most a given number of instructions; markers are stepped over without
being counted.

## Main definitions

* `Body` - the elements of a method body.
* `Body.lookBack`, `Body.lookOn` - the bounded searches from a position of the body.
* `Body.scanBackward`, `Body.scanForward` - the same from any signed position of 64 bits.
* `Body.lineAt`, `Body.firstLine` - the source line of a position, and of the body.
* `Body.semantic` - the positions and instructions that are not markers.
-/

namespace ClassAudit

/-- The elements of a method body in program order. -/
structure Body where
  elements : List Instruction := []
deriving DecidableEq, Repr, Inhabited

namespace Body

/-- The number of elements, markers included. -/
def length (s : Body) : Nat := s.elements.length

/-- Does the body hold no element at all? -/
def isEmpty (s : Body) : Bool := s.elements.isEmpty

/-- The actions of a body with their positions. -/
def indexed (s : Body) : List (Nat × Action) :=
  s.elements.zipIdx.map fun (i, n) => (n, i.action)

/-- The actions that are no markers, with their positions. -/
def semantic (s : Body) : List (Nat × Action) := s.indexed.filter (!·.2.isMarker)

/-! ### Bounded searches -/

/-- Searches the elements before a position, nearest first, for one that satisfies `found`. The
search ends without result after `steps` instructions, or at an instruction that satisfies
`stop`, which is asked first. The position of an element is the number of elements before it. -/
def searchBack (found stop : Instruction → Bool) : Nat → List Instruction → Option Nat
  | 0, _ => none
  | _, [] => none
  | steps + 1, i :: before =>
    if i.isMarker then searchBack found stop (steps + 1) before
    else if stop i then none
    else if found i then some before.length
    else searchBack found stop steps before

/-- The bounded search backward, beginning with the element before position `n`. -/
def lookBack (s : Body) (n : Nat) (found stop : Instruction → Bool) (steps : Nat) : Option Nat :=
  searchBack found stop steps (s.elements.take n).reverse

/-- Searches elements in program order, the first of which is at position `n`; otherwise like
`searchBack`. -/
def searchOn (found stop : Instruction → Bool) : Nat → Nat → List Instruction → Option Nat
  | 0, _, _ => none
  | _, _, [] => none
  | steps + 1, n, i :: after =>
    if i.isMarker then searchOn found stop (steps + 1) (n + 1) after
    else if stop i then none
    else if found i then some n
    else searchOn found stop steps (n + 1) after

/-- The bounded search forward, beginning with the element at position `n`. -/
def lookOn (s : Body) (n : Nat) (found stop : Instruction → Bool) (steps : Nat) : Option Nat :=
  searchOn found stop steps n (s.elements.drop n)

/-! ### Searches from signed positions -/

/-- A search had to begin at a position that the body does not have. -/
structure OutsideBody where
  position : Int
deriving DecidableEq, Repr

/-- The signed position of 64 bits that an integer stands for. -/
def position (n : Int) : Int := Binary.signed 64 (Binary.wrap 64 n)

/-- The bounded search backward, beginning before `start` or, if that is nearer, before the end.
Before the least position comes the greatest, where no body has an element. -/
def scanBackward (s : Body) (start : Int) (found stop : Instruction → Bool) (steps : Int) :
    Except OutsideBody (Option Nat) :=
  let last := position (min start s.length - 1)
  if 0 < steps ∧ s.length ≤ last then .error ⟨last⟩
  else .ok (s.lookBack (last + 1).toNat found stop steps.toNat)

/-- The bounded search forward, beginning after `start` or, if that is nearer, at the first
element. After the greatest position comes the least. -/
def scanForward (s : Body) (start : Int) (found stop : Instruction → Bool) (steps : Int) :
    Option Nat :=
  s.lookOn (position (start + 1)).toNat found stop steps.toNat

/-! ### Source lines -/

/-- The last line number in a list of elements. -/
def lastLine? (elements : List Instruction) : Option Int :=
  elements.reverse.findSome? (·.action.line?)

/-- The source line of position `n`: the nearest line number at or before it, and 0 when there
is none. -/
def lineAt (s : Body) (n : Int) : Int :=
  (lastLine? (s.elements.take (n + 1).toNat)).getD 0

/-- The first line number of a body, and 0 when it has none. -/
def firstLine (s : Body) : Int := (s.elements.findSome? (·.action.line?)).getD 0

end Body

end ClassAudit
