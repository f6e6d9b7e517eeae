import ClassAudit.ClassFile.Cursor

/-!
# Stack map tables

A stack map table lists, in ascending order, the positions of a code array at which the verifier
finds the types of local variables and stack described. Only the positions are kept here.

## Main definitions

* `StackMap.positions` - the positions that the bytes of a table describe.
* `StackMap.encode` - the bytes of a table that describes given positions.
-/

namespace ClassAudit.StackMap

/-! ### Reading -/

/-- Steps over a type that the verifier knows; only two kinds of types have an operand. -/
def skipType : Read Unit := do
  let start ← Read.position
  let tag ← Read.u1 "verification_type tag"
  if tag = 7 ∨ tag = 8 then Read.skip 2 "verification_type operand"
  else if tag > 8 then Read.fail (.badVerificationTag tag) (some start)
  else return

/-- Steps over `n` types. -/
def skipTypes (n : Nat) : Read Unit := discard (Read.times n skipType)

/-- Reads a frame and gives its distance from the frame before it, less one. -/
def delta : Read Nat := do
  let start ← Read.position
  let type ← Read.u1 "frame_type"
  if type ≤ 63 then return type
  else if type ≤ 127 then
    skipTypes 1
    return type - 64
  else if type < 247 then Read.fail (.reservedFrame type) (some start)
  else
    let d ← Read.u2 "offset_delta"
    if type = 247 then skipTypes 1
    else if type ≤ 251 then pure ()
    else if type ≤ 254 then skipTypes (type - 251)
    else
      skipTypes (← Read.u2 "verification type count")
      skipTypes (← Read.u2 "verification type count")
    return d

/-- Reads `n` frames, where `next` is the position after the frame before them. -/
def frames : (n next : Nat) → Read (List Nat)
  | 0, _ => return []
  | n + 1, next => do
    let d ← delta
    return (next + d) :: (← frames n (next + d + 1))

/-- Reads a table. -/
def table : Read (List Nat) := do
  let n ← Read.u2 "number_of_entries"
  frames n 0

/-- The positions that the bytes of a table describe, in ascending order. -/
def positions (data : List UInt8) : Except Malformed (List Nat) := Read.runOn data table

/-! ### Writing -/

/-- The bytes of one frame at distance `d`. -/
def encodeDelta (d : Nat) : List UInt8 :=
  if d ≤ 63 then [Binary.byte d] else 251 :: Binary.u2 d

/-- The bytes of the frames at ascending positions, where `next` is the position after the frame
before them. -/
def encodeFrom : Nat → List Nat → List UInt8
  | _, [] => []
  | next, pc :: rest => encodeDelta (pc - next) ++ encodeFrom (pc + 1) rest

/-- The positions in ascending order, each once. -/
def normal (pcs : List Nat) : List Nat := pcs.mergeSort.eraseReps

/-- The bytes of a table that describes the given positions. -/
def encode (pcs : List Nat) : List UInt8 :=
  let sorted := normal pcs
  Binary.u2 sorted.length ++ encodeFrom 0 sorted

end ClassAudit.StackMap
