import ClassAudit.Binary
import ClassAudit.ClassFile.Malformed

/-!
# Reading bytes

A cursor is the unread rest of a byte string together with the number of bytes already read.
Readers move the cursor forward or fail; they never look outside the byte string.

## Main definitions

* `Cursor`, `Read` - the position of a reader, and the type of readers.
* `Read.access` - a computation on tables, whose failures are faults of the reader.
* `Read.bytes`, `Read.u1`, `Read.u2`, `Read.u4`, `Read.s4`, `Read.skip` - the primitive readers.
* `Read.times` - the same reader, a given number of times.
-/

namespace ClassAudit

/-- A position in a byte string: the bytes that follow it and the number of bytes before it. -/
structure Cursor where
  rest : List UInt8
  pos : Nat := 0

/-- A reader moves a cursor and gives a value, or finds the bytes malformed. -/
abbrev Read := StateT Cursor (Except Malformed)

namespace Read

/-- The number of bytes already read. -/
def position : Read Nat := return (← get).pos

/-- The number of bytes left. -/
def remaining : Read Nat := return (← get).rest.length

/-- Has everything been read? -/
def atEnd : Read Bool := return (← get).rest.isEmpty

/-- Fails with a cause at an offset. -/
def fail {α : Type} (cause : Malformed.Cause) (offset : Option Nat := none) : Read α :=
  throw { cause, offset }

/-- Runs a computation on tables. An access past the end of one is a fault of the reader. -/
def access {α : Type} : Access α → Read α
  | .ok a => return a
  | .error e => fail (.outside e.index e.size)

/-- Reads exactly `n` bytes of the item called `item`. -/
def bytes (n : Nat) (item : String) : Read (List UInt8) := do
  let c ← get
  if Access.isShorter c.rest n then
    fail (.truncated item n c.rest.length) (some c.pos)
  else
    let (first, rest) ← access (Access.split c.rest n)
    set ({ rest, pos := c.pos + n } : Cursor)
    return first

/-- Reads an unsigned word of `width` bytes. -/
def word (width : Nat) (item : String) : Read Nat := do
  let b ← bytes width item
  access (Binary.leading b.toArray width)

/-- Reads an unsigned byte. -/
def u1 (item : String) : Read Nat := word 1 item

/-- Reads an unsigned two-byte word. -/
def u2 (item : String) : Read Nat := word 2 item

/-- Reads an unsigned four-byte word. -/
def u4 (item : String) : Read Nat := word 4 item

/-- Reads a signed four-byte word. -/
def s4 (item : String) : Read Int := Binary.signed 32 <$> u4 item

/-- Steps over `n` bytes. -/
def skip (n : Nat) (item : String) : Read Unit := discard (bytes n item)

/-- Reads `n` values one after the other. -/
def times {α : Type} : Nat → Read α → Read (List α)
  | 0, _ => return []
  | n + 1, r => do
    let a ← r
    return a :: (← times n r)

/-- Runs a reader inside a structure that its faults are reported in. -/
def within {α : Type} (place : Malformed.Place) (r : Read α) : Read α := fun c =>
  (r c).mapError (·.inside place)

/-- Runs a reader on a byte string of its own, with offsets counted from its beginning. -/
def runOn {α : Type} (data : List UInt8) (r : Read α) : Except Malformed α :=
  (r { rest := data }).map (·.1)

end Read

end ClassAudit
