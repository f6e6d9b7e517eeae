import ClassAudit.Binary
import ClassAudit.Text.Quoted

/-!
# Decimal numbers

Reading a signed 64-bit integer in decimal: an optional sign and at least one digit, nothing
else. Reading goes from left to right and stops at the first fault, so a number that is already
too large is out of range whatever follows.

## Main definitions

* `NumberFault` - why a text is no such number.
* `readInt64` - the number that a text spells.
* `hexUpper` - a number in upper-case hexadecimal.
-/

namespace ClassAudit.Text

/-- Why a text spells no signed 64-bit integer. -/
inductive NumberFault where
  /-- A character that is no digit, or no digit at all. -/
  | malformed
  /-- Outside the signed 64-bit range. -/
  | outOfRange
deriving DecidableEq, Repr

/-- The wording of a fault. -/
def NumberFault.message : NumberFault → String
  | .malformed => "invalid syntax"
  | .outOfRange => "value out of range"

/-- Reads digits after the value `acc`, which stays below 2 ^ 64. -/
def readMagnitude : Nat → List Char → Except NumberFault Nat
  | acc, [] => .ok acc
  | acc, c :: s =>
    match digitValue? 10 c with
    | none => .error .malformed
    | some v =>
      if acc * 10 + v < Binary.span 64 then readMagnitude (acc * 10 + v) s else .error .outOfRange

/-- The magnitude of a number without its sign. -/
def readUnsigned64 (s : List Char) : Except NumberFault Nat :=
  if s.isEmpty then .error .malformed else readMagnitude 0 s

/-- The signed 64-bit integer that a text spells. -/
def readInt64 : List Char → Except NumberFault Int
  | '-' :: s => do
    let n ← readUnsigned64 s
    if n ≤ Binary.span 63 then return -(n : Int) else throw .outOfRange
  | '+' :: s => positive s
  | s => positive s
where
  /-- A number without sign, or after a plus. -/
  positive (s : List Char) : Except NumberFault Int := do
    let n ← readUnsigned64 s
    if n < Binary.span 63 then return (n : Int) else throw .outOfRange

/-- An upper-case hexadecimal digit. -/
def hexDigitUpper (n : Nat) : Char :=
  if n % 16 < 10 then Char.ofNat (48 + n % 16) else Char.ofNat (55 + n % 16)

/-- The last `width` hexadecimal digits of a number, in upper case. -/
def hexUpper : Nat → Nat → List Char
  | 0, _ => []
  | width + 1, n => hexUpper width (n / 16) ++ [hexDigitUpper n]

/-- The number of hexadecimal digits that a number needs, at least one. -/
def hexWidth (n : Nat) : Nat := if n < 16 then 1 else Nat.log2 n / 4 + 1

/-- A number in upper-case hexadecimal with at least `width` digits. -/
def hexAtLeast (width n : Nat) : String := String.ofList (hexUpper (max width (hexWidth n)) n)

end ClassAudit.Text
