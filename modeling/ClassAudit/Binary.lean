import ClassAudit.Access

/-!
# Big-endian words

Class files store numbers as big-endian words of one, two, four or eight bytes. A number that
does not fit its word keeps its lowest bytes, so a negative number is stored in two's
complement.

## Main definitions

* `Binary.span` - the number of words of a width.
* `Binary.wrap` - the unsigned value of the lowest bits of an integer.
* `Binary.signed` - the signed reading of a word.
* `Binary.word` - the bytes of a word.
* `Binary.value` - the number that a byte string spells.
* `Binary.leading` - the number that the first bytes of a table spell.
-/

namespace ClassAudit.Binary

/-- The number of words of `bits` bits. -/
def span (bits : Nat) : Nat := Nat.pow 2 bits

/-- The unsigned value of the lowest `bits` bits of an integer. -/
def wrap (bits : Nat) (n : Int) : Nat := (n % (span bits : Int)).toNat

/-- The two's complement reading of a word of `bits` bits. -/
def signed (bits : Nat) (n : Nat) : Int :=
  if n < span (bits - 1) then n else (n : Int) - span bits

/-- The `width` lowest bytes of a number, highest first. -/
def wordOfNat : Nat → Nat → List UInt8
  | 0, _ => []
  | width + 1, n => wordOfNat width (n / 256) ++ [UInt8.ofNat n]

/-- The `width` lowest bytes of an integer, highest first. -/
def word (width : Nat) (n : Int) : List UInt8 := wordOfNat width (wrap (8 * width) n)

/-- One byte. -/
def byte (n : Int) : UInt8 := UInt8.ofNat (wrap 8 n)

/-- Two bytes. -/
def u2 (n : Int) : List UInt8 := word 2 n

/-- Four bytes. -/
def u4 (n : Int) : List UInt8 := word 4 n

/-- Eight bytes. -/
def u8 (n : Int) : List UInt8 := word 8 n

/-- The number that a byte string spells, highest byte first. -/
def value (bytes : List UInt8) : Nat := bytes.foldl (fun acc b => acc * 256 + b.toNat) 0

/-- The number that the first `width` bytes of a table spell. -/
def leading (bytes : Array UInt8) : (width : Nat) → Access Nat
  | 0 => return 0
  | width + 1 => do
    let high ← leading bytes width
    return high * 256 + (← Access.get bytes width).toNat

end ClassAudit.Binary
