import ClassAudit.Access
import ClassAudit.Text.Utf8

/-!
# Modified UTF-8

The encoding of texts in class files: NUL takes two bytes, and a character above U+FFFF is
written as the two surrogates of its UTF-16 form, each in three bytes. No encoded text holds a
zero byte.

## Main definitions

* `ModifiedUtf8.encode` - the bytes of a text.
* `ModifiedUtf8.unitsFrom` - the UTF-16 units that a byte string encodes, if it is well formed.
* `ModifiedUtf8.joinUnits` - the text of a sequence of UTF-16 units.
* `ModifiedUtf8.read`, `ModifiedUtf8.decode` - the text that a byte string encodes.
-/

namespace ClassAudit.Text.ModifiedUtf8

/-! ### Writing -/

/-- The three bytes of a UTF-16 unit from U+0800 on. -/
def encodeUnit3 (n : Nat) : List UInt8 :=
  [UInt8.ofNat (0xe0 + n / 4096), UInt8.ofNat (0x80 + n / 64 % 64), UInt8.ofNat (0x80 + n % 64)]

/-- The bytes of one character. -/
def encodeChar (c : Char) : List UInt8 :=
  let n := c.toNat
  if n ≠ 0 ∧ n < 0x80 then [UInt8.ofNat n]
  else if n < 0x800 then [UInt8.ofNat (0xc0 + n / 64), UInt8.ofNat (0x80 + n % 64)]
  else if n < 0x10000 then encodeUnit3 n
  else
    encodeUnit3 (0xd800 + (n - 0x10000) / 1024) ++ encodeUnit3 (0xdc00 + (n - 0x10000) % 1024)

/-- The bytes of a text. -/
def encode (s : List Char) : List UInt8 := s.flatMap encodeChar

/-! ### Reading -/

/-- The UTF-16 units of the bytes from `i` on. A zero byte, a byte that begins no unit and a unit
without all its continuation bytes are refused; overlong forms are not. -/
def unitsFrom (bytes : Array UInt8) (i : Nat) : Access (Option (List Nat)) :=
  if i < bytes.size then do
    let a ← Access.get bytes i
    if a = 0 then return none
    else if a < 0x80 then
      return (← unitsFrom bytes (i + 1)).map (a.toNat :: ·)
    else if 0xc0 ≤ a ∧ a < 0xe0 then
      if bytes.size ≤ i + 1 then return none
      else
        let b ← Access.get bytes (i + 1)
        if isTail b then
          return (← unitsFrom bytes (i + 2)).map (((a.toNat % 32) * 64 + tailBits b) :: ·)
        else return none
    else if 0xe0 ≤ a ∧ a < 0xf0 then
      if bytes.size ≤ i + 2 then return none
      else
        let b ← Access.get bytes (i + 1)
        let c ← Access.get bytes (i + 2)
        if isTail b && isTail c then
          return (← unitsFrom bytes (i + 3)).map
            (((a.toNat % 16) * 4096 + tailBits b * 64 + tailBits c) :: ·)
        else return none
    else return none
  else return some []
termination_by bytes.size - i

/-- The first half of a surrogate pair. -/
def isHighSurrogate (u : Nat) : Bool := 0xd800 ≤ u && u < 0xdc00

/-- The second half of a surrogate pair. -/
def isLowSurrogate (u : Nat) : Bool := 0xdc00 ≤ u && u < 0xe000

/-- The text of a sequence of UTF-16 units; a surrogate without its partner is read as
U+FFFD. -/
def joinUnits : List Nat → List Char
  | [] => []
  | [u] => [if isHighSurrogate u || isLowSurrogate u then replacement else Char.ofNat u]
  | u :: v :: rest =>
    if isHighSurrogate u && isLowSurrogate v then
      Char.ofNat (0x10000 + (u - 0xd800) * 1024 + (v - 0xdc00)) :: joinUnits rest
    else
      (if isHighSurrogate u || isLowSurrogate u then replacement else Char.ofNat u) ::
        joinUnits (v :: rest)

/-- The text that a byte string encodes, if it is well formed. -/
def read (bytes : List UInt8) : Access (Option (List Char)) :=
  return (← unitsFrom bytes.toArray 0).map joinUnits

/-- The text that a byte string encodes, if it is well formed and no access failed. -/
def decode (bytes : List UInt8) : Option (List Char) :=
  match read bytes with
  | .ok text => text
  | .error _ => none

end ClassAudit.Text.ModifiedUtf8
