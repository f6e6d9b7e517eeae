/-!
# Reading bytes as UTF-8

A byte string is a sequence of characters and of stray bytes, which begin no well-formed sequence
and stand for themselves. In the forgiving way a stray byte is read as U+FFFD. A value that is taken
from a configuration is a text, and keeps its stray bytes as characters from U+10DC80 to U+10DCFF, at
the end of the private use area; there these characters do not stand for themselves. Texts of class
files and names of files have no stray bytes. Reading a byte string, measuring it and finding faults
in it goes by its symbols and not by these characters.

## Main definitions

* `replacement` - the character U+FFFD.
* `Symbol`, `symbols` - the characters and stray bytes of a byte string.
* `decodeForgiving` - the forgiving reading, total on byte strings.
* `decodeKeeping` - the value that a byte string gives; `strayByte` - the character of a stray byte.
* `charBytes`, `textBytes` - the bytes of a character and of a value, stray bytes as themselves.
* `shown` - a value with U+FFFD for its stray bytes.
-/

namespace ClassAudit.Text

/-- The character that stands for something unreadable, U+FFFD. -/
def replacement : Char := Char.ofNat 0xfffd

/-- A continuation byte, 80 to BF. -/
def isTail (b : UInt8) : Bool := 0x80 ≤ b && b ≤ 0xbf

/-- The six payload bits of a continuation byte. -/
def tailBits (b : UInt8) : Nat := b.toNat % 64

/-- The character that a byte string begins with and its length in bytes, when it begins with a
well-formed sequence: no overlong form, no surrogate, nothing above U+10FFFF. -/
def leadingChar? : List UInt8 → Option (Char × Nat)
  | [] => none
  | a :: rest =>
    if a < 0x80 then some (Char.ofNat a.toNat, 1)
    else if 0xc2 ≤ a && a ≤ 0xdf then
      match rest with
      | b :: _ => if isTail b then some (Char.ofNat ((a.toNat % 32) * 64 + tailBits b), 2) else none
      | _ => none
    else if 0xe0 ≤ a && a ≤ 0xef then
      match rest with
      | b :: c :: _ =>
        let low : UInt8 := if a = 0xe0 then 0xa0 else 0x80
        let high : UInt8 := if a = 0xed then 0x9f else 0xbf
        if low ≤ b && b ≤ high && isTail c then
          some (Char.ofNat ((a.toNat % 16) * 4096 + tailBits b * 64 + tailBits c), 3)
        else none
      | _ => none
    else if 0xf0 ≤ a && a ≤ 0xf4 then
      match rest with
      | b :: c :: d :: _ =>
        let low : UInt8 := if a = 0xf0 then 0x90 else 0x80
        let high : UInt8 := if a = 0xf4 then 0x8f else 0xbf
        if low ≤ b && b ≤ high && isTail c && isTail d then
          some (Char.ofNat
            ((a.toNat % 8) * 262144 + tailBits b * 4096 + tailBits c * 64 + tailBits d), 4)
        else none
      | _ => none
    else none

/-- What a byte string consists of. -/
inductive Symbol where
  | char (c : Char)
  /-- A byte from 80 to FF that is no part of a character. -/
  | stray (b : UInt8)
deriving DecidableEq, Repr, Inhabited

/-- The first `fuel` symbols of a byte string. -/
def symbolsUpTo : (fuel : Nat) → List UInt8 → List Symbol
  | 0, _ => []
  | _, [] => []
  | fuel + 1, bytes@(b :: rest) =>
    match leadingChar? bytes with
    | some (c, n) => .char c :: symbolsUpTo fuel (bytes.drop n)
    | none => .stray b :: symbolsUpTo fuel rest

/-- The symbols of a byte string. None takes less than a byte, so as many symbols as there are bytes
are enough. -/
def symbols (bytes : List UInt8) : List Symbol := symbolsUpTo bytes.length bytes

namespace Symbol

/-- The character, if it is one. -/
def char? : Symbol → Option Char
  | char c => some c
  | stray _ => none

/-- The character that is read for a symbol in the forgiving way. -/
def forgiving : Symbol → Char
  | char c => c
  | stray _ => replacement

end Symbol

/-- The forgiving reading of a byte string. -/
def decodeForgiving (bytes : List UInt8) : List Char := (symbols bytes).map Symbol.forgiving

/-! ### Values with stray bytes -/

/-- The character that keeps a stray byte. -/
def strayByte (b : UInt8) : Char := Char.ofNat (0x10dc00 + b.toNat)

/-- The byte that a character keeps. -/
def strayByte? (c : Char) : Option UInt8 :=
  if 0x10dc80 ≤ c.toNat ∧ c.toNat ≤ 0x10dcff then some (UInt8.ofNat c.toNat) else none

/-- The character that keeps a symbol. -/
def Symbol.kept : Symbol → Char
  | char c => c
  | stray b => strayByte b

/-- The reading that keeps stray bytes. -/
def decodeKeeping (bytes : List UInt8) : List Char := (symbols bytes).map Symbol.kept

/-- The symbol that a character keeps. -/
def Symbol.ofKept (c : Char) : Symbol :=
  match strayByte? c with
  | some b => stray b
  | none => char c

/-- The bytes of a character. -/
def charBytes (c : Char) : List UInt8 :=
  match strayByte? c with
  | some b => [b]
  | none => String.utf8EncodeChar c

/-- The bytes of a value. -/
def textBytes (s : List Char) : List UInt8 := s.flatMap charBytes

/-- A value with U+FFFD for its stray bytes. -/
def shown (s : String) : String := s.map fun c => if (strayByte? c).isSome then replacement else c

/-- The UTF-8 bytes of a text. -/
def utf8Bytes (s : String) : List UInt8 := s.toUTF8.toList

end ClassAudit.Text
