/-!
# Base64

Byte strings written with sixty-four digits of six bits each, in groups of four digits that are
filled up with `=` at the end. Line ends count for nothing.

## Main definitions

* `Base64.digit?` - the value of a digit.
* `Base64.decode?` - the byte string that a text spells.
-/

namespace ClassAudit.Text.Base64

/-- The value of a digit: letters in upper case, letters in lower case, figures, plus and
slash. -/
def digit? (c : Char) : Option Nat :=
  if 'A' ≤ c ∧ c ≤ 'Z' then some (c.toNat - 65)
  else if 'a' ≤ c ∧ c ≤ 'z' then some (c.toNat - 71)
  else if '0' ≤ c ∧ c ≤ '9' then some (c.toNat + 4)
  else if c = '+' then some 62
  else if c = '/' then some 63
  else none

/-- The byte string of whole groups. In the last group one or two digits can be missing; the bits
that are then left over count for nothing. -/
def decodeGroups? : List Char → Option (List UInt8)
  | [] => some []
  | [a, b, '=', '='] => do
    let n := (← digit? a) * 64 + (← digit? b)
    return [UInt8.ofNat (n / 16)]
  | [a, b, c, '='] => do
    let n := ((← digit? a) * 64 + (← digit? b)) * 64 + (← digit? c)
    return [UInt8.ofNat (n / 1024), UInt8.ofNat (n / 4)]
  | a :: b :: c :: d :: rest => do
    let n := (((← digit? a) * 64 + (← digit? b)) * 64 + (← digit? c)) * 64 + (← digit? d)
    return UInt8.ofNat (n / 65536) :: UInt8.ofNat (n / 256) :: UInt8.ofNat n ::
      (← decodeGroups? rest)
  | _ => none

/-- The byte string that a text spells. -/
def decode? (s : List Char) : Option (List UInt8) :=
  decodeGroups? (s.filter fun c => c != '\n' && c != '\r')

end ClassAudit.Text.Base64
