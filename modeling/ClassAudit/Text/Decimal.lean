import ClassAudit.Binary
import ClassAudit.Text.Basic

/-!
# Decimal fractions

Numbers with a fraction or an exponent, written in decimal, and the 64-bit binary number nearest to
them. Rounding is exact: it goes to the nearest number with 53 bits, and from the middle between two
of them to the one whose last bit is zero.

## Main definitions

* `Decimal` - a number `digits * 10 ^ exponent` with its sign; `Decimal.read?` - from its text.
* `Rounded` - a binary number, or none because the decimal one is too large.
* `Decimal.round` - the nearest binary number.
* `Rounded.toInt?` - its whole part.
-/

namespace ClassAudit.Text

/-! ### Reading -/

/-- A decimal number. -/
structure Decimal where
  negative : Bool := false
  digits : Nat
  exponent : Int := 0
deriving DecidableEq, Repr

namespace Decimal

/-- Do underscores stand only between digits? -/
def underscoresFit : List Char → Bool
  | a :: '_' :: b :: s => a.isDigit && b.isDigit && underscoresFit (b :: s)
  | [_, '_'] => false
  | '_' :: _ => false
  | _ :: s => underscoresFit s
  | [] => true

/-- The number that digits spell after `acc`. -/
def valueOf (acc : Nat) (digits : List Char) : Nat :=
  digits.foldl (fun n c => 10 * n + (c.toNat - 48)) acc

/-- The sign of a text, and what follows it. -/
def splitSign : List Char → Bool × List Char
  | '+' :: s => (false, s)
  | '-' :: s => (true, s)
  | s => (false, s)

/-- The exponent that a text spells; nothing for the empty text. -/
def readExponent? : List Char → Option Int
  | [] => some 0
  | c :: s =>
    if c == 'e' || c == 'E' then
      let (negative, digits) := splitSign s
      if digits.isEmpty || !digits.all Char.isDigit then none
      else some (if negative then -(valueOf 0 digits : Int) else valueOf 0 digits)
    else none

/-- The number that a text spells: an optional sign, digits with at most one point among them, and an
optional exponent. Underscores may stand between digits. -/
def read? (text : List Char) : Option Decimal :=
  if !underscoresFit text then none
  else
    let (negative, s) := splitSign (text.filter (· != '_'))
    let whole := s.takeWhile Char.isDigit
    let s := s.dropWhile Char.isDigit
    let fraction := match s with
      | '.' :: s => s.takeWhile Char.isDigit
      | _ => []
    let s := match s with
      | '.' :: s => s.dropWhile Char.isDigit
      | s => s
    if whole.isEmpty && fraction.isEmpty then none
    else
      (readExponent? s).map fun e =>
        { negative, digits := valueOf (valueOf 0 whole) fraction, exponent := e - fraction.length }

/-- The number of decimal digits of a number; none for zero. -/
def size (n : Nat) : Nat := if n = 0 then 0 else (Nat.toDigits 10 n).length

end Decimal

/-! ### Rounding -/

/-- A binary number `mantissa * 2 ^ exponent`, or one too large for 64 bits. -/
inductive Rounded where
  | finite (negative : Bool) (mantissa : Nat) (exponent : Int)
  | infinite (negative : Bool)
deriving DecidableEq, Repr

/-- A quotient rounded to a whole number, from the middle to the even one. -/
def roundQuotient (num den : Nat) : Nat :=
  let q := num / den
  let twice := 2 * (num % den)
  if twice < den || (twice == den && q % 2 == 0) then q else q + 1

/-- A quotient as a number of 53 bits, or fewer at the lower end, and an exponent. -/
def roundToBits (num den : Nat) : Nat × Int :=
  let guess : Int := (num.log2 : Int) - den.log2 - 53
  let quotient (e : Int) : Nat × Nat :=
    if 0 ≤ e then (num, den <<< e.toNat) else (num <<< (-e).toNat, den)
  let fits (e : Int) : Bool := let (n, d) := quotient e; n / d < Binary.span 53
  let e := if fits guess then guess else guess + 1
  let e := max e (-1074)
  let (n, d) := quotient e
  (roundQuotient n d, e)

/-- The binary number nearest to a decimal one. Exponents far out of range are not computed. -/
def Decimal.round (d : Decimal) : Rounded :=
  let top := d.exponent + size d.digits
  if d.digits = 0 || top < -330 then .finite d.negative 0 0
  else if 310 < top then .infinite d.negative
  else
    let (m, e) :=
      if 0 ≤ d.exponent then roundToBits (d.digits * Nat.pow 10 d.exponent.toNat) 1
      else roundToBits d.digits (Nat.pow 10 (-d.exponent).toNat)
    if 1024 ≤ (m.log2 : Int) + e then .infinite d.negative else .finite d.negative m e

/-- The whole part of a binary number. -/
def Rounded.toInt? : Rounded → Option Int
  | infinite _ => none
  | finite negative m e =>
    let n : Nat := if 0 ≤ e then m <<< e.toNat else m >>> (-e).toNat
    some (if negative then -(n : Int) else n)

end ClassAudit.Text
