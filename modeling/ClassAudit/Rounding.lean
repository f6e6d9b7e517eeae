/-!
# Rounding to 53 significant bits

Shares are computed in binary floating point with 53 significant bits: every result is the
nearest such number, and of two equally near ones the one with an even last bit. The numbers are
kept exactly, as an integer over a power of two.

## Main definitions

* `roundDiv` - the nearest integer to a quotient, a tie going to the even one.
* `Binary53` - a non-negative number with 53 significant bits.
* `Binary53.ofQuotient` - the nearest such number to a quotient.
* `Binary53.round` - the nearest integer, a tie going to the even one.
-/

namespace ClassAudit

/-- The nearest integer to `a / b`; a tie goes to the even one. -/
def roundDiv (a b : Nat) : Nat :=
  let q := a / b
  let r := a % b
  if 2 * r > b ∨ (2 * r = b ∧ q % 2 = 1) then q + 1 else q

/-- The number `mantissa / 2 ^ scale`. -/
structure Binary53 where
  mantissa : Nat
  scale : Nat
deriving Repr

namespace Binary53

/-- The nearest number with 53 significant bits to `a / b`, for a quotient below 2 ^ 52. -/
def ofQuotient (a b : Nat) : Binary53 :=
  -- the quotient lies in (2 ^ (52 - k - 1), 2 ^ (52 - k + 1))
  let k := 52 + b.log2 - a.log2
  let scale := if a <<< k < b <<< 52 then k + 1 else k
  ⟨roundDiv (a <<< scale) b, scale⟩

/-- Is `x` less than `y`? -/
def less (x y : Binary53) : Bool := x.mantissa <<< y.scale < y.mantissa <<< x.scale

/-- The product with an integer, rounded. -/
def times (x : Binary53) (n : Nat) : Binary53 := ofQuotient (x.mantissa * n) (1 <<< x.scale)

/-- The nearest integer; a tie goes to the even one. -/
def round (x : Binary53) : Nat := roundDiv x.mantissa (1 <<< x.scale)

end Binary53

end ClassAudit
