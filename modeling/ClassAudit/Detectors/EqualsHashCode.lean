import ClassAudit.Lint.Registry

/-!
# Equality and hashing

A class that redefines one of `equals` and `hashCode` has to redefine the other.

## Main definitions

* `EqualsHashCode.linter` - reports a class that has only one of them.
-/

namespace ClassAudit.EqualsHashCode

/-- The name of the linter. -/
def name : String := "EqualsHashCode"

/-- The linter for a class. -/
def linter (c : ClassModel) : Linter where
  name := name
  category := .style
  findings :=
    let o : Origin := ⟨name, .style, c.name⟩
    match c.hasMethodNamed "equals", c.hasMethodNamed "hashCode" with
    | true, false => [o.finding .error "hashCode" 0 "equals is overridden but hashCode is not"]
    | false, true => [o.finding .error "equals" 0 "hashCode is overridden but equals is not"]
    | _, _ => []

end ClassAudit.EqualsHashCode
