import ClassAudit.Lint.Registry

/-!
# The open/closed principle

A class should be open for extension and closed for modification. Four structural signs say that
it is not.

## Main definitions

* `OpenClosedPrinciple.linter` - reports public mutable fields, large public interfaces without
  an abstraction, overridable methods without extension points, and abstract classes that fix
  most of their behavior.
-/

namespace ClassAudit.OpenClosedPrinciple

/-- The name of the linter. -/
def name : String := "OpenClosedPrinciple"

/-- The number of public methods from which a class should define an abstraction. -/
def publicThreshold : Nat := 5

/-- Can a subclass override the method? -/
def isOverridable (m : MethodModel) : Bool :=
  (m.access.isPublic || m.access.isProtected) && !m.access.isFinal && !m.access.isStatic &&
    !m.access.isPrivate

/-- The linter for a class. -/
def linter (c : ClassModel) : Linter where
  name := name
  category := .principle
  findings :=
    let o : Origin := ⟨name, .principle, c.name⟩
    let mutable := (c.fields.filter fun f =>
      f.access.isPublic && !f.access.isFinal && !f.access.isStatic).map (·.name)
    let methods := c.methods.filter (!·.isInitializer)
    let open_ := methods.countP (·.access.isPublic)
    let guarded := methods.countP (·.access.isProtected)
    let overridable := methods.countP isOverridable
    let instanceMethods := methods.filter (!·.access.isStatic)
    let abstract_ := instanceMethods.countP (·.access.isAbstract)
    let concrete := instanceMethods.countP (!·.access.isAbstract)
    if c.access.isInterface || c.access.isEnum then []
    else
      (if mutable.isEmpty then [] else
        [o.finding .warning "" 0 ("public mutable field(s) " ++ Text.joinWith ", " mutable ++
          " allow modification without extension")]) ++
      (if !c.access.isFinal && !c.access.isAbstract && open_ ≥ publicThreshold &&
          c.interfaces.isEmpty then
        [o.finding .warning "" 0 ("class has " ++ toString open_ ++
          " public methods but implements no interface; it should define an abstraction")]
      else []) ++
      (if !c.access.isFinal && overridable > 0 && c.interfaces.isEmpty && guarded == 0 then
        [o.finding .info "" 0 ("class exposes " ++ toString overridable ++
          " overridable method(s) with no extension points; it should be final")]
      else []) ++
      (if c.access.isAbstract && abstract_ > 0 && concrete > 2 * abstract_ then
        [o.finding .warning "" 0 ("abstract class has " ++ toString concrete ++
          " concrete and " ++ toString abstract_ ++
          " abstract methods; behavior is fixed rather than extended")]
      else [])

end ClassAudit.OpenClosedPrinciple
