import ClassAudit.Lint.Registry
import ClassAudit.Platform

/-!
# The dependency inversion principle

A class should depend on abstractions. Within a package, concrete classes and abstractions can be
told apart.

## Main definitions

* `DependencyInversionPrinciple.isConcrete` - a concrete class of the package, other than the
  class under analysis.
* `DependencyInversionPrinciple.linter` - reports fields and parameters of such types, and direct
  constructions of such objects.
-/

namespace ClassAudit.DependencyInversionPrinciple

/-- The name of the linter. -/
def name : String := "DependencyInversionPrinciple"

/-- Does the name stand for a concrete class of the package, other than `self` and the platform's
classes? -/
def isConcrete (ns : Namespaces) (ctx : PackageContext) (self name : String) : Bool :=
  name != self && !ns.holds name &&
    match ctx.lookup? name with
    | some c => c.isConcrete
    | none => false

/-- The concrete classes among the types of parameters. -/
def concreteParams (concrete : String → Bool) (m : MethodModel) : List String :=
  match MethodDescriptor.parse m.desc with
  | .ok d => (d.params.filterMap objectType?).filter concrete
  | .error _ => []

/-- The constructor calls of a method that create concrete objects, with their positions. In a
constructor, the call of the superclass's constructor creates nothing. -/
def constructions (concrete : String → Bool) (superName : String) (m : MethodModel) :
    List (Nat × String) :=
  m.code.indexed.filterMap fun (n, a) =>
    match a with
    | .invoke .special target =>
      if target.name == constructorName && !(m.isConstructor && target.owner == superName) &&
          concrete target.owner then
        some (n, target.owner)
      else none
    | _ => none

/-- The linter for a class in its package. -/
def linter (ns : Namespaces) (c : ClassModel) (ctx : PackageContext) : Linter where
  name := name
  category := .principle
  findings :=
    let o : Origin := ⟨name, .principle, c.name⟩
    let concrete := isConcrete ns ctx c.name
    if c.isConcrete then
      let ofFields := (c.fields.filter (!·.access.isStatic)).filterMap fun f =>
        match objectType? f.desc with
        | some t =>
          if concrete t then
            some <| o.finding .warning f.name 0
              ("field " ++ f.name ++ " depends on concrete class " ++ dottedName t)
          else none
        | none => none
      let ofMethods := c.methods.flatMap fun m =>
        let params := if m.isInitializer then [] else concreteParams concrete m
        (params.map fun t =>
          o.finding .warning m.signature m.code.firstLine
            ("parameter of " ++ m.name ++ " depends on concrete class " ++ dottedName t)) ++
        (constructions concrete c.superName m).map fun (n, t) =>
          o.finding .warning m.signature (m.code.lineAt n)
            ("instantiates concrete class " ++ dottedName t ++ " directly")
      ofFields ++ ofMethods
    else []

end ClassAudit.DependencyInversionPrinciple
