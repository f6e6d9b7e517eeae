import ClassAudit.Lint.Registry

/-!
# Missing implementations

A concrete class has to implement, or inherit an implementation of, every abstract method of its
direct supertypes in the package.

## Main definitions

* `MissingImplementation.implemented` - looks a method up along the superclass chain.
* `MissingImplementation.required` - the abstract methods of the direct supertypes.
* `MissingImplementation.linter` - reports those without an implementation.
-/

namespace ClassAudit.MissingImplementation

/-- The name of the linter. -/
def name : String := "MissingImplementation"

/-- Looks a method up in a class and its superclasses; the first class that declares it decides.
A class is not visited twice, so at most `fuel` classes are looked at when there are no more
different ones. -/
def resolve (ctx : PackageContext) (method desc : String) :
    Nat → List String → ClassModel → Bool
  | 0, _, _ => false
  | fuel + 1, visited, c =>
    if visited.contains c.name then false
    else match c.method? method desc with
      | some m => !m.access.isAbstract
      | none =>
        match ctx.lookup? c.superName with
        | some super => resolve ctx method desc fuel (c.name :: visited) super
        | none => false

/-- Does the class implement or inherit an implementation of the method? -/
def implemented (c : ClassModel) (ctx : PackageContext) (method desc : String) : Bool :=
  resolve ctx method desc (ctx.size + 1) [] c

/-- The abstract methods of the direct supertypes in the package, with the name of the supertype:
those of the interfaces first, then those of the superclass. -/
def required (c : ClassModel) (ctx : PackageContext) : List (String × MethodModel) :=
  let ofInterfaces := (c.interfaces.filterMap ctx.lookup?).flatMap fun i =>
    (i.methods.filter fun m =>
      m.access.isAbstract && !m.access.isStatic && !m.isInitializer).map (i.name, ·)
  let ofSuper := match ctx.lookup? c.superName with
    | some s => (s.methods.filter (·.access.isAbstract)).map (s.name, ·)
    | none => []
  ofInterfaces ++ ofSuper

/-- The first of each group of methods with the same signature. -/
def distinct : List String → List (String × MethodModel) → List (String × MethodModel)
  | _, [] => []
  | seen, (owner, m) :: rest =>
    if seen.contains m.signature then distinct seen rest
    else (owner, m) :: distinct (m.signature :: seen) rest

/-- The linter for a class in its package. -/
def linter (c : ClassModel) (ctx : PackageContext) : Linter where
  name := name
  category := .style
  findings :=
    let o : Origin := ⟨name, .style, c.name⟩
    if c.isConcrete then
      ((distinct [] (required c ctx)).filter fun (_, m) =>
        !implemented c ctx m.name m.desc).map fun (owner, m) =>
          o.finding .error m.signature 0
            ("missing implementation: " ++ m.signature ++ " declared by " ++ dottedName owner)
    else []

end ClassAudit.MissingImplementation
