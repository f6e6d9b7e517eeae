import ClassAudit.Detectors.Collaboration
import ClassAudit.Lint.Registry

/-!
# The adapter pattern

A class that implements a type by calling an object of an unrelated type, which its constructor
was given, adapts that object.

## Main definitions

* `AdapterPattern.adaptee?` - the field that holds the adapted object.
* `AdapterPattern.delegating` - the methods that call it.
* `AdapterPattern.linter` - reports adapters.
-/

namespace ClassAudit.AdapterPattern

/-- The name of the linter. -/
def name : String := "AdapterPattern"

/-- How many instructions after reading the field a call on it is looked for. -/
def delegationWindow : Nat := 16

/-- The types that the class can be used as: its interfaces, then its superclass. -/
def targets (c : ClassModel) : List String :=
  c.interfaces ++ if c.hasSuper then [c.superName] else []

/-- The first instance field of a class type that is not one of the targets. -/
def adaptee? (c : ClassModel) : Option FieldModel :=
  c.fields.find? fun f =>
    !f.access.isStatic && match objectType? f.desc with
      | some t => !c.isSupertype t
      | none => false

/-- Does one constructor both take a parameter of the adapted type and set the field? -/
def isInjected (c : ClassModel) (f : FieldModel) : Bool :=
  c.methods.any fun m =>
    m.isConstructor && c.acceptsParam m (typeName f.desc) &&
      m.code.elements.any (writesField c.name f ·.action)

/-- A call on an object of the class `owner`. -/
def callsInstance (owner : String) : Action → Bool
  | .invoke .static _ => false
  | .invoke _ m => m.owner == owner
  | _ => false

/-- Does a body read the field and then call the adapted object? -/
def delegates (owner : String) (f : FieldModel) (b : Body) : Bool :=
  b.indexed.any fun (n, a) =>
    readsField owner f a &&
      (b.lookOn (n + 1) (callsInstance (typeName f.desc)) (fun _ => false) delegationWindow).isSome

/-- The names of the instance methods that call the adapted object. -/
def delegating (c : ClassModel) (f : FieldModel) : List String :=
  (c.methods.filter fun m =>
    !m.isInitializer && !m.access.isStatic && delegates c.name f m.code).map (·.name)

/-- The linter for a class. -/
def linter (c : ClassModel) : Linter where
  name := name
  category := .pattern
  findings :=
    let o : Origin := ⟨name, .pattern, c.name⟩
    match targets c, adaptee? c with
    | target :: _, some f =>
      let methods := delegating c f
      if isInjected c f && !methods.isEmpty then
        [o.finding .info f.name 0
          ("adapter " ++ dottedName c.name ++ " adapts " ++ dottedName (typeName f.desc) ++ " to " ++
            dottedName target ++ "; delegating methods: " ++ Text.joinWith ", " methods)]
      else []
    | _, _ => []

end ClassAudit.AdapterPattern
