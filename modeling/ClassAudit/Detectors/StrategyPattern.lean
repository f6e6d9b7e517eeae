import ClassAudit.Detectors.Collaboration
import ClassAudit.Lint.Registry
import ClassAudit.Platform

/-!
# The strategy pattern

A field that is set from a parameter and whose methods are called holds a strategy.

## Main definitions

* `StrategyPattern.isInjected` - a parameter is stored into the field.
* `StrategyPattern.delegations` - the calls whose receiver is read from the field.
* `StrategyPattern.linter` - reports fields that are injected and delegated to.
-/

namespace ClassAudit.StrategyPattern

/-- The name of the linter. -/
def name : String := "StrategyPattern"

/-- How many instructions before a store the stored parameter is looked for. -/
def injectionWindow : Nat := 12

/-- How many instructions before a call its receiver is looked for. -/
def delegationWindow : Nat := 16

/-- The most delegations that a finding quotes. -/
def maxExamples : Nat := 3

/-- Is the field an instance field of a type outside the platform? -/
def isCandidate (ns : Namespaces) (f : FieldModel) : Bool :=
  !f.access.isStatic && isReferenceType f.desc && !ns.holdsDescriptor f.desc

/-- Does the action load one of the local variables? -/
def loadsOneOf (slots : List Nat) : Action → Bool
  | .load _ s => slots.any fun slot => (slot : Int) == s
  | _ => false

/-- Does a method store one of its parameters into the field, without a call in between? -/
def injects (owner : String) (f : FieldModel) (m : MethodModel) : Bool :=
  let params := (paramSlots? m.desc m.access.isStatic).getD []
  m.name != staticInitializerName && m.code.indexed.any fun (n, a) =>
    writesField owner f a &&
      (m.code.lookBack n (loadsOneOf params) Action.isInvoke injectionWindow).isSome

/-- Does some method store one of its parameters into the field? -/
def isInjected (c : ClassModel) (f : FieldModel) : Bool := c.methods.any (injects c.name f)

/-- A call on a strategy, with its source line. -/
structure Delegation where
  target : MemberRef
  line : Int

/-- A delegation in words. -/
def Delegation.text (d : Delegation) : String :=
  dottedName d.target.owner ++ "." ++ d.target.name ++ d.target.desc ++
    if d.line > 0 then "@" ++ toString d.line else ""

/-- The calls, outside initializers, whose receiver is read from the field, without a call in
between. -/
def delegations (c : ClassModel) (f : FieldModel) : List Delegation :=
  (c.methods.filter (!·.isInitializer)).flatMap fun m =>
    m.code.indexed.filterMap fun (n, a) =>
      match a with
      | .invoke _ target =>
        if (m.code.lookBack n (readsField c.name f) Action.isInvoke delegationWindow).isSome
        then some { target, line := m.code.lineAt n }
        else none
      | _ => none

/-- The linter for a class. -/
def linter (ns : Namespaces) (c : ClassModel) : Linter where
  name := name
  category := .pattern
  findings :=
    let o : Origin := ⟨name, .pattern, c.name⟩
    (c.fields.filter fun f => isCandidate ns f && isInjected c f).filterMap fun f =>
      match delegations c f with
      | [] => none
      | first :: more =>
        let all := first :: more
        let quoted := Text.joinWith ", " ((all.take maxExamples).map Delegation.text)
        some <| o.finding .info f.name first.line
          ("strategy field " ++ f.name ++ " of type " ++ dottedName (typeName f.desc) ++
            " is injected and delegated through " ++ toString all.length ++ " call(s): " ++
            quoted ++ if all.length > maxExamples then " ..." else "")

end ClassAudit.StrategyPattern
