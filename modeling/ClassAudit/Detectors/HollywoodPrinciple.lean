import ClassAudit.Lint.Registry
import ClassAudit.Platform

/-!
# The Hollywood principle

A method that creates its collaborators, pulls its data out of them and branches on it should
rather be called by them.

## Main definitions

* `HollywoodPrinciple.Score` - how much of each a method does.
* `HollywoodPrinciple.linter` - reports methods with at least two high counts.
-/

namespace ClassAudit.HollywoodPrinciple

/-- The name of the linter. -/
def name : String := "HollywoodPrinciple"

/-- How many objects a method creates, how often it pulls data, and how often it branches. -/
structure Score where
  created : Nat
  pulled : Nat
  branched : Nat
deriving DecidableEq, Repr

/-- The number of high counts. -/
def Score.high (s : Score) : Nat :=
  (if s.created ≥ 5 then 1 else 0) + (if s.pulled ≥ 8 then 1 else 0) +
    (if s.branched ≥ 6 then 1 else 0)

/-- A name that reads like a getter. -/
def isGetterName (name : String) : Bool :=
  Text.startsWith name "get" || Text.startsWith name "is" || Text.startsWith name "has"

/-- The creation of an object outside the platform. -/
def creates (ns : Namespaces) : Action → Bool
  | .new owner => !ns.holds owner
  | _ => false

/-- The call of a getter outside the platform. -/
def pulls (ns : Namespaces) : Action → Bool
  | .invoke _ m => !ns.holds m.owner && isGetterName m.name
  | _ => false

/-- A conditional branch or a switch. -/
def branches : Action → Bool
  | .branch _ _ => true
  | .tableSwitch _ => true
  | .lookupSwitch _ => true
  | _ => false

/-- The score of a body. -/
def score (ns : Namespaces) (b : Body) : Score where
  created := b.elements.countP (creates ns ·.action)
  pulled := b.elements.countP (pulls ns ·.action)
  branched := b.elements.countP (branches ·.action)

/-- The linter for a class. -/
def linter (ns : Namespaces) (c : ClassModel) : Linter where
  name := name
  category := .principle
  findings :=
    let o : Origin := ⟨name, .principle, c.name⟩
    (c.methods.filter (!·.isInitializer)).filterMap fun m =>
      let s := score ns m.code
      if s.high < 2 then none
      else some <| o.finding .warning m.signature m.code.firstLine
        ("likely Hollywood principle violation: new=" ++ toString s.created ++
          ", data pulls=" ++ toString s.pulled ++ ", conditions=" ++ toString s.branched)

end ClassAudit.HollywoodPrinciple
