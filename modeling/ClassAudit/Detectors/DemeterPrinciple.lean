import ClassAudit.Lint.Registry
import ClassAudit.Platform

/-!
# The law of Demeter

A method should talk to its own collaborators and not to what they return. Calls that directly
follow each other, without anything else being pushed in between, form a chain.

## Main definitions

* `DemeterPrinciple.isExempt` - calls that are chained by convention.
* `DemeterPrinciple.ChainState` - what is kept of the elements gone through.
* `DemeterPrinciple.chains` - the calls of a body that continue a chain, with its length.
* `DemeterPrinciple.linter` - reports them.
-/

namespace ClassAudit.DemeterPrinciple

/-- The name of the linter. -/
def name : String := "DemeterPrinciple"

/-- Fragments of owners and names of calls that are chained by convention. -/
def exemptFragments : List String :=
  ["Builder", "builder", "java/util/stream/", "stream", "filter", "map", "collect", "forEach",
   "java/lang/String"]

/-- Is the call chained by convention: on text, on builders and streams, or a setter that returns
its owner? -/
def isExempt (m : MemberRef) : Bool :=
  isStringOwner m.owner ||
  (exemptFragments.any fun p => Text.contains m.owner p || Text.contains m.name p) ||
  (Text.startsWith m.name "set" && Text.endsWith m.desc (")L" ++ m.owner ++ ";"))

/-- Does the element start a fresh receiver? -/
def producesValue : Action → Bool
  | .load .. => true
  | .field .getField _ => true
  | .field .getStatic _ => true
  | .new _ => true
  | .const _ => true
  | _ => false

/-- What is kept of the elements gone through. -/
structure ChainState where
  /-- The length of the last chain. -/
  depth : Nat := 0
  /-- Does the last element end a chain? -/
  prevInvoke : Bool := false
deriving DecidableEq, Repr

/-- The state behind an element that breaks a chain off. -/
def ChainState.broken (s : ChainState) (a : Action) : ChainState where
  depth := if a.kind == .storeLocal || producesValue a then 0 else s.depth
  prevInvoke := false

/-- The calls that continue a chain, with their positions and the length of the chain up to them. -/
def chains : ChainState → List (Nat × Action) → List (Nat × MemberRef × Nat)
  | _, [] => []
  | s, (n, a) :: rest =>
    match a with
    | .invoke _ m =>
      if isExempt m then chains s rest
      -- a new object starts a chain of its own
      else if m.name == constructorName then chains {} rest
      else if !s.prevInvoke then chains { depth := 1, prevInvoke := true } rest
      else (n, m, s.depth + 1) :: chains { s with depth := s.depth + 1 } rest
    | .stack _ => chains s rest
    | _ => if a.isMarker then chains s rest else chains (s.broken a) rest

/-- The findings in one method. -/
def ofMethod (o : Origin) (m : MethodModel) : List Finding :=
  (chains {} m.code.indexed).map fun (n, target, depth) =>
    o.finding .warning m.signature (m.code.lineAt n)
      ("call chain of depth " ++ toString depth ++ " reaches " ++ dottedName target.owner ++ "." ++
        target.name)

/-- The linter for a class. -/
def linter (c : ClassModel) : Linter where
  name := name
  category := .principle
  findings := (c.methods.filter (!·.isInitializer)).flatMap (ofMethod ⟨name, .principle, c.name⟩)

end ClassAudit.DemeterPrinciple
