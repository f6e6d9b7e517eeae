import ClassAudit.Lint.Registry

/-!
# The single responsibility principle

A class with many members, with many collaborators, or whose methods have no state in common,
does too much.

## Main definitions

* `SingleResponsibilityPrinciple.collaborators` - the other classes that a class calls.
* `SingleResponsibilityPrinciple.disjointPairs` - how many pairs of methods share no field.
* `SingleResponsibilityPrinciple.linter` - reports counts above their limits.
-/

namespace ClassAudit.SingleResponsibilityPrinciple

/-- The name of the linter. -/
def name : String := "SingleResponsibilityPrinciple"

/-- The most methods, fields and collaborators that a class may have. -/
def maxMethods : Nat := 20
@[inherit_doc maxMethods] def maxFields : Nat := 15
@[inherit_doc maxMethods] def maxCollaborators : Nat := 10

/-- The other classes that a class calls, each once. -/
def collaborators (c : ClassModel) : List String :=
  (c.methods.flatMap fun m =>
    m.code.elements.filterMap fun i =>
      match i.action with
      | .invoke _ target => if target.owner == c.name then none else some target.owner
      | _ => none).eraseDups

/-- The fields that a body uses, by owner and name, each once. -/
def fieldsUsed (b : Body) : List String :=
  (b.elements.filterMap fun i =>
    match i.action with
    | .field _ m => some (m.owner ++ "." ++ m.name)
    | _ => none).eraseDups

/-- Do two lists have an element in common? The shorter one is gone through. -/
def overlaps (a b : List String) : Bool :=
  if a.length > b.length then b.any a.contains else a.any b.contains

/-- The number of pairs of lists without a common element. -/
def disjointPairs : List (List String) → Nat
  | [] => 0
  | a :: rest => rest.countP (!overlaps a ·) + disjointPairs rest

/-- The number of pairs of methods that share no field, and the number of methods with code. A
class without fields, or whose methods use none, has no state to split. -/
def cohesion (c : ClassModel) : Nat × Nat :=
  if c.fields.isEmpty then (0, 0)
  else
    let usage := (c.methods.filter (!·.code.isEmpty)).map (fieldsUsed ·.code)
    if usage.any (!·.isEmpty) then (disjointPairs usage, usage.length) else (0, usage.length)

/-- The linter for a class. -/
def linter (c : ClassModel) : Linter where
  name := name
  category := .principle
  findings :=
    let o : Origin := ⟨name, .principle, c.name⟩
    let limit (n most : Nat) (what : String) : List Finding :=
      if n > most then
        [o.finding .warning "" 0 ("class " ++ what ++ " (max " ++ toString most ++ ")")]
      else []
    let called := (collaborators c).length
    let (disjoint, methods) := cohesion c
    if c.access.isInterface then []
    else
      limit c.methods.length maxMethods ("declares " ++ toString c.methods.length ++ " methods") ++
      limit c.fields.length maxFields ("declares " ++ toString c.fields.length ++ " fields") ++
      limit called maxCollaborators ("calls into " ++ toString called ++ " other classes") ++
      (if disjoint > methods then
        [o.finding .warning "" 0 ("low cohesion: " ++ toString disjoint ++
          " method pairs share no fields across " ++ toString methods ++ " methods")]
      else [])

end ClassAudit.SingleResponsibilityPrinciple
