import ClassAudit.Lint.Registry
import ClassAudit.Platform
import ClassAudit.Rounding

/-!
# Feature envy

A method that mostly uses the members of one other class belongs there.

## Main definitions

* `FeatureEnvy.accesses` - the owners of the members that a method uses.
* `FeatureEnvy.linter` - reports an owner with at least three fifths of them.
-/

namespace ClassAudit.FeatureEnvy

/-- The name of the linter. -/
def name : String := "FeatureEnvy"

/-- The foreign class that an action uses, if the use counts: fields of classes outside `java/`
and methods of classes outside the language packages. -/
def accessedOwner? (self : String) : Action → Option String
  | .field _ m => if m.owner == self || Text.startsWith m.owner "java/" then none else some m.owner
  | .invoke _ m => if m.owner == self || isLanguageOwner m.owner then none else some m.owner
  | _ => none

/-- The foreign classes that a method uses, once for each use. -/
def accesses (self : String) (m : MethodModel) : List String :=
  m.code.semantic.filterMap fun (_, a) => accessedOwner? self a

/-- The share from which a class is reported. -/
def threshold : Binary53 := Binary53.ofQuotient 3 5

/-- The findings in one method. -/
def ofMethod (o : Origin) (self : String) (m : MethodModel) : List Finding :=
  let all := accesses self m
  let total := all.length
  (Text.sortedDistinct all).filterMap fun owner =>
    let n := all.count owner
    let share := Binary53.ofQuotient n total
    if share.less threshold then none
    else some <| o.finding .warning m.signature m.code.firstLine
      ("feature envy: " ++ toString (share.times 100).round ++ "% of accesses are to " ++
        dottedName owner ++ " (" ++ toString n ++ "/" ++ toString total ++ " accesses)")

/-- The linter for a class. -/
def linter (c : ClassModel) : Linter where
  name := name
  category := .style
  findings := (c.methods.filter (!·.isInitializer)).flatMap
    (ofMethod ⟨name, .style, c.name⟩ c.name)

end ClassAudit.FeatureEnvy
