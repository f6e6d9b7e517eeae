import ClassAudit.Detectors.DependencyGraph
import ClassAudit.Lint.Registry

/-!
# Cyclic dependencies

Reports the circles in the dependencies of a package, whichever of its classes is asked about.
Each circle is reported at its first class.

## Main definitions

* `CyclicDependency.linter` - the linter.
-/

namespace ClassAudit.CyclicDependency

/-- The name of the linter. -/
def name : String := "CyclicDependency"

/-- The linter for a package. -/
def linter (_ : ClassModel) (ctx : PackageContext) : Linter where
  name := name
  category := .principle
  findings := (DependencyGraph.ofContext ctx).components.map fun cycle =>
    let o : Origin := ⟨name, .principle, cycle.headD ""⟩
    o.finding .warning "" 0 ("cyclic dependency: " ++ DependencyGraph.cycleText cycle)

end ClassAudit.CyclicDependency
