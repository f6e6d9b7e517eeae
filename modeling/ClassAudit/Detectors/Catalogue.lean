import ClassAudit.Detectors.AdapterPattern
import ClassAudit.Detectors.CyclicDependency
import ClassAudit.Detectors.DeadCode
import ClassAudit.Detectors.DecoratorPattern
import ClassAudit.Detectors.DemeterPrinciple
import ClassAudit.Detectors.DependencyInversionPrinciple
import ClassAudit.Detectors.EqualsHashCode
import ClassAudit.Detectors.FeatureEnvy
import ClassAudit.Detectors.HollywoodPrinciple
import ClassAudit.Detectors.MissingImplementation
import ClassAudit.Detectors.ObserverPattern
import ClassAudit.Detectors.OpenClosedPrinciple
import ClassAudit.Detectors.SingleResponsibilityPrinciple
import ClassAudit.Detectors.StrategyPattern
import ClassAudit.Detectors.TemporalCoupling
import ClassAudit.Detectors.UnusedVariables

/-!
# The built-in linters

## Main definitions

* `Registry.builtin` - the registry of every built-in linter.
-/

namespace ClassAudit

/-- Registers a linter of single classes with its description. -/
def Registry.withClass (r : Registry) (name description : String) (make : ClassModel → Linter) :
    Registry :=
  (r.registerClass name make).describe name description

/-- A linter of classes in their package; an unknown package counts as empty. -/
def inPackage (make : ClassModel → PackageContext → Linter) (c : ClassModel)
    (ctx : Option PackageContext) : Linter :=
  make c (ctx.getD .empty)

/-- Registers a linter of classes in their package with its description. -/
def Registry.withPackage (r : Registry) (name description : String)
    (make : ClassModel → PackageContext → Linter) : Registry :=
  (r.registerPackage name (inPackage make)).describe name description

/-- Every built-in linter, for a choice of platform packages. -/
def Registry.builtin (ns : Namespaces) : Registry :=
  let r : Registry := {}
  let r := r.withClass EqualsHashCode.name "equals and hashCode overridden together"
    EqualsHashCode.linter
  let r := r.withClass DeadCode.name "instructions after return, throw or goto" DeadCode.linter
  let r := r.withClass UnusedVariables.name "unused private fields, private methods and locals"
    UnusedVariables.linter
  let r := r.withClass FeatureEnvy.name "methods mostly using another class" FeatureEnvy.linter
  let r := r.withClass DemeterPrinciple.name "chained calls through returned objects"
    DemeterPrinciple.linter
  let r := r.withClass HollywoodPrinciple.name
    "methods that build, pull and branch instead of being called" (HollywoodPrinciple.linter ns)
  let r := r.withClass TemporalCoupling.name "objects used before their setup call"
    (TemporalCoupling.linter ns)
  let r := r.withClass OpenClosedPrinciple.name
    "classes closed to extension or open to modification" OpenClosedPrinciple.linter
  let r := r.withClass SingleResponsibilityPrinciple.name
    "large, widely coupled or incohesive classes" SingleResponsibilityPrinciple.linter
  let r := r.withClass StrategyPattern.name "injected fields delegated to as strategies"
    (StrategyPattern.linter ns)
  let r := r.withClass AdapterPattern.name "classes adapting a wrapped object to an interface"
    AdapterPattern.linter
  let r := r.withClass DecoratorPattern.name "decorator classes and their wrapping mistakes"
    DecoratorPattern.linter
  let r := r.withClass ObserverPattern.name "observer subjects and implementations"
    (ObserverPattern.linter · .empty)
  let r := r.withPackage ObserverPattern.name "observer subjects and implementations"
    ObserverPattern.linter
  let r := (r.registerPackageWide CyclicDependency.name (inPackage CyclicDependency.linter)).describe
    CyclicDependency.name "dependency cycles between classes of a package"
  let r := r.withPackage DependencyInversionPrinciple.name
    "dependencies on concrete classes of the package" (DependencyInversionPrinciple.linter ns)
  r.withPackage MissingImplementation.name
    "abstract methods left unimplemented by concrete classes" MissingImplementation.linter

end ClassAudit
