import ClassAudit.Finding
import ClassAudit.Lint.Context

/-!
# The registry of linters

Linters are known by name. A name can stand for a linter of single classes, for a linter of a
class in its package, or for both; a linter that reports on its whole package needs to run only
once for it.

## Main definitions

* `Linter` - a linter made for one class, with what it finds.
* `Registry` - the linters by name; `registerClass`, `registerPackage`, `registerPackageWide`,
  `describe` - how it is filled.
* `Registry.create`, `Registry.createPackage` - a linter for a class.
* `JobFault` - why there is none.
-/

namespace ClassAudit

/-- A linter made for one class. -/
structure Linter where
  name : String
  category : Category
  findings : List Finding
deriving Repr, Inhabited

/-- Why a linter cannot be made. -/
inductive JobFault where
  | missingClass
  | unknownLinter (name : String)
  | noPackageAnalysis (name : String)
deriving DecidableEq, Repr

/-- The wording of a fault. -/
def JobFault.message : JobFault → String
  | missingClass => "nil class"
  | unknownLinter name => "unknown linter " ++ Text.quoteKept name
  | noPackageAnalysis name => "linter " ++ Text.quoteKept name ++ " does not support package analysis"

/-- Linters by name. Of two registrations of one kind under one name the later counts. -/
structure Registry where
  /-- Linters of single classes, newest first. -/
  perClass : List (String × (ClassModel → Linter)) := []
  /-- Linters of classes in their package, newest first; the package may be unknown. -/
  perPackage : List (String × (ClassModel → Option PackageContext → Linter)) := []
  /-- Linters that report on a whole package. -/
  wide : List String := []
  descriptions : List (String × String) := []

namespace Registry

/-- Registers a linter of single classes. -/
def registerClass (r : Registry) (name : String) (make : ClassModel → Linter) : Registry :=
  { r with perClass := (name, make) :: r.perClass }

/-- Registers a linter of classes in their package. -/
def registerPackage (r : Registry) (name : String)
    (make : ClassModel → Option PackageContext → Linter) : Registry :=
  { r with perPackage := (name, make) :: r.perPackage }

/-- Registers a linter that reports on a whole package. -/
def registerPackageWide (r : Registry) (name : String)
    (make : ClassModel → Option PackageContext → Linter) : Registry :=
  { r.registerPackage name make with wide := name :: r.wide }

/-- Attaches a description to a name. -/
def describe (r : Registry) (name text : String) : Registry :=
  { r with descriptions := (name, text) :: r.descriptions }

/-- The description of a name, empty when it has none. -/
def description (r : Registry) (name : String) : String :=
  (r.descriptions.lookup name).getD ""

/-- Does the linter report on a whole package? -/
def isPackageWide (r : Registry) (name : String) : Bool := r.wide.contains name

/-- Is there a linter of single classes under this name? -/
def isClassLinter (r : Registry) (name : String) : Bool := (r.perClass.lookup name).isSome

/-- Is there a linter of classes in their package under this name? -/
def isPackageLinter (r : Registry) (name : String) : Bool := (r.perPackage.lookup name).isSome

/-- Is there any linter under this name? -/
def has (r : Registry) (name : String) : Bool := r.isClassLinter name || r.isPackageLinter name

/-- The registered names in ascending order. -/
def names (r : Registry) : List String :=
  Text.sortedDistinct (r.perClass.map (·.1) ++ r.perPackage.map (·.1))

/-- The linter of single classes under this name, made for a class. -/
def create (r : Registry) (name : String) (c : ClassModel) : Except JobFault Linter :=
  match r.perClass.lookup name with
  | some make => .ok (make c)
  | none => .error (.unknownLinter name)

/-- The linter of classes in their package under this name, made for a class. -/
def createPackage (r : Registry) (name : String) (c : ClassModel)
    (ctx : Option PackageContext) : Except JobFault Linter :=
  match r.perPackage.lookup name with
  | some make => .ok (make c ctx)
  | none => .error (.noPackageAnalysis name)

end Registry

end ClassAudit
