import ClassAudit.Batch
import ClassAudit.Config.Basic
import ClassAudit.Lint.Run

/-!
# Plans

A plan turns the rules of a configuration into jobs on the classes of a batch. Each linter runs at
most once on a class, and a linter that reports on whole packages at most once on a package.

## Main definitions

* `MissingTarget` - a target that names nothing in the batch.
* `LinterRule.selected`, `LinterRule.missing` - what the targets of a rule name.
* `Config.selections` - every linter with every class that it is to run on, in planning order.
* `Config.plan` - the jobs, and the targets that name nothing.
-/

namespace ClassAudit

/-- A target of a rule that names nothing in the batch. -/
structure MissingTarget where
  /-- The name of the rule. -/
  linter : String
  /-- The target as it was written. -/
  name : String
  /-- Is the target a package? -/
  isPackage : Bool := false
deriving DecidableEq, Repr

/-- The jobs of a configuration on a batch. -/
structure Plan where
  jobs : List Job := []
  missing : List MissingTarget := []
deriving Repr, Inhabited

namespace LinterRule

/-- The classes that a rule names: every class, or its classes and then the members of its
packages. -/
def selected (r : LinterRule) (b : Batch) : List ClassModel :=
  if r.all then b.classes
  else r.classes.filterMap b.lookup? ++ r.packages.flatMap fun p => b.members (internalName p)

/-- The targets of a rule that name nothing; a rule for every class has none. -/
def missing (r : LinterRule) (b : Batch) : List MissingTarget :=
  if r.all then []
  else
    (r.classes.filter fun name => (b.lookup? name).isNone).map
        (fun name => { linter := r.name, name }) ++
      (r.packages.filter fun name => (b.members (internalName name)).isEmpty).map
        (fun name => { linter := r.name, name, isPackage := true })

end LinterRule

/-- The elements of a list whose key has not occurred before, in their order. -/
def firstByKey {α κ : Type} [BEq κ] (key : α → κ) (seen : List κ) : List α → List α
  | [] => []
  | a :: as =>
    if seen.contains (key a) then firstByKey key seen as
    else a :: firstByKey key (key a :: seen) as

namespace Config

/-- Every linter with every class that it is to run on, in planning order: by rule, then by
linter, then by class. A pair may occur several times. -/
def selections (c : Config) (reg : Registry) (b : Batch) : List (String × ClassModel) :=
  c.linters.flatMap fun r =>
    (r.linterNames reg).flatMap fun linter => (r.selected b).map fun target => (linter, target)

/-- What a linter may look at only once: a class, or a package for linters of whole packages. -/
def runKey (reg : Registry) (selection : String × ClassModel) : String × String :=
  (selection.1,
    if reg.isPackageWide selection.1 then selection.2.package else selection.2.name)

/-- The job of a linter on a class of a batch. Linters of classes in their package are given all
classes of the package. -/
def jobOf (reg : Registry) (b : Batch) (selection : String × ClassModel) : Job :=
  reg.newJob selection.1 (some selection.2)
    (if reg.isPackageLinter selection.1 then some (b.context selection.2.package) else none)

/-- The jobs of a configuration on a batch. -/
def plan (c : Config) (reg : Registry) (b : Batch) : Plan where
  jobs := (firstByKey (runKey reg) [] (c.selections reg b)).map (jobOf reg b)
  missing := c.linters.flatMap (·.missing b)

end Config

end ClassAudit
