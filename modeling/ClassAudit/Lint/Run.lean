import ClassAudit.Lint.Registry

/-!
# Running linters

A job is one linter on one class. The outcomes of all jobs are merged into one report, in which
a finding that several jobs make appears once.

## Main definitions

* `Job` - a linter on a class, with its package for package analysis.
* `Report` - the merged outcome; `JobError`, `JobRef` - jobs that failed or found nothing.
* `Job.run` - the outcome of one job; `Report.ofJobs` - the merged outcome.
-/

namespace ClassAudit

/-- One linter on one class. -/
structure Job where
  linter : String
  /-- None when there is no class to look at. -/
  target : Option ClassModel
  /-- The package of the class, for package analysis. -/
  context : Option PackageContext := none
deriving Repr, Inhabited

/-- Does the job look at a whole package? -/
def Job.isPackage (j : Job) : Bool := j.context.isSome

/-- The name of the class that a job looks at. -/
def Job.className (j : Job) : String := (j.target.map (·.name)).getD ""

/-- The job of a linter on a class. Package analysis takes precedence where the linter knows it
and the package is given. -/
def Registry.newJob (r : Registry) (name : String) (target : Option ClassModel)
    (context : Option PackageContext) : Job :=
  if context.isSome && r.isPackageLinter name then { linter := name, target, context }
  else { linter := name, target }

/-- A job that could not run. -/
structure JobError where
  linter : String
  className : String
  fault : JobFault
deriving DecidableEq, Repr

/-- The wording of a failed job, given its cause in words. -/
def failedJobText (linter className cause : String) : String :=
  linter ++ " on " ++ dottedName className ++ ": " ++ cause

/-- The wording of a failed job. -/
def JobError.message (e : JobError) : String :=
  failedJobText e.linter e.className e.fault.message

/-- A job that found nothing. -/
structure JobRef where
  linter : String
  className : String
deriving DecidableEq, Repr

/-- The merged outcome of a run. -/
structure Report where
  /-- Without repetitions, in the order of reports. -/
  findings : List Finding := []
  /-- In the order of the jobs. -/
  errors : List JobError := []
  /-- In the order of the jobs. -/
  clean : List JobRef := []
deriving Repr, Inhabited

/-- What a job finds. -/
def Job.run (r : Registry) (j : Job) : Except JobFault (List Finding) :=
  match j.target with
  | none => .error .missingClass
  | some c =>
    match j.context with
    | some ctx => (r.createPackage j.linter c (some ctx)).map (·.findings)
    | none => (r.create j.linter c).map (·.findings)

/-- The failure of a job, if it fails. -/
def Job.error? (r : Registry) (j : Job) : Option JobError :=
  match j.run r with
  | .error fault => some { linter := j.linter, className := j.className, fault }
  | .ok _ => none

/-- The job, if it succeeds without a finding. -/
def Job.clean? (r : Registry) (j : Job) : Option JobRef :=
  match j.run r with
  | .ok [] => some { linter := j.linter, className := j.className }
  | _ => none

/-- The findings of a job; a job that fails has none. -/
def Job.findings (r : Registry) (j : Job) : List Finding :=
  match j.run r with
  | .ok fs => fs
  | .error _ => []

/-- The merged outcome of a list of jobs. -/
def Report.ofJobs (r : Registry) (jobs : List Job) : Report where
  findings := Finding.sort (jobs.flatMap (·.findings r)).eraseDups
  errors := jobs.filterMap (·.error? r)
  clean := jobs.filterMap (·.clean? r)

/-- The run was cancelled before it ended. -/
structure Cancelled where
deriving DecidableEq, Repr

/-- The wording of a cancelled run. -/
def Cancelled.message (_ : Cancelled) : String := "running linters: context canceled"

/-- Runs a list of jobs, unless the run is cancelled beforehand and there is anything to do. -/
def runJobs (r : Registry) (jobs : List Job) (cancelled : Bool) : Except Cancelled Report :=
  if cancelled && !jobs.isEmpty then .error {} else .ok (Report.ofJobs r jobs)

end ClassAudit
