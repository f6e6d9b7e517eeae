import ClassAudit.Config.Plan
import ClassAudit.Config.Validity
import ClassAudit.Detectors.Catalogue

/-!
# Analyses

An analysis runs the built-in linters over a batch as a configuration says and marks the findings
that the configuration suppresses.

## Main definitions

* `Analysis` - the outcome; `AnalysisFault` - why there is none.
* `analyze` - the analysis of a batch.
-/

namespace ClassAudit

/-- The outcome of an analysis. -/
structure Analysis where
  report : Report
  /-- The number of jobs. -/
  jobs : Nat
  missing : List MissingTarget
  failures : List Failure
deriving Repr

/-- Why a batch is not analysed. -/
inductive AnalysisFault where
  | invalidConfig (problems : List ConfigProblem)
  | noClasses
  | cancelled (reason : Cancelled)
deriving DecidableEq, Repr

/-- The wording of a fault. -/
def AnalysisFault.message : AnalysisFault → String
  | invalidConfig problems => "invalid config: " ++ ConfigProblem.messages problems
  | noClasses => "no classes provided"
  | cancelled reason => reason.message

/-- A report in which the findings that some rule covers are marked. -/
def Report.suppress (r : Report) (rules : List Suppression) : Report :=
  { r with findings := Suppression.apply rules r.findings }

/-- Analyses a batch with a configuration that is known to be valid. -/
def analyzeValid (reg : Registry) (c : Config) (b : Batch) (cancelled : Bool) :
    Except AnalysisFault Analysis := do
  if b.classes.isEmpty then throw .noClasses
  let plan := c.plan reg b
  let report ← (runJobs reg plan.jobs cancelled).mapError .cancelled
  return {
    report := report.suppress c.suppress
    jobs := plan.jobs.length
    missing := plan.missing
    failures := b.failures }

/-- Analyses a batch. The configuration is looked at before the batch. -/
def analyze (c : Config) (b : Batch) (cancelled : Bool) : Except AnalysisFault Analysis := do
  let reg := Registry.builtin c.namespaces
  let problems := c.problems reg
  if !problems.isEmpty then throw (.invalidConfig problems)
  analyzeValid reg c b cancelled

end ClassAudit
