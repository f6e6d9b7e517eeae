import ClassAudit.Analysis
import ClassAudit.Config.Parse
import ClassAudit.Golden.Case

/-!
# Running golden cases

## Main definitions

* `RunVerdict` - whether one configuration of a case gave what was expected; `Verdict` - the whole
  case.
* `CaseFault` - why a case cannot be run.
* `GoldenCase.verdict` - runs a case.
-/

namespace ClassAudit

/-- Whether a configuration of a case gave what was expected. -/
structure RunVerdict where
  name : String
  passed : Bool
  message : String
  details : List String := []
deriving DecidableEq, Repr

/-- Whether a case gave what was expected. -/
structure Verdict where
  runs : List RunVerdict
  passed : Bool
  message : String
deriving DecidableEq, Repr

/-- Why a case cannot be run. -/
inductive CaseFault where
  | noConfigurations
  | badOutline (fault : OutlineFault)
  | unwritable (error : WriteError)
  /-- A class whose name is no name of a file. -/
  | unstorable (fault : PathFault)
  | unloadable (fault : LoadFault)
  | malformedClasses (failures : List Failure)
  /-- An analysis failed in a way that was not expected. -/
  | unexpectedError (message : String)
  /-- A configuration broke off the program. -/
  | breakdown
deriving Repr

/-! ### Configurations -/

/-- The format that a case names; the empty name stands for lines. -/
def ConfigFormat.ofName? (name : String) : Option ConfigFormat :=
  match Text.lower name with
  | "" => some .lines
  | "lines" => some .lines
  | "yaml" => some .yaml
  | "yml" => some .yaml
  | "toml" => some .toml
  | _ => none

/-- Why a run of a case gives no analysis. -/
inductive RunProblem where
  | unknownFormat (name : String)
  | config (fault : ConfigFault)
  | analysis (fault : AnalysisFault)
deriving DecidableEq, Repr

namespace RunProblem

/-- The wording of a problem. -/
def message : RunProblem → String
  | unknownFormat name => "unknown config format " ++ Text.quoteKept name
  | config fault => fault.message
  | analysis fault => fault.message

/-- Does the problem break off the program? -/
def isBreakdown : RunProblem → Bool
  | config fault => fault.isBreakdown
  | _ => false

end RunProblem

namespace GoldenRun

/-- The configuration of a run, or what is wrong with it. -/
def parseConfig (r : GoldenRun) : Except RunProblem Config :=
  if r.config == "" then .ok (Config.forLinters r.linters)
  else
    match ConfigFormat.ofName? r.format with
    | none => .error (.unknownFormat r.format)
    | some format =>
      (Config.parseBytes format (Text.textBytes r.config.toList)).mapError .config

/-- The analysis of a batch, or what is wrong with it. -/
def analysis (r : GoldenRun) (b : Batch) : Except RunProblem Analysis := do
  let c ← r.parseConfig
  (analyze c b false).mapError .analysis

/-- What is wrong with the expected findings themselves: they need a linter and a class. -/
def expectationProblem? (r : GoldenRun) : Option String :=
  r.expectedFindings.zipIdx.findSome? fun (e, n) =>
    let missing (field : String) : Option String :=
      some ("expected finding at index " ++ toString n ++ " has empty or missing '" ++ field ++
        "' field")
    if Text.trim e.linter == "" then missing "linter"
    else if Text.trim e.className == "" then missing "class"
    else none

/-- Judges what an analysis found. -/
def judge (r : GoldenRun) (a : Analysis) : RunVerdict :=
  match r.expectationProblem? with
  | some problem =>
    { name := r.name, passed := false, message := "Invalid expected.yaml: " ++ problem
      details := [problem] }
  | none =>
    let c := Comparison.ofFindings r.expectedFindings a.report.findings
    let failed := a.report.errors.map fun e => "Unexpected linter error: " ++ e.message
    { name := r.name
      passed := c.isEmpty && failed.isEmpty
      message :=
        if c.isEmpty then
          "All " ++ toString r.expectedFindings.length ++ " expected findings reported"
        else
          "Test failed: " ++ toString c.missing.length ++ " missing, " ++
            toString c.unexpected.length ++ " unexpected"
      details := failed ++ c.details }

/-- Runs a configuration on a batch. A failing analysis passes if its error was expected. -/
def verdict (r : GoldenRun) (b : Batch) : Except CaseFault RunVerdict :=
  match r.analysis b with
  | .ok a => .ok (r.judge a)
  | .error problem =>
    if problem.isBreakdown then .error .breakdown
    else if r.expectedErrors.any fun part => Text.contains problem.message part then
      .ok { name := r.name, passed := true, message := "Got expected error: " ++ problem.message }
    else .error (.unexpectedError problem.message)

end GoldenRun

/-! ### Cases -/

/-- The verdict on a case from those on its configurations. -/
def Verdict.ofRuns (runs : List RunVerdict) : Verdict :=
  let failed := runs.filter (!·.passed)
  if failed.isEmpty then
    { runs, passed := true
      message := "All " ++ toString runs.length ++ " configurations passed" }
  else
    { runs, passed := false
      message :=
        toString failed.length ++ "/" ++ toString runs.length ++ " configurations failed:\n" ++
          Text.joinWith "\n" (failed.map fun r =>
            "[" ++ r.name ++ "] " ++ r.message ++ ":\n  " ++ Text.joinWith "\n  " r.details) }

namespace GoldenCase

/-- The class files of a case, laid out by package. -/
def files (c : GoldenCase) : Except CaseFault FileTree :=
  c.classes.foldlM (fun t o => do
    let draft ← o.shown.draft.mapError .badOutline
    let content ← draft.encode.mapError .unwritable
    (t.store (Path.join "." (o.name ++ ".class")) content).mapError .unstorable)
    { current := ["case"] }

/-- The batch of the classes of a case, all of which have to be loaded. -/
def batch (c : GoldenCase) : Except CaseFault Batch := do
  let t ← c.files
  let b ← (Batch.load t ["."] true false).mapError .unloadable
  if !b.failures.isEmpty then throw (.malformedClasses b.failures)
  return b

/-- Runs a case. -/
def verdict (c : GoldenCase) : Except CaseFault Verdict := do
  if c.runs.isEmpty then throw .noConfigurations
  let b ← c.batch
  return Verdict.ofRuns (← c.runs.mapM (·.verdict b))

end GoldenCase

end ClassAudit
