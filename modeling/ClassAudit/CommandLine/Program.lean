import ClassAudit.Analysis
import ClassAudit.CommandLine.Completion
import ClassAudit.CommandLine.Script
import ClassAudit.Config.Parse
import ClassAudit.Output.Summary

/-!
# The program

What the program does with its arguments, given the files that it sees.

## Main definitions

* `Outcome` - what the program prints, and its exit code.
* `Options.config` - the configuration that a file and flags give together.
* `Command.run` - a command with its options.
* `runProgram` - the program.
-/

namespace ClassAudit

/-- What the program prints, and its exit code: 0 without violations, 1 with violations, and 2
when the run failed. -/
structure Outcome where
  exit : Nat := 0
  stdout : String := ""
  /-- What is told on standard error; empty for nothing. -/
  message : String := ""
  /-- Was the program broken off by a configuration that it cannot tell anything about? -/
  brokenOff : Bool := false
deriving DecidableEq, Repr, Inhabited

namespace Outcome

/-- A run that failed. -/
def failed (message : String) : Outcome := { exit := 2, message }

end Outcome

/-- Why nothing was analysed. -/
inductive RunFault where
  | config (fault : ConfigFileFault)
  | load (fault : LoadFault)
  | analysis (fault : AnalysisFault)
deriving DecidableEq, Repr

/-- The wording of a fault. -/
def RunFault.message : RunFault → String
  | config fault => "analyze: " ++ fault.message
  | load fault => "analyze: " ++ fault.message
  | analysis (.invalidConfig problems) => "analyze: " ++ (AnalysisFault.invalidConfig problems).message
  | analysis fault => "analyze: analyze classes: " ++ fault.message

/-- Does the fault break off the program? -/
def RunFault.isBreakdown : RunFault → Bool
  | config (.invalid _ fault) => fault.isBreakdown
  | _ => false

/-- The configuration of a run: that of the file, in which linters given by flags take the place
of the rules; without a file, the linters given by flags on every class; without either, the
standard one. -/
def Options.config (o : Options) (t : FileTree) : Except ConfigFileFault Config := do
  let chosen := Config.forLinters o.linters
  if o.configFile == "" then
    return if o.linters.isEmpty then Config.standard else chosen
  else
    let c ← Config.load t o.configFile
    return if o.linters.isEmpty then c else { c with linters := chosen.linters }

/-- What an analysis tells. -/
def Analysis.summary (a : Analysis) (classes : Nat) (clock : Clock) : Summary where
  findings := a.report.findings
  failedJobs := a.report.errors.map fun e =>
    { linter := e.linter, className := e.className, cause := e.fault.message }
  clean := a.report.clean
  skipped := a.failures.map fun f => { path := f.path, cause := f.fault.message }
  classes := classes
  jobs := a.jobs
  clock := clock

/-- Loads and analyses classes. -/
def Options.summary (o : Options) (t : FileTree) (clock : Clock) : Except RunFault Summary := do
  let c ← (o.config t).mapError .config
  let b ← (Batch.load t o.paths o.recursive false).mapError .load
  let a ← (analyze c b false).mapError .analysis
  return a.summary b.classes.length clock

/-- What a run prints, and its exit code. -/
def Options.report (o : Options) (s : Summary) : Outcome :=
  let stdout := if o.json then s.json else s.text o.verbose
  if !s.failedJobs.isEmpty then
    { exit := 2, stdout, message := toString s.failedJobs.length ++ " linter job(s) failed" }
  else if Finding.hasViolations s.findings then { exit := 1, stdout }
  else { stdout }

/-- Lists the linters, or analyses classes. -/
def Options.run (o : Options) (t : FileTree) (clock : Clock) : Outcome :=
  if o.list then { stdout := linterList (Registry.builtin .standard) }
  else
    match o.summary t clock with
    | .error fault => { Outcome.failed fault.message with brokenOff := fault.isBreakdown }
    | .ok s => o.report s

/-! ### Profiles -/

/-- Why a file cannot be created: its place is taken. -/
def creationFault? (t : FileTree) (path : String) : Option String :=
  let told (fault : PathFault) : Option String :=
    some ("creating " ++ path ++ ": open " ++ path ++ ": " ++ fault.message)
  match t.resolve path true with
  | .ok (_, .directory) => told .isDirectory
  | .error .tooManyLinks => told .tooManyLinks
  | _ => none

/-- A run with profiles around it where they are asked for. -/
def Options.profiled (o : Options) (t : FileTree) (outcome : Outcome) : Outcome :=
  if !o.profile then outcome
  else
    match creationFault? t "cpu.prof", creationFault? t "mem.prof" with
    | some message, _ => .failed message
    | none, some message =>
      if outcome.exit == 0 then { outcome with exit := 2, message } else outcome
    | none, none => outcome

/-! ### The program -/

/-- What the program says about its version. -/
def versionText : String :=
  "classlint version " ++ programVersion ++ "\n  commit: unknown\n  built:  unknown\n"

/-- Runs a command with what its arguments ask for. -/
def Command.run (c : Command) (t : FileTree) (o : Options) (clock : Clock) : Outcome :=
  if o.help then { stdout := c.help }
  else if o.version then { stdout := versionText }
  else
    match c with
    | script shell =>
      match o.paths with
      | word :: _ => .failed ("unknown command " ++ Text.quote word ++ " for " ++ Text.quote c.path)
      | [] => o.profiled t { stdout := shell.script !o.noDescriptions }
    | analyze => o.profiled t (o.run t clock)
    | _ => { stdout := c.help }

/-- Completes the last of some arguments. -/
def runCompletion (described : Bool) (arguments : List String) : Outcome :=
  match arguments.getLast? with
  | none => .failed "requires at least 1 arg(s), only received 0"
  | some word => { stdout := (completionsOf arguments.dropLast word).text described }

/-- The program, given the files that it sees. -/
def runProgram (t : FileTree) (arguments : List String) (clock : Clock) : Outcome :=
  match Command.find arguments with
  | (.complete described, rest) => runCompletion described rest
  | (c, rest) =>
    match Options.parse c.known rest with
    | .error fault => .failed fault.message
    | .ok o => c.run t o clock

end ClassAudit
