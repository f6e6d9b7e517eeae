import ClassAudit.Config.Basic

/-!
# Valid configurations

A configuration is valid when each rule names a known linter and some target, and no name in it
is empty.

## Main definitions

* `ConfigProblem` - one thing that is wrong with a configuration.
* `Config.problems` - all of them, in the order of the configuration.
-/

namespace ClassAudit

/-- One thing that is wrong with a configuration. Rules, targets and prefixes are counted from
zero. -/
inductive ConfigProblem where
  | emptyLinter (rule : Nat)
  | unknownLinter (name : String)
  | emptyClass (rule item : Nat)
  | emptyPackage (rule item : Nat)
  | noTargets (rule : Nat)
  | emptyPrefix (item : Nat)
deriving DecidableEq, Repr

namespace ConfigProblem

/-- The place of a rule in a configuration. -/
def ruleText (rule : Nat) : String := "Config.Linters[" ++ toString rule ++ "]"

/-- The wording of a problem. -/
def message : ConfigProblem → String
  | emptyLinter rule => ruleText rule ++ ".Name: must not be empty"
  | unknownLinter name => (JobFault.unknownLinter name).message
  | emptyClass rule item =>
    ruleText rule ++ ".Classes[" ++ toString item ++ "]: must not be empty"
  | emptyPackage rule item =>
    ruleText rule ++ ".Packages[" ++ toString item ++ "]: must not be empty"
  | noTargets rule => ruleText rule ++ ".Classes: rule needs classes, packages or all: true"
  | emptyPrefix item => "Config.Platform.Prefixes[" ++ toString item ++ "]: must not be empty"

end ConfigProblem

/-- The positions of the empty texts of a list. -/
def emptyPositions (texts : List String) : List Nat :=
  (texts.zipIdx.filter (·.1 == "")).map (·.2)

/-- What is wrong with the name of a rule. -/
def LinterRule.nameProblems (r : LinterRule) (reg : Registry) (rule : Nat) : List ConfigProblem :=
  if r.name == "" then [.emptyLinter rule]
  else if r.name == allLinters || reg.has r.name then []
  else [.unknownLinter r.name]

/-- Does the rule name no target? -/
def LinterRule.lacksTargets (r : LinterRule) : Bool :=
  !r.all && r.classes.isEmpty && r.packages.isEmpty

/-- What is wrong with a rule. -/
def LinterRule.problems (r : LinterRule) (reg : Registry) (rule : Nat) : List ConfigProblem :=
  r.nameProblems reg rule ++ (emptyPositions r.classes).map (.emptyClass rule) ++
    (emptyPositions r.packages).map (.emptyPackage rule) ++
    if r.lacksTargets then [.noTargets rule] else []

/-- What is wrong with a configuration. -/
def Config.problems (c : Config) (reg : Registry) : List ConfigProblem :=
  c.linters.zipIdx.flatMap (fun (r, rule) => r.problems reg rule) ++
    (emptyPositions c.platform).map .emptyPrefix

/-- The wording of a list of problems, one a line. -/
def ConfigProblem.messages (problems : List ConfigProblem) : String :=
  Text.joinWith "\n" (problems.map message)

end ClassAudit
