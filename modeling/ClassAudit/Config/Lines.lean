import ClassAudit.Config.Basic

/-!
# Configurations as lines

In the line format each line stands for itself: a linter with its targets, a list of platform
packages, a suppression, or a comment. Lines for the same linter are added up.

## Main definitions

* `ConfigLine` - what one line says; `ConfigLine.read?` - the reading of a line.
* `LineRun` - a configuration as lines are added to it, with the places of its rules.
* `Config.ofLines` - the configuration that a byte string spells; `LinesFault` - why it spells none.
-/

namespace ClassAudit

/-- A class, a package or everything. -/
inductive RuleTarget where
  | everything
  | package (name : String)
  | className (name : String)
deriving DecidableEq, Repr

/-- What one line says. -/
inductive ConfigLine where
  /-- An empty line or a comment. -/
  | nothing
  | suppression (rule : Suppression)
  | platform (prefixes : List String)
  | rule (linter : String) (targets : List RuleTarget)
deriving DecidableEq, Repr

/-- Why a byte string spells no configuration. -/
inductive LinesFault where
  | unexpected (number : Nat) (line : List UInt8)
  | tooLong
deriving DecidableEq, Repr

/-- The wording of a fault. -/
def LinesFault.message : LinesFault → String
  | unexpected number line =>
    let shown := Text.trimEnds (fun x => x.char?.any Text.isBlank) (Text.symbols line)
    "parsing config: line " ++ toString number ++ ": expected \"Linter: targets\", got " ++
      Text.quoteSymbols shown
  | tooLong => "parsing config: bufio.Scanner: token too long"

/-! ### Reading a line -/

/-- The parts of a text between commas, without outer blanks and without empty parts. -/
def listItems (s : List Char) : List String :=
  ((Text.splitWhere (· == ',') s).map fun part =>
    String.ofList (Text.trimEnds Text.isBlank part)).filter (· != "")

/-- What marks a target as a package. -/
def packageMark : String := "PACKAGE:"

/-- The target that a text names. -/
def RuleTarget.ofText (s : String) : RuleTarget :=
  if s == "*" then .everything
  else if Text.startsWith s packageMark then
    .package (Text.trim (String.ofList (s.toList.drop packageMark.length)))
  else .className s

/-- What follows a character, with blanks around it. -/
def afterMark? (mark : Char) (s : List Char) : Option (List Char) :=
  match s.dropWhile Text.isAsciiBlank with
  | c :: rest => if c == mark then some (rest.dropWhile Text.isAsciiBlank) else none
  | [] => none

/-- The platform packages of a line. -/
def platformLine? (s : List Char) : Option (List String) :=
  let word := "platform".toList
  if word.isPrefixOf s then (afterMark? '=' (s.drop word.length)).map listItems else none

/-- A character that can begin the name of a linter. -/
def isNameStart (c : Char) : Bool := c.isAlpha || c == '_'

/-- The name of a linter at the beginning of a text, with what follows it. -/
def linterName? : List Char → Option (List Char × List Char)
  | [] => none
  | c :: s =>
    if c == '*' then some ([c], s)
    else if isNameStart c then
      let inName := fun c : Char => isNameStart c || c.isDigit
      some (c :: s.takeWhile inName, s.dropWhile inName)
    else none

/-- The linter of a line with its targets. -/
def ruleLine? (s : List Char) : Option (String × List RuleTarget) := do
  let (name, rest) ← linterName? s
  let targets ← afterMark? ':' rest
  return (String.ofList name, (listItems targets).map .ofText)

/-- What a line says, given without outer blanks; none when it cannot be read. -/
def ConfigLine.read? (s : List Char) : Option ConfigLine :=
  if s.isEmpty || s.head? == some '#' then some .nothing
  else
    match Suppression.ofDirective? (String.ofList s) with
    | some silence => some (.suppression silence)
    | none =>
      match platformLine? s with
      | some prefixes => some (.platform prefixes)
      | none => (ruleLine? s).map fun (linter, targets) => .rule linter targets

/-! ### Adding lines up -/

/-- Adds a target to a rule. -/
def LinterRule.addTarget (r : LinterRule) : RuleTarget → LinterRule
  | .everything => { r with all := true }
  | .package name => { r with packages := r.packages ++ [name] }
  | .className name => { r with classes := r.classes ++ [name] }

/-- Adds targets to a rule. -/
def LinterRule.addTargets (r : LinterRule) (targets : List RuleTarget) : LinterRule :=
  targets.foldl addTarget r

/-- A configuration that lines are added to. -/
structure LineRun where
  config : Config := {}
  /-- The places of the rules, by the names of their linters. -/
  places : List (String × Nat) := []

namespace LineRun

/-- The place of the rule of a linter. Where there is none, an empty one is put behind the
others. -/
def place (run : LineRun) (linter : String) : Nat × LineRun :=
  match run.places.lookup linter with
  | some i => (i, run)
  | none =>
    let i := run.config.linters.length
    (i, { config := { run.config with linters := run.config.linters ++ [{ name := linter }] }
          places := (linter, i) :: run.places })

/-- Adds targets to the rule of a linter. -/
def addRule (run : LineRun) (linter : String) (targets : List RuleTarget) : LineRun :=
  let (i, run) := run.place linter
  { run with config :=
      { run.config with linters := run.config.linters.modify i (·.addTargets targets) } }

/-- Adds what a line says. -/
def addLine (run : LineRun) : ConfigLine → LineRun
  | .nothing => run
  | .suppression rule =>
    { run with config := { run.config with suppress := run.config.suppress ++ [rule] } }
  | .platform prefixes =>
    { run with config := { run.config with platform := run.config.platform ++ prefixes } }
  | .rule linter targets => run.addRule linter targets

end LineRun

/-- The number of bytes that a line may not reach. -/
def lineLimit : Nat := 65536

/-- Adds lines; the first of them has the given number. -/
def LineRun.addLines (run : LineRun) (number : Nat) : List (List UInt8) → Except LinesFault LineRun
  | [] => .ok run
  | line :: rest =>
    if lineLimit ≤ line.length then .error .tooLong
    else
      match ConfigLine.read? (Text.trimEnds Text.isBlank (Text.decodeKeeping line)) with
      | none => .error (.unexpected number line)
      | some said => (run.addLine said).addLines (number + 1) rest

/-- The byte that ends a line. -/
def lineFeed : UInt8 := 10

/-- The configuration that a byte string spells. -/
def Config.ofLines (bytes : List UInt8) : Except LinesFault Config :=
  (LineRun.addLines {} 1 (Text.splitWhere (· == lineFeed) bytes)).map (·.config)

end ClassAudit
