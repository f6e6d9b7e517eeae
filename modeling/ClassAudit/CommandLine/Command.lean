import ClassAudit.CommandLine.Flags

/-!
# Commands

The program analyses classes unless its first word is the name of another command. A word is an
argument that is neither a flag nor, as far as can be told before flags are read, the value of one.

## Main definitions

* `Shell`, `Command` - the commands of the program.
* `Command.inherited`, `Command.own` - the flags that a command knows.
* `splitWord` - the first word among arguments; `Command.find` - the command that they name.
-/

namespace ClassAudit

/-- The shells that can complete arguments. -/
inductive Shell where
  | bash
  | fish
  | powershell
  | zsh
deriving DecidableEq, Repr

namespace Shell

/-- Every shell, by name. -/
def all : List Shell := [bash, fish, powershell, zsh]

/-- The name of a shell. -/
def name : Shell → String
  | bash => "bash"
  | fish => "fish"
  | powershell => "powershell"
  | zsh => "zsh"

/-- The shell with a name. -/
def ofName? (name : String) : Option Shell := all.find? (·.name == name)

end Shell

/-- The commands of the program. -/
inductive Command where
  /-- Analyses classes. -/
  | analyze
  /-- Tells about the scripts by which shells complete arguments. -/
  | completion
  /-- Prints the script of a shell. -/
  | script (shell : Shell)
  /-- Completes the last argument, with or without descriptions: what the scripts call. -/
  | complete (described : Bool)
deriving DecidableEq, Repr

namespace Command

/-- The name of a command. -/
def name : Command → String
  | analyze => "classlint"
  | completion => "completion"
  | script shell => shell.name
  | complete true => "__complete"
  | complete false => "__completeNoDesc"

/-- A command with the commands above it, as it is typed. -/
def path : Command → String
  | analyze => analyze.name
  | script shell => analyze.name ++ " " ++ completion.name ++ " " ++ shell.name
  | c => analyze.name ++ " " ++ c.name

/-- What a command does, in a line. -/
def summary : Command → String
  | analyze => "Lint compiled JVM classes for design problems"
  | completion => "Generate the autocompletion script for the specified shell"
  | script shell => "Generate the autocompletion script for " ++ shell.name
  | complete _ => "Request shell completion choices for the specified command-line"

/-- The commands that a command has below it and tells about. -/
def below : Command → List Command
  | completion => Shell.all.map script
  | _ => []

/-- The flags that a command shares with the command above it, by name. -/
def inherited : Command → List Flag
  | analyze => []
  | _ => Flag.common

/-- The flags of a command itself, by name. -/
def own : Command → List Flag
  | analyze =>
    [.config, .help, .json, .linter, .list, .profile, .recursive, .verbose, .version]
  | completion => [.help]
  | script _ => [.help, .noDescriptions]
  | complete _ => []

/-- The flags that a command knows. -/
def known (c : Command) : List Flag := c.inherited ++ c.own

end Command

/-! ### The command that arguments name -/

/-- May an argument have the next one as its value? Only the flags of every command are known here,
and a flag that is not known is taken to need a value. -/
def mayTakeNext (argument : String) : Bool :=
  let needsValue (f? : Option Flag) : Bool := (f?.map (·.needsValue)).getD true
  match argument.toList with
  | '-' :: '-' :: name =>
    !name.contains '=' && needsValue (Flag.ofName? Flag.common (String.ofList name))
  | ['-', c] => c != '=' && c.toNat < 128 && needsValue (Flag.ofLetter? Flag.common c)
  | _ => false

/-- The first word among arguments, with the arguments before and behind it. Nothing behind two
hyphens is a word, and neither is the last argument where it may be the value of a flag. -/
def splitWord : List String → Option (List String × String × List String)
  | [] => none
  | argument :: rest =>
    if argument == "--" then none
    else if mayTakeNext argument then
      match rest with
      | value :: next :: rest =>
        (splitWord (next :: rest)).map fun (before, word, behind) =>
          (argument :: value :: before, word, behind)
      | _ => none
    else if argument == "" || argument.toList.head? == some '-' then
      (splitWord rest).map fun (before, word, behind) => (argument :: before, word, behind)
    else some ([], argument, rest)

namespace Command

/-- The command below `completion` that arguments name, and the arguments without its name. -/
def findScript (arguments : List String) : Command × List String :=
  match splitWord arguments with
  | none => (completion, arguments)
  | some (before, word, behind) =>
    match Shell.ofName? word with
    | some shell => (script shell, before ++ behind)
    | none => (completion, arguments)

/-- The command that arguments name, and the arguments without its name. -/
def find (arguments : List String) : Command × List String :=
  match splitWord arguments with
  | none => (analyze, arguments)
  | some (before, word, behind) =>
    if word == completion.name then findScript (before ++ behind)
    else
      match [complete true, complete false].find? (·.name == word) with
      | some c => (c, before ++ behind)
      | none => (analyze, arguments)

end Command

end ClassAudit
