import ClassAudit.CommandLine.Command

/-!
# What commands say about themselves

## Main definitions

* `Flag.usage` - what a flag does, in a line.
* `flagTable` - flags with what they do, in columns.
* `Command.help` - what a command says about itself.
-/

namespace ClassAudit

/-- What a flag of a command does, in a line. -/
def Flag.usage (c : Command) : Flag → String
  | config => "Linter configuration file (.yaml, .toml or line format)"
  | linter => "Run this linter on every loaded class (repeatable)"
  | list => "List registered linters and exit"
  | verbose => "Enable verbose output"
  | json => "Output in JSON format"
  | profile =>
    "Enable CPU and memory profiling (writes cpu.prof and mem.prof to current directory)"
  | recursive => "Descend into directories"
  | version => "version for " ++ c.name
  | help => "help for " ++ c.name
  | noDescriptions => "disable completion descriptions"

/-- A flag as a table shows it: the letter, or blanks in its place, the name and the kind of value. -/
def Flag.heading (f : Flag) : String :=
  let letter := match f.letter? with
    | some c => "  -" ++ String.singleton c ++ ", --"
    | none => "      --"
  let kind := match f.valueKind? with
    | some kind => " " ++ kind
    | none => ""
  letter ++ f.name ++ kind

/-- What a flag is without being given, where that is not nothing. -/
def Flag.standing : Flag → String
  | recursive => " (default true)"
  | _ => ""

/-- Blanks up to a width. -/
def padding (width : Nat) (text : String) : String :=
  String.ofList (List.replicate (width - text.length) ' ')

/-- Flags with what they do. The second column starts three places behind the longest flag. -/
def flagTable (c : Command) (flags : List Flag) : String :=
  let width := (flags.map (·.heading.length)).foldl max 0 + 3
  String.intercalate "\n" (flags.map fun f =>
    f.heading ++ padding width f.heading ++ f.usage c ++ f.standing)

namespace Command

/-- What a command does, at length. -/
def about : Command → String
  | analyze =>
    "classlint reads compiled .class files and reports:\n" ++
    "- Style problems such as dead code, unused members and equals/hashCode mismatches\n" ++
    "- Design principle violations such as feature envy and dependency cycles\n" ++
    "- Design patterns and the ways they are commonly misapplied\n\n" ++
    "Without --config or --linter every registered linter runs on every class."
  | completion =>
    "Generate the autocompletion script for classlint for the specified shell.\n" ++
    "See each sub-command's help for details on how to use the generated script."
  | script .bash =>
    "Generate the autocompletion script for the bash shell.\n\n" ++
    "This script depends on the 'bash-completion' package.\n" ++
    "If it is not installed already, you can install it via your OS's package manager.\n\n" ++
    "To load completions in your current shell session:\n\n" ++
    "\tsource <(classlint completion bash)\n\n" ++
    "To load completions for every new session, execute once:\n\n" ++
    "#### Linux:\n\n" ++
    "\tclasslint completion bash > /etc/bash_completion.d/classlint\n\n" ++
    "#### macOS:\n\n" ++
    "\tclasslint completion bash > $(brew --prefix)/etc/bash_completion.d/classlint\n\n" ++
    "You will need to start a new shell for this setup to take effect."
  | script .fish =>
    "Generate the autocompletion script for the fish shell.\n\n" ++
    "To load completions in your current shell session:\n\n" ++
    "\tclasslint completion fish | source\n\n" ++
    "To load completions for every new session, execute once:\n\n" ++
    "\tclasslint completion fish > ~/.config/fish/completions/classlint.fish\n\n" ++
    "You will need to start a new shell for this setup to take effect."
  | script .powershell =>
    "Generate the autocompletion script for powershell.\n\n" ++
    "To load completions in your current shell session:\n\n" ++
    "\tclasslint completion powershell | Out-String | Invoke-Expression\n\n" ++
    "To load completions for every new session, add the output of the above command\n" ++
    "to your powershell profile."
  | script .zsh =>
    "Generate the autocompletion script for the zsh shell.\n\n" ++
    "If shell completion is not already enabled in your environment you will need\n" ++
    "to enable it.  You can execute the following once:\n\n" ++
    "\techo \"autoload -U compinit; compinit\" >> ~/.zshrc\n\n" ++
    "To load completions in your current shell session:\n\n" ++
    "\tsource <(classlint completion zsh)\n\n" ++
    "To load completions for every new session, execute once:\n\n" ++
    "#### Linux:\n\n" ++
    "\tclasslint completion zsh > \"$\x7bfpath[1]\x7d/_classlint\"\n\n" ++
    "#### macOS:\n\n" ++
    "\tclasslint completion zsh > $(brew --prefix)/share/zsh/site-functions/_classlint\n\n" ++
    "You will need to start a new shell for this setup to take effect."
  | complete described => (complete described).summary

/-- How a command is typed. -/
def useLine : Command → String
  | analyze => analyze.path ++ " [paths...] [flags]"
  | completion => completion.path ++ " [command]"
  | script .bash => (script .bash).path
  | c => c.path ++ " [flags]"

/-- How a command may be used. -/
def examples? : Command → Option String
  | analyze => some (
    "  classlint build/classes                # Analyze a class directory\n" ++
    "  classlint -c classlint.yaml build/     # Use a configuration file\n" ++
    "  classlint -l DeadCode -l FeatureEnvy . # Run selected linters everywhere\n" ++
    "  classlint --json build/ > report.json  # JSON output to file\n" ++
    "  classlint --list                       # Show available linters")
  | _ => none

/-- The commands below a command, each with what it does, the names in a column. -/
def belowTable (c : Command) : String :=
  String.intercalate "\n" (c.below.map fun sub =>
    "  " ++ sub.name ++ padding 11 sub.name ++ " " ++ sub.summary)

/-- What a command says about itself. A part without content is left out. -/
def help (c : Command) : String :=
  let part (title text : String) : String :=
    if text == "" then "" else "\n\n" ++ title ++ ":\n" ++ text
  c.about ++ part "Usage" ("  " ++ c.useLine) ++ part "Examples" (c.examples?.getD "") ++
    part "Available Commands" c.belowTable ++ part "Flags" (flagTable c c.own) ++
    part "Global Flags" (flagTable c c.inherited) ++
    (if c.below.isEmpty then ""
      else "\n\nUse \"" ++ c.path ++
        " [command] --help\" for more information about a command.") ++ "\n"

end Command

end ClassAudit
