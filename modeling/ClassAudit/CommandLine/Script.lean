import ClassAudit.CommandLine.Command

/-!
# Scripts for shells

The script of a shell makes it ask the program for the ways to complete an argument.

## Main definitions

* `Shell.script` - the script of a shell.
-/

namespace ClassAudit.Shell

/-- The lines of the script of a shell, in which `request` is what the program is called with. -/
def scriptLines (request : String) : Shell → List String
  | bash => [
    "# bash completion for classlint",
    "",
    "__classlint_complete()",
    "\x7b",
    "    local line words",
    "    words=(\"$\x7bCOMP_WORDS[@]:1:COMP_CWORD\x7d\")",
    "    COMPREPLY=()",
    "    while IFS= read -r line; do",
    "        if [[ $line != :* ]]; then",
    "            COMPREPLY+=(\"$\x7bline%%$'\\t'*\x7d\")",
    "        fi",
    "    done < <(\"$\x7bCOMP_WORDS[0]\x7d\" " ++ request ++ " \"$\x7bwords[@]\x7d\" 2>/dev/null)",
    "\x7d",
    "",
    "complete -o default -F __classlint_complete classlint"]
  | fish => [
    "# fish completion for classlint",
    "",
    "function __classlint_complete",
    "    set -l words (commandline -opc) (commandline -ct)",
    "    $words[1] " ++ request ++ " $words[2..-1] 2>/dev/null | string match -v ':*'",
    "end",
    "",
    "complete -c classlint -a '(__classlint_complete)'"]
  | powershell => [
    "# powershell completion for classlint",
    "",
    "Register-ArgumentCompleter -Native -CommandName 'classlint' -ScriptBlock \x7b",
    "    param($word, $command, $cursor)",
    "    $words = @($command.CommandElements | Select-Object -Skip 1 | ForEach-Object \x7b \"$_\" \x7d)",
    "    if ($word -eq '') \x7b $words += '\"\"' \x7d",
    "    classlint " ++ request ++ " @words 2>$null | Where-Object \x7b $_ -notlike ':*' \x7d | " ++
      "ForEach-Object \x7b",
    "        $name = ($_ -split \"`t\", 2)[0]",
    "        [System.Management.Automation.CompletionResult]::new(" ++
      "$name, $name, 'ParameterValue', $_)",
    "    \x7d",
    "\x7d"]
  | zsh => [
    "#compdef classlint",
    "compdef _classlint classlint",
    "",
    "# zsh completion for classlint",
    "",
    "_classlint()",
    "\x7b",
    "    local line",
    "    local -a candidates",
    "    while IFS= read -r line; do",
    "        if [[ $line != :* ]]; then",
    "            candidates+=(\"$\x7bline/$'\\t'/:\x7d\")",
    "        fi",
    "    done < <(\"$\x7bwords[1]\x7d\" " ++ request ++
      " \"$\x7b(@)words[2,CURRENT]\x7d\" 2>/dev/null)",
    "    _describe 'completions' candidates || _files",
    "\x7d"]

/-- The script of a shell, in which ways to complete are described or not. -/
def script (described : Bool) (shell : Shell) : String :=
  String.join ((shell.scriptLines (Command.complete described).name).map (· ++ "\n"))

end ClassAudit.Shell
