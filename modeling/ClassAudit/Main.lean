import ClassAudit.CommandLine.Program
import ClassAudit.Output.Timestamp
import Std.Time.DateTime.Timestamp

/-!
# The command line

Reads the files that the arguments name, runs the program on them and prints what it says.
-/

namespace ClassAudit.Main

/-- Adds what stands at a path to a tree, with everything below it. Only class files and files
that are named by an argument are read. -/
partial def addPath (t : FileTree) (path : String) (named : Bool) : IO FileTree := do
  let place := System.mkFilePath [path]
  let kind ← try pure (some (← place.symlinkMetadata).type) catch _ => pure none
  match kind with
  | some .dir =>
    let entries ← place.readDir
    entries.foldlM (fun t entry => addPath t (Path.join path entry.fileName) false)
      (t.put path .directory)
  | some .file =>
    if named || isClassFileName path then
      return t.put path (.file (← IO.FS.readBinFile path).toList)
    else return t
  | some .symlink =>
    let target ← try pure (toString (← IO.FS.realPath path)) catch _ => pure ""
    let t := t.put path (.link target)
    if target == "" || target == path then return t
    else if named then addPath t target true
    else if ← place.isDir then return t.put target .directory
    else addPath t target false
  | _ => return t

/-- The tree that a run sees: the configuration file and the paths. -/
def readTree (o : Options) : IO FileTree := do
  let directory := toString (← IO.currentDir)
  let t : FileTree := { current := Path.cleanParts directory }
  let t ← if o.configFile == "" then pure t else addPath t o.configFile true
  let paths := if o.paths.isEmpty then ["."] else o.paths
  paths.foldlM (fun t path => addPath t path true) t

/-- Runs the program on the files that its arguments name. -/
def run (arguments : List String) : IO UInt32 := do
  let start ← IO.monoNanosNow
  let t ← match Command.find arguments with
    | (.analyze, rest) =>
      match Options.parse Command.analyze.known rest with
      | .ok o => if o.list || o.version || o.help then pure {} else readTree o
      | .error _ => pure {}
    | _ => pure {}
  let now ← Std.Time.Timestamp.now
  let elapsed := (← IO.monoNanosNow) - start
  let clock : Clock := {
    elapsed := elapsed
    timestamp := timestampText now.toSecondsSinceUnixEpoch.val.toNat }
  let outcome := runProgram t arguments clock
  IO.print outcome.stdout
  if outcome.message != "" then IO.eprintln outcome.message
  return outcome.exit.toUInt32

end ClassAudit.Main

/-- The entry point of the program. -/
def main (arguments : List String) : IO UInt32 := ClassAudit.Main.run arguments
