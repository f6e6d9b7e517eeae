import ClassAudit.ClassFile.Parse
import ClassAudit.Files.Tree
import ClassAudit.Lint.Context

/-!
# Batches of classes

A batch is what one run looks at: every class that could be loaded, and every file that could not.

## Main definitions

* `Batch` - loaded classes, where they come from, and failures.
* `Batch.lookup?`, `Batch.packageNames`, `Batch.members`, `Batch.context` - finding classes.
* `discover` - the class files below a list of paths.
* `Batch.load` - the batch of a list of paths.
-/

namespace ClassAudit

/-- Why a file gives no class. -/
inductive FileFault where
  | unreadable (fault : FileTree.ReadFault)
  | malformed (path : String) (fault : Malformed)
  /-- A class of the same name was loaded from a file before. -/
  | duplicate (className previous : String)
deriving Repr

/-- The wording of a fault. -/
def FileFault.message : FileFault → String
  | unreadable fault => "read class file: " ++ fault.message
  | malformed path fault => path ++ ": " ++ fault.message
  | duplicate className previous =>
    "duplicate class " ++ className ++ ", already loaded from " ++ previous

/-- A file that gives no class. -/
structure Failure where
  path : String
  fault : FileFault
deriving Repr

/-- The wording of a failure. -/
def Failure.message (f : Failure) : String := f.path ++ ": " ++ f.fault.message

/-- Loaded classes and failures. -/
structure Batch where
  /-- In ascending order of names. -/
  classes : List ClassModel := []
  /-- The file of each class, by its name. -/
  sources : List (String × String) := []
  /-- In ascending order of paths. -/
  failures : List Failure := []
deriving Repr, Inhabited

namespace Batch

/-- Classes in ascending order of names; classes of one name keep their order. -/
def sortClasses (cs : List ClassModel) : List ClassModel :=
  cs.mergeSort fun a b => decide (a.name ≤ b.name)

/-- The batch of some classes, in any order. -/
def ofClasses (cs : List ClassModel) : Batch := { classes := sortClasses cs }

/-- The class with a dotted or internal name. -/
def lookup? (b : Batch) (name : String) : Option ClassModel :=
  b.classes.find? (·.name == internalName name)

/-- The packages of the classes, in ascending order. -/
def packageNames (b : Batch) : List String := Text.sortedDistinct (b.classes.map (·.package))

/-- The classes of a package. -/
def members (b : Batch) (package : String) : List ClassModel :=
  b.classes.filter (·.package == package)

/-- The classes of a package by name. -/
def context (b : Batch) (package : String) : PackageContext := .ofClasses (b.members package)

end Batch

/-! ### Discovery -/

/-- Why nothing can be loaded. -/
inductive LoadFault where
  | noPath (path : String) (fault : PathFault)
  | noFiles (paths : List String)
  | cancelled
deriving DecidableEq, Repr

/-- The wording of a fault. -/
def LoadFault.message : LoadFault → String
  | noPath path fault =>
    "loading classes: stat " ++ path ++ ": stat " ++ path ++ ": " ++ fault.message
  | noFiles paths => "loading classes: no class files found in [" ++ Text.joinWith " " paths ++ "]"
  | cancelled => "loading classes: loading classes: context canceled"

/-- Does the name of a file say that it holds a class? -/
def isClassFileName (name : String) : Bool := Text.endsWith name ".class"

/-- The class files that a path stands for: those in the directory that it names, or the file
itself whatever its name. A link to a directory is not entered, but taken for a file by its
name. -/
def discoverAt (t : FileTree) (recursive : Bool) (path : String) :
    Except LoadFault (List String) :=
  match t.resolve path true with
  | .error fault => .error (.noPath path fault)
  | .ok (_, .directory) =>
    match t.resolve path false with
    | .ok (place, .directory) =>
      .ok <| (t.below place recursive).filterMap fun (rest, item) =>
        if item != .directory && isClassFileName (rest.getLast?.getD "") then
          some (Path.join path (Text.joinWith "/" rest))
        else none
    | _ => .ok (if isClassFileName (Path.base path) then [Path.clean path] else [])
  | .ok _ => .ok [Path.clean path]

/-- The class files that a list of paths stands for, in ascending order and each once. -/
def discover (t : FileTree) (recursive : Bool) (paths : List String) :
    Except LoadFault (List String) := do
  let files ← paths.mapM (discoverAt t recursive)
  return Text.sortedDistinct files.flatten

/-! ### Loading -/

/-- The class in a file. -/
def loadClass (t : FileTree) (path : String) : Except FileFault ClassModel := do
  let content ← (t.read path).mapError .unreadable
  (ClassModel.parse content).mapError (.malformed path)

namespace Batch

/-- Adds what a file gives. The first file of a class is kept. -/
def add (b : Batch) (path : String) : Except FileFault ClassModel → Batch
  | .error fault => { b with failures := b.failures ++ [{ path, fault }] }
  | .ok c =>
    match b.sources.lookup c.name with
    | some previous =>
      { b with failures := b.failures ++ [{ path, fault := .duplicate c.name previous }] }
    | none => { b with classes := b.classes ++ [c], sources := b.sources ++ [(c.name, path)] }

/-- The batch of a list of files. -/
def ofFiles (t : FileTree) (files : List String) : Batch :=
  let b : Batch := files.foldl (fun (b : Batch) path => b.add path (loadClass t path)) {}
  { b with classes := sortClasses b.classes }

/-- The batch of the class files below some paths; no path stands for the current directory. -/
def load (t : FileTree) (paths : List String) (recursive cancelled : Bool) :
    Except LoadFault Batch := do
  let paths := if paths.isEmpty then ["."] else paths
  let files ← discover t recursive paths
  if files.isEmpty then throw (.noFiles paths)
  if cancelled then throw .cancelled
  return ofFiles t files

end Batch

end ClassAudit
