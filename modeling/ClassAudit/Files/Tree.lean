import ClassAudit.Files.Path
import ClassAudit.Text.Utf8

/-!
# File trees

The files that a run sees: directories, files and symbolic links by their place below the root,
and the current directory, from which paths start that do not start at the root.

## Main definitions

* `FileTree` - the entries of a tree by their place.
* `FileTree.put` - a tree with one more entry; `FileTree.store` - the same for a file that is
  written with the limits on names.
* `FileTree.resolve` - the entry that a path names; `PathFault` - why it names none.
* `FileTree.read` - the content of a file.
* `FileTree.below` - the entries below a place.
-/

namespace ClassAudit

/-- What stands at a place of a tree. -/
inductive FileItem where
  | file (content : List UInt8)
  | directory
  /-- A symbolic link with its target. -/
  | link (target : String)
deriving DecidableEq, Repr

/-- Why a path names nothing that can be used. -/
inductive PathFault where
  | missing
  | notDirectory
  | isDirectory
  | tooManyLinks
  /-- The path holds a NUL. -/
  | invalid
  /-- The path, or a name in it, is too long. -/
  | tooLong
deriving DecidableEq, Repr

/-- The wording of a fault. -/
def PathFault.message : PathFault → String
  | missing => "no such file or directory"
  | notDirectory => "not a directory"
  | isDirectory => "is a directory"
  | tooManyLinks => "too many levels of symbolic links"
  | invalid => "invalid argument"
  | tooLong => "file name too long"

/-- The entries of a tree by their place, the names from the root downwards. -/
structure FileTree where
  entries : List (List String × FileItem) := []
  /-- The place of the current directory. -/
  current : List String := []
deriving Repr, Inhabited

namespace FileTree

/-- The place that a path starts at. -/
def startOf (t : FileTree) (path : String) : List String :=
  if Path.isRooted path then [] else t.current

/-- The place that a path names when it leads through no link. -/
def placeOf (t : FileTree) (path : String) : List String :=
  ((Path.parts path).foldl (Path.addPart true) (t.startOf path).reverse).reverse

/-- What stands at a place. The current directory and those around it need no entries. -/
def item? (t : FileTree) (place : List String) : Option FileItem :=
  if place.isPrefixOf t.current then some .directory else t.entries.lookup place

/-- Puts an item at a place, in the place of what stood there. -/
def set (t : FileTree) (place : List String) (item : FileItem) : FileTree :=
  if (t.item? place).isSome then
    { t with entries := t.entries.map fun (p, i) => if p == place then (p, item) else (p, i) }
  else { t with entries := t.entries ++ [(place, item)] }

/-- Makes a directory where nothing stands yet. -/
def makeDirectory (t : FileTree) (place : List String) : FileTree :=
  if (t.item? place).isSome then t else t.set place .directory

/-- Puts an item at a path and makes the directories above it. -/
def put (t : FileTree) (path : String) (item : FileItem) : FileTree :=
  let place := t.placeOf path
  let above := (List.range (place.length - 1)).map fun n => place.take (n + 1)
  let t := above.foldl makeDirectory t
  match item with
  | .directory => t.makeDirectory place
  | item => t.set place item

/-! ### Looking up paths -/

/-- The number of links that one path may lead through. -/
def linkLimit : Nat := 40

/-- The number of bytes that a path must stay below. -/
def pathLimit : Nat := 4096

/-- The number of bytes that a name may have. -/
def nameLimit : Nat := 255

/-- Is a name too long for an entry? -/
def isLongName (name : String) : Bool := nameLimit < name.utf8ByteSize

/-- What is wrong with the text of a path, whatever stands in the tree. -/
def textFault? (path : String) : Option PathFault :=
  if path.toList.contains (Char.ofNat 0) then some .invalid
  else if path == "" then some .missing
  else if pathLimit ≤ path.utf8ByteSize then some .tooLong
  else none

/-- Follows the steps of a path from a directory. `followLast` tells whether a link at the end is
followed, too. `links` bounds the links that may still be followed. -/
def follow (t : FileTree) (links : Nat) (place rest : List String) (followLast : Bool) :
    Except PathFault (List String × FileItem) :=
  match rest with
  | [] =>
    match t.item? place with
    | some item => .ok (place, item)
    | none => .error .missing
  | part :: rest =>
    if part == "." then t.follow links place rest followLast
    else if part == ".." then t.follow links place.dropLast rest followLast
    else if isLongName part then .error .tooLong
    else
      match t.item? (place ++ [part]) with
      | none => .error .missing
      | some .directory => t.follow links (place ++ [part]) rest followLast
      | some (.file content) =>
        if rest.isEmpty then .ok (place ++ [part], .file content) else .error .notDirectory
      | some (.link target) =>
        if rest.isEmpty && !followLast then .ok (place ++ [part], .link target)
        else
          match links with
          | 0 => .error .tooManyLinks
          | links + 1 =>
            if target == "" then .error .missing
            else
              t.follow links (if Path.isRooted target then [] else place)
                (Path.steps target ++ rest) followLast
termination_by (links, rest.length)

/-- The place and the item that a path names. A link at the end is followed on demand, and always
when a step follows it, which only a directory may have behind it. -/
def resolve (t : FileTree) (path : String) (followLast : Bool) :
    Except PathFault (List String × FileItem) :=
  match textFault? path with
  | some fault => .error fault
  | none => t.follow linkLimit (t.startOf path) (Path.steps path) followLast

/-- Makes the directories above an entry, the uppermost first, or finds why they cannot be. -/
def openPlace (t : FileTree) (place : List String) : Except PathFault FileTree :=
  ((List.range (place.length - 1)).map fun n => place.take (n + 1)).foldlM
    (fun t above =>
      if isLongName (above.getLast?.getD "") then .error .tooLong
      else
        match t.item? above with
        | none => .ok (t.set above .directory)
        | some .directory => .ok t
        | some _ => .error .notDirectory) t

/-- Writes a file at a path that leads through no link, and makes the directories above it. -/
def store (t : FileTree) (path : String) (content : List UInt8) : Except PathFault FileTree := do
  if let some fault := textFault? path then throw fault
  let place := t.placeOf path
  let t ← t.openPlace place
  if isLongName (place.getLast?.getD "") then throw .tooLong
  match t.item? place with
  | some .directory => throw .isDirectory
  | _ => return t.set place (.file content)

/-- Why a file cannot be read: it cannot be opened, or its content is no sequence of bytes. -/
inductive ReadFault where
  | opening (path : String) (fault : PathFault)
  | reading (path : String) (fault : PathFault)
deriving DecidableEq, Repr

/-- The wording of a fault. -/
def ReadFault.message : ReadFault → String
  | opening path fault => "open " ++ path ++ ": " ++ fault.message
  | reading path fault => "read " ++ path ++ ": " ++ fault.message

/-- The content of the file that a path names. -/
def read (t : FileTree) (path : String) : Except ReadFault (List UInt8) :=
  match t.resolve path true with
  | .error fault => .error (.opening path fault)
  | .ok (_, .file content) => .ok content
  | .ok _ => .error (.reading path .isDirectory)

/-- The names below a place, with what stands there: all of them, or only those right below. -/
def below (t : FileTree) (place : List String) (deep : Bool) : List (List String × FileItem) :=
  t.entries.filterMap fun (p, item) =>
    if place.isPrefixOf p && place.length < p.length &&
        (deep || p.length == place.length + 1) then
      some (p.drop place.length, item)
    else none

end FileTree

end ClassAudit
