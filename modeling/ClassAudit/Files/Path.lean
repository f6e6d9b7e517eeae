import ClassAudit.Text.Basic

/-!
# Paths

Slash-separated paths and their shortest form.

## Main definitions

* `Path.parts` - the names in a path; `Path.steps` - the same with single dots.
* `Path.clean` - the shortest path that names the same place, as far as the text shows.
* `Path.join` - a path below another one; `Path.base`, `Path.extension` - its last part.
* `Path.relative?` - the way from one path to another.
-/

namespace ClassAudit.Path

/-- The parts of a path between slashes; empty parts and single dots name nothing. -/
def parts (path : String) : List String :=
  ((Text.splitWhere (· == '/') path.toList).map String.ofList).filter fun p => p != "" && p != "."

/-- The steps of a path between slashes. A single dot is a step to where one is; a slash at the end
is one more such step. -/
def steps (path : String) : List String :=
  ((Text.splitWhere (· == '/') path.toList).map String.ofList).filter (· != "") ++
    (if Text.endsWith path "/" then ["."] else [])

/-- Does the path begin at the root? -/
def isRooted (path : String) : Bool := Text.startsWith path "/"

/-- Adds a part to the parts before it, which are given last first: two dots take back the part
before them, stay at the root of a rooted path, and are kept at the start of another one. -/
def addPart (rooted : Bool) (before : List String) (part : String) : List String :=
  if part == ".." then
    match before with
    | [] => if rooted then [] else [".."]
    | last :: rest => if last == ".." then ".." :: before else rest
  else part :: before

/-- The parts of a path in its shortest form. -/
def cleanParts (path : String) : List String :=
  ((parts path).foldl (addPart (isRooted path)) []).reverse

/-- The path with given parts. -/
def ofParts (rooted : Bool) (parts : List String) : String :=
  if rooted then "/" ++ Text.joinWith "/" parts
  else if parts.isEmpty then "."
  else Text.joinWith "/" parts

/-- The shortest path that names the same place, as far as the text shows. -/
def clean (path : String) : String := ofParts (isRooted path) (cleanParts path)

/-- The path of `name` below `dir`, in its shortest form. -/
def join (dir name : String) : String :=
  if dir == "" then if name == "" then "" else clean name
  else clean (dir ++ "/" ++ name)

/-- The last part of a path; a dot for the empty path and a slash for the root. -/
def base (path : String) : String :=
  if path == "" then "."
  else
    match ((Text.splitWhere (· == '/') path.toList).filter (!·.isEmpty)).getLast? with
    | some part => String.ofList part
    | none => "/"

/-- The end of the last part of a path from its last dot on; empty without one. -/
def extension (path : String) : String :=
  let last := (path.toList.reverse.takeWhile (· != '/'))
  match Text.cutAt (· == '.') last with
  | some (ending, _) => String.ofList ('.' :: ending.reverse)
  | none => ""

/-- Two lists without their longest common beginning. -/
def dropCommon : List String → List String → List String × List String
  | a :: as, b :: bs => if a == b then dropCommon as bs else (a :: as, b :: bs)
  | as, bs => (as, bs)

/-- The way from `start` to `target`, in its shortest form; there is none when only one of them is
rooted, or when they part where `start` has two dots. -/
def relative? (start target : String) : Option String :=
  if clean target == clean start then some "."
  else if isRooted start != isRooted target then none
  else
    let below := if clean target == "." then ["."] else cleanParts target
    let (up, down) := dropCommon (cleanParts start) below
    if up.head? == some ".." && !down.isEmpty then none
    else some (clean (Text.joinWith "/" (up.map (fun _ => "..") ++ down)))

end ClassAudit.Path
