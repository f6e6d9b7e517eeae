import ClassAudit.CommandLine.Help

/-!
# Completing arguments

Shells ask for the ways to complete the last argument, which may be empty. They are told one way in
a line, each with a description behind a tab, and in the last line behind a colon whether names of
files are ways as well.

## Main definitions

* `Candidate`, `Completions` - the ways to complete an argument; `Completions.text` - how they are
  told.
* `Target` - what is completed: a word, or the value of a flag.
* `completionsOf` - the ways to complete the last of some arguments.
-/

namespace ClassAudit

/-- A way to complete an argument. -/
structure Candidate where
  word : String
  description : String
deriving DecidableEq, Repr

/-- The ways to complete an argument. -/
structure Completions where
  candidates : List Candidate := []
  /-- Are names of files ways as well? -/
  files : Bool := true
deriving DecidableEq, Repr

namespace Completions

/-- How ways are told to a shell. -/
def text (described : Bool) (c : Completions) : String :=
  let line (w : Candidate) : String :=
    if described then w.word ++ "\t" ++ w.description ++ "\n" else w.word ++ "\n"
  String.join (c.candidates.map line) ++ (if c.files then ":0\n" else ":4\n")

end Completions

/-! ### What is completed -/

/-- Does a text start with a hyphen? -/
def isHyphened (text : String) : Bool := text.toList.head? == some '-'

/-- The flag that a name means among those that are known: one character is a letter. -/
def Flag.meant? (known : List Flag) (name : String) : Option Flag :=
  match name.toList with
  | [c] => Flag.ofLetter? known c
  | _ => Flag.ofName? known name

/-- The name of the flag and the value in a text such as `--name=value` or `-abc=value`, in which the
last letter has the value. -/
def assignment? (text : String) : Option (String × String) :=
  match Text.cutAt (· == '=') text.toList with
  | some ('-' :: '-' :: name, value) => some (String.ofList name, String.ofList value)
  | some (letters, value) => some (String.ofList letters.getLast?.toList, String.ofList value)
  | none => none

/-- The name of the flag whose value may stand behind an argument: the flag itself, or the last
letter of several. -/
def pendingFlag? (argument : String) : Option String :=
  let text := argument.toList
  if text.contains '=' then none
  else
    match text with
    | '-' :: '-' :: c :: name => some (String.ofList (c :: name))
    | '-' :: c :: letters =>
      if c == '-' then none else some (String.ofList (c :: letters).getLast?.toList)
    | _ => none

/-- What is completed. -/
structure Target where
  /-- The flag whose value is completed; none for a word. -/
  flag? : Option Flag := none
  /-- Is it the value of a flag that is not known? -/
  isStrange : Bool := false
  /-- The arguments before the flag, or before the word. -/
  before : List String
  word : String
deriving DecidableEq, Repr

namespace Target

/-- The value of a flag by name, where the arguments before it are told with that flag and without.
A switch has no value unless it is assigned one. -/
def ofFlag (known : List Flag) (name : String) (isAssigned : Bool) (value : String)
    (without : List String) (t : Target) : Target :=
  match Flag.meant? known name with
  | none => { t with isStrange := true }
  | some f =>
    if isAssigned || f.needsValue then { flag? := some f, before := without, word := value }
    else { t with word := value }

/-- What is completed where a word stands behind arguments: a value that the word assigns, a value of
the flag before it, or the word itself. -/
def ofWord (known : List Flag) (before : List String) (word : String) : Target :=
  let t : Target := { before, word }
  let assigned? := if isHyphened word then assignment? word else none
  if isHyphened word && assigned?.isNone then t
  else
    let (name, value) := assigned?.getD ("", word)
    if name != "" then ofFlag known name true value before t
    else
      match before.getLast?.bind pendingFlag? with
      | some name => ofFlag known name assigned?.isSome value before.dropLast t
      | none => { t with word := value }

end Target

/-! ### The ways to complete it -/

/-- The names of a flag that start with a text. -/
def Flag.completions (c : Command) (word : String) (f : Flag) : List Candidate :=
  let names := ["--" ++ f.name] ++ (f.letter?.map fun l => "-" ++ String.singleton l).toList
  (names.filter (word.isPrefixOf ·)).map fun name => { word := name, description := f.usage c }

/-- The flags that may still be given. Only linters may be given again. -/
def Command.openFlags (c : Command) (o : Options) : List Flag :=
  c.known.filter fun f => f == .linter || !o.given.contains f

/-- The commands whose names start with a text. -/
def commandCompletions (commands : List Command) (word : String) : List Candidate :=
  (commands.filter (word.isPrefixOf ·.name)).map fun c =>
    { word := c.name, description := c.summary }

/-- The ways to complete a target of a command, where the arguments before it have been read and
some commands are below. Nothing completes an argument behind a demand for help, and only an analysis
takes files. -/
def Target.completions (t : Target) (c : Command) (below : List Command) (o : Options) :
    Completions :=
  if t.isStrange && !o.ended then {}
  else if o.given.contains .help || o.given.contains .version then { files := false }
  else
    let takesFiles := c == .analyze
    match t.flag? with
    | some _ => { files := takesFiles || !o.ended }
    | none =>
      if isHyphened t.word && !t.word.toList.contains '=' && !o.ended then
        { candidates := (c.openFlags o).flatMap (Flag.completions c t.word), files := false }
      else
        let below := if o.paths.isEmpty then below else []
        { candidates := commandCompletions below t.word, files := takesFiles && below.isEmpty }

/-- The ways to complete the last of some arguments. The command `completion` and those below it are
only there when the first argument names it, so that they never take the place of a path. -/
def completionsOf (arguments : List String) (word : String) : Completions :=
  let isNamed := (arguments ++ [word]).head? == some Command.completion.name
  let (c, rest) := if isNamed then Command.find arguments else (.analyze, arguments)
  let below := if c == .analyze && isNamed then [.completion] else c.below
  let t := Target.ofWord c.known rest word
  match Options.parse c.known t.before with
  | .error _ => {}
  | .ok o => t.completions c below o

end ClassAudit
