import ClassAudit.Text.Quoted
import ClassAudit.Text.Utf8

/-!
# Command line flags

Flags are written with their name behind two hyphens or with one letter behind one hyphen, letters
may share a hyphen, and two hyphens alone end the flags. Everything else is a path. Which flags are
known depends on the command.

## Main definitions

* `Flag` - the flags of the program.
* `Options` - what the arguments ask for; `Options.parse` - the reading of arguments.
* `FlagFault` - why arguments cannot be read.
-/

namespace ClassAudit

/-- The flags of the program. -/
inductive Flag where
  | config
  | linter
  | list
  | verbose
  | json
  | profile
  | recursive
  | version
  | help
  | noDescriptions
deriving DecidableEq, Repr

namespace Flag

/-- The flags of every command, by name. -/
def common : List Flag := [config, json, linter, list, profile, recursive, verbose]

/-- The name of a flag. -/
def name : Flag → String
  | config => "config"
  | linter => "linter"
  | list => "list"
  | verbose => "verbose"
  | json => "json"
  | profile => "profile"
  | recursive => "recursive"
  | version => "version"
  | help => "help"
  | noDescriptions => "no-descriptions"

/-- The letter of a flag. -/
def letter? : Flag → Option Char
  | config => some 'c'
  | linter => some 'l'
  | verbose => some 'v'
  | help => some 'h'
  | _ => none

/-- What kind of value the flag needs. The others are switches, which may have a value. -/
def valueKind? : Flag → Option String
  | config => some "string"
  | linter => some "stringArray"
  | _ => none

/-- Does the flag need a value? -/
def needsValue (f : Flag) : Bool := f.valueKind?.isSome

/-- How a flag is called in messages. -/
def shown (f : Flag) : String :=
  match f.letter? with
  | some c => "-" ++ String.singleton c ++ ", --" ++ f.name
  | none => "--" ++ f.name

/-- The flag with a name among those that are known. -/
def ofName? (known : List Flag) (name : String) : Option Flag := known.find? (·.name == name)

/-- The flag with a letter among those that are known. -/
def ofLetter? (known : List Flag) (c : Char) : Option Flag := known.find? (·.letter? == some c)

end Flag

/-- What the arguments ask for. -/
structure Options where
  /-- The configuration file; empty for none. -/
  configFile : String := ""
  linters : List String := []
  list : Bool := false
  verbose : Bool := false
  json : Bool := false
  profile : Bool := false
  recursive : Bool := true
  version : Bool := false
  help : Bool := false
  noDescriptions : Bool := false
  paths : List String := []
  /-- The flags that were given, whatever their values. -/
  given : List Flag := []
  /-- Did two hyphens end the flags? -/
  ended : Bool := false
deriving DecidableEq, Repr, Inhabited

/-- Why arguments cannot be read. -/
inductive FlagFault where
  | badSyntax (argument : String)
  | unknownName (name : String)
  /-- A letter, and the letters from it on. -/
  | unknownLetter (letter : Char) (letters : String)
  | missingValue (argument : String)
  | missingLetterValue (letter : Char) (letters : String)
  | badSwitch (flag : Flag) (value : String)
deriving DecidableEq, Repr

/-- The wording of a fault. -/
def FlagFault.message : FlagFault → String
  | badSyntax argument => "bad flag syntax: " ++ argument
  | unknownName name => "unknown flag: --" ++ name
  | unknownLetter letter letters =>
    "unknown shorthand flag: " ++ Text.quoteSingle letter ++ " in -" ++ letters
  | missingValue argument => "flag needs an argument: " ++ argument
  | missingLetterValue letter letters =>
    "flag needs an argument: " ++ Text.quoteSingle letter ++ " in -" ++ letters
  | badSwitch flag value =>
    "invalid argument " ++ Text.quote value ++ " for " ++ Text.quote flag.shown ++
      " flag: strconv.ParseBool: parsing " ++ Text.quote value ++ ": invalid syntax"

namespace Options

/-- The truth value that a text spells. -/
def switchValue? (value : String) : Option Bool :=
  if ["1", "t", "T", "TRUE", "true", "True"].contains value then some true
  else if ["0", "f", "F", "FALSE", "false", "False"].contains value then some false
  else none

/-- The options after a switch. -/
def setSwitch (o : Options) (f : Flag) (b : Bool) : Options :=
  match f with
  | .list => { o with list := b }
  | .verbose => { o with verbose := b }
  | .json => { o with json := b }
  | .profile => { o with profile := b }
  | .recursive => { o with recursive := b }
  | .version => { o with version := b }
  | .help => { o with help := b }
  | .noDescriptions => { o with noDescriptions := b }
  | _ => o

/-- The options after a flag with its value. A later value takes the place of an earlier one,
apart from linters, which are added up. -/
def set (o : Options) (f : Flag) (value : String) : Except FlagFault Options :=
  let o := { o with given := f :: o.given }
  match f with
  | .config => .ok { o with configFile := value }
  | .linter => .ok { o with linters := o.linters ++ [value] }
  | f =>
    match switchValue? value with
    | some b => .ok (o.setSwitch f b)
    | none => .error (.badSwitch f value)

/-- Reads a flag by name, given without its hyphens, and takes its value from the arguments behind
it where it needs one. -/
def readName (known : List Flag) (o : Options) (argument : String) (text : List Char)
    (rest : List String) : Except FlagFault (Options × List String) := do
  if text.head? == some '-' || text.head? == some '=' then throw (.badSyntax argument)
  let (name, value?) := match Text.cutAt (· == '=') text with
    | some (name, value) => (String.ofList name, some (String.ofList value))
    | none => (String.ofList text, none)
  match Flag.ofName? known name with
  | none => throw (.unknownName name)
  | some f =>
    match value? with
    | some value => return (← o.set f value, rest)
    | none =>
      if !f.needsValue then return (← o.set f "true", rest)
      else
        match rest with
        | value :: rest => return (← o.set f value, rest)
        | [] => throw (.missingValue argument)

/-- The first byte of a character, read as a character. An ASCII character is its own. -/
def leadByte (c : Char) : Char :=
  match Text.utf8Bytes (String.singleton c) with
  | b :: _ => Char.ofNat b.toNat
  | [] => c

/-- The letter that is told of an unknown flag. Flags are looked up by bytes, and the byte is told
by the first byte of its own text: an ASCII letter is told as it is, and any other is not told
apart. -/
def toldLetter (c : Char) : Char := leadByte (leadByte c)

/-- Letters with this beginning are meant for a test runner and skipped. -/
def testRunnerMark : List Char := "test.".toList

/-- Reads flags by letter. The letters behind one that needs a value are its value. -/
def readLetters (known : List Flag) (o : Options) (rest : List String) :
    List Char → Except FlagFault (Options × List String)
  | [] => .ok (o, rest)
  | c :: letters => do
    let shown := String.ofList (c :: letters)
    if testRunnerMark.isPrefixOf (c :: letters) then return (o, rest)
    match Flag.ofLetter? known c with
    | none => throw (.unknownLetter (toldLetter c) shown)
    | some f =>
      match letters with
      | '=' :: v :: value => return (← o.set f (String.ofList (v :: value)), rest)
      | _ =>
        if !f.needsValue then readLetters known (← o.set f "true") rest letters
        else if !letters.isEmpty then return (← o.set f (String.ofList letters), rest)
        else
          match rest with
          | value :: rest => return (← o.set f value, rest)
          | [] => throw (.missingLetterValue c shown)

/-- Reads arguments. `fuel` bounds their number. -/
def parseFrom (known : List Flag) : Nat → Options → List String → Except FlagFault Options
  | 0, o, _ => .ok o
  | _, o, [] => .ok o
  | fuel + 1, o, argument :: rest =>
    match argument.toList with
    | '-' :: '-' :: [] => .ok { o with paths := o.paths ++ rest, ended := true }
    | '-' :: '-' :: text => do
      let (o, rest) ← readName known o argument text rest
      parseFrom known fuel o rest
    | '-' :: c :: letters => do
      let (o, rest) ← readLetters known o rest (c :: letters)
      parseFrom known fuel o rest
    | _ => parseFrom known fuel { o with paths := o.paths ++ [argument] } rest

/-- What arguments ask for, where some flags are known. -/
def parse (known : List Flag) (arguments : List String) : Except FlagFault Options :=
  parseFrom known (arguments.length + 1) {} arguments

end Options

end ClassAudit
