import ClassAudit.Text.Basic

/-!
# Positions in a YAML text

A text is taken in part by part, as far as it has to be known. What is wrong with a part shows as
soon as one of its characters is asked for, and not before.

## Main definitions

* `Yaml.isBreak`, `Yaml.isSpace`, `Yaml.endsWord` - line breaks and blanks.
* `Yaml.Fault` - why a text is no YAML.
* `Yaml.Mark` - a position in a text; `Yaml.Cursor` - a position with what follows it.
* `Yaml.Cursor.need` - asks for characters; `Yaml.Cursor.skip` - goes on by one character.
-/

namespace ClassAudit.Yaml

/-! ### Characters -/

/-- A character that ends a line. -/
def isBreak (c : Char) : Bool :=
  c == '\n' || c == '\r' || c.toNat == 0x85 || c.toNat == 0x2028 || c.toNat == 0x2029

/-- A space or a tab. -/
def isSpace (c : Char) : Bool := c == ' ' || c == '\t'

/-- Does the text end here, or go on with a blank or a line break? -/
def endsWord : List Char → Bool
  | [] => true
  | c :: _ => isSpace c || isBreak c

/-- Does the text end here, or go on with a line break? -/
def endsLine : List Char → Bool
  | [] => true
  | c :: _ => isBreak c

/-- Does the text go on with a line break? -/
def startsBreak : List Char → Bool
  | [] => false
  | c :: _ => isBreak c

/-- A character of a name: a letter, a digit, a hyphen or an underscore. -/
def isNameChar (c : Char) : Bool := c.isAlphanum || c == '-' || c == '_'

/-! ### Faults -/

/-- Why a text is no YAML. -/
structure Fault where
  problem : String
  /-- The line that is told, 0 for none. -/
  line : Nat := 0
deriving DecidableEq, Repr

/-- The wording of a fault. -/
def Fault.message (f : Fault) : String :=
  "yaml: " ++ (if f.line == 0 then "" else "line " ++ toString f.line ++ ": ") ++ f.problem

/-! ### Positions -/

/-- A position in a text. Lines, columns and characters count from zero. -/
structure Mark where
  line : Nat := 0
  column : Nat := 0
  index : Nat := 0
deriving DecidableEq, Repr, Inhabited

/-- A position in a text, with what follows it. -/
structure Cursor where
  rest : List Char
  /-- The length of the whole text, which bounds the number of steps of every reading. -/
  size : Nat := 0
  /-- How many of the characters that follow were taken in. -/
  ready : Nat := 0
  /-- The lengths of the parts that are still to be taken in. -/
  parts : List Nat := []
  /-- Why nothing can be taken in behind those parts, unless the text ends there. -/
  ending : Option Fault := none
  /-- The character at the position where a part was taken in last. -/
  opening : Option Char := none
  line : Nat := 0
  column : Nat := 0
  index : Nat := 0
  /-- The number of line breaks since the last character that is no blank. -/
  breaks : Nat := 0
deriving Repr, Inhabited

namespace Cursor

/-- The position alone. -/
def mark (c : Cursor) : Mark := { line := c.line, column := c.column, index := c.index }

/-- Takes in parts until `n` characters are ready or no part is left. -/
def takeIn (n : Nat) : List Nat → Nat → Nat × List Nat
  | [], ready => (ready, [])
  | p :: parts, ready => if n ≤ ready then (ready, p :: parts) else takeIn n parts (ready + p)

/-- Asks for `n` characters. The end of the text counts as one more each time that it is met. -/
def need (c : Cursor) (n : Nat) : Except Fault Cursor :=
  if n ≤ c.ready then .ok c
  else
    let (ready, parts) := takeIn n c.parts c.ready
    let c := { c with ready, parts, opening := c.rest.head? }
    if n ≤ ready then .ok c
    else
      match c.ending with
      | some fault => .error fault
      | none => .ok { c with ready := ready + 1 }

/-- Goes on behind a character that ends no line. -/
def skip (c : Cursor) : Cursor :=
  let blank := (c.rest.head?.map isSpace).getD false
  { c with
    rest := c.rest.tail
    ready := c.ready - 1
    column := c.column + 1
    index := c.index + 1
    breaks := if blank then c.breaks else 0 }

/-- Skips some characters. -/
def skipMany : Nat → Cursor → Cursor
  | 0, c => c
  | n + 1, c => skipMany n c.skip

/-- Reads the characters that satisfy `p`, which no line break does, and gives them in reverse
order. -/
def readWhileUpTo (p : Char → Bool) :
    Nat → List Char → Cursor → Except Fault (List Char × Cursor)
  | 0, text, c => .ok (text, c)
  | fuel + 1, text, c =>
    match c.rest with
    | x :: _ =>
      if p x then do readWhileUpTo p fuel (x :: text) (← c.skip.need 1) else .ok (text, c)
    | [] => .ok (text, c)

/-- Reads the characters that satisfy `p`, which no line break does, and gives them in reverse
order. -/
def readWhile (c : Cursor) (p : Char → Bool) : Except Fault (List Char × Cursor) :=
  readWhileUpTo p c.size [] c

/-- Skips the characters that satisfy `p`, which no line break does. -/
def skipWhile (c : Cursor) (p : Char → Bool) : Except Fault Cursor := do
  let (_, c) ← c.readWhile p
  return c

/-- The line break at a position, and the position after it. All breaks count as line feeds, apart
from the line and the paragraph separator. -/
def break? (c : Cursor) : Option (Char × Cursor) :=
  let after (rest : List Char) (n : Nat) : Cursor :=
    { c with rest, ready := c.ready - n, line := c.line + 1, column := 0, index := c.index + n,
             breaks := c.breaks + 1 }
  match c.rest with
  | '\r' :: '\n' :: rest => some ('\n', after rest 2)
  | b :: rest =>
    if b.toNat == 0x2028 || b.toNat == 0x2029 then some (b, after rest 1)
    else if isBreak b then some ('\n', after rest 1)
    else none
  | [] => none

/-- The position after the line break, if one stands here. -/
def skipBreak (c : Cursor) : Except Fault Cursor := do
  if !startsBreak c.rest then return c
  let c ← c.need 2
  match c.break? with
  | some (_, after) => return after
  | none => return c

/-- Does a line begin here with three hyphens or three dots that mark off a document? -/
def atDocumentMark (c : Cursor) : Bool :=
  c.column == 0 &&
    match c.rest with
    | '-' :: '-' :: '-' :: rest => endsWord rest
    | '.' :: '.' :: '.' :: rest => endsWord rest
    | _ => false

/-- The line that is told for a fault found here, in something that begins at `start`. -/
def faultAt (c : Cursor) (start : Mark) (problem : String) : Fault :=
  let line := if start.line != 0 then start.line else c.line
  { problem, line := if line == 0 then 0 else line + 1 }

/-! ### Comments -/

/-- How far behind a token or a comment another comment is looked for. -/
def commentReach : Nat := 512

/-- Goes on to the character with number `start`, and from there to the end of the line. -/
def skipComment (start : Nat) : Nat → Cursor → Except Fault Cursor
  | 0, c => .ok c
  | fuel + 1, c => do
    let c ← c.need 1
    if endsLine c.rest then
      if start ≤ c.index then return c else skipComment start fuel (← c.skipBreak)
    else skipComment start fuel c.skip

/-- Skips the comment that follows on the same line behind blanks, if one does. `ahead` blanks were
seen, and `fuel` more may follow. -/
def skipLineCommentFrom : Nat → Nat → Cursor → Except Fault Cursor
  | 0, _, c => .ok c
  | fuel + 1, ahead, c => do
    let c ← c.need (ahead + 1)
    match c.rest.drop ahead with
    | x :: _ =>
      if isSpace x then skipLineCommentFrom fuel (ahead + 1) c
      else if x == '#' then skipComment (c.index + ahead) (c.size + 1) c
      else return c
    | [] => return c

/-- Skips the comment that follows on the same line behind blanks, if one does. -/
def skipLineComment (c : Cursor) : Except Fault Cursor :=
  if 0 < c.breaks then .ok c else skipLineCommentFrom commentReach 0 c

/-- Looks for a comment behind blanks and line breaks, `ahead` of which were seen: the number of
characters before it. The look reaches no further than `fuel` characters, and ends at a line break
that takes more than one byte. -/
def findComment : Nat → Nat → Cursor → Except Fault (Option Nat × Cursor)
  | 0, _, c => .ok (none, c)
  | fuel + 1, ahead, c => do
    let c ← c.need (ahead + 1)
    match c.rest.drop ahead with
    | x :: _ =>
      if isSpace x || x == '\n' || x == '\r' then findComment fuel (ahead + 1) c
      else if x == '#' then return (some ahead, c)
      else if isBreak x && fuel != 0 then return (none, ← c.need (ahead + 2))
      else return (none, c)
    | [] => return (none, c)

/-- Skips the comment that begins at most `fuel` characters ahead, and all further comments between
which only blanks and line breaks stand. `limit` bounds their number. -/
def skipComments : Nat → Nat → Nat → Cursor → Except Fault Cursor
  | 0, _, _, c => .ok c
  | limit + 1, fuel, ahead, c => do
    match ← findComment fuel ahead c with
    | (none, c) => return c
    | (some n, c) =>
      let c ← skipComment (c.index + n) (c.size + 1) c
      -- the line break behind the comment is passed over unseen
      if startsBreak c.rest && !(c.rest.head? == some '\n' || c.rest.head? == some '\r') then
        c.need 2
      else skipComments limit (commentReach - 1) 1 c

end Cursor

end ClassAudit.Yaml
