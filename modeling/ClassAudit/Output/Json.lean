import ClassAudit.Text.Quoted

/-!
# JSON texts

## Main definitions

* `JsonValue` - a JSON value; the members of objects keep their order.
* `JsonValue.render` - its text over several lines, each level indented by two spaces.
-/

namespace ClassAudit

/-- A JSON value. -/
inductive JsonValue where
  | text (s : String)
  | int (n : Int)
  | bool (b : Bool)
  | array (items : List JsonValue)
  | object (members : List (String × JsonValue))
deriving Repr, Inhabited

namespace JsonValue

/-- A character of a JSON string. Besides what has to be escaped, the characters that could end
or open markup are, and the two separators that end lines in scripts. -/
def escapeChar (c : Char) : List Char :=
  if c == Text.doubleMark || c == '\\' then ['\\', c]
  else if c == '\x08' then ['\\', 'b']
  else if c == '\x0c' then ['\\', 'f']
  else if c == '\n' then ['\\', 'n']
  else if c == '\r' then ['\\', 'r']
  else if c == '\t' then ['\\', 't']
  else if c.toNat < 0x20 || c == '<' || c == '>' || c == '&' || c.toNat == 0x2028 ||
      c.toNat == 0x2029 then '\\' :: 'u' :: Text.hexDigits 4 c.toNat
  else [c]

/-- A JSON string with its marks. -/
def quoted (s : String) : String :=
  String.ofList ([Text.doubleMark] ++ s.toList.flatMap escapeChar ++ [Text.doubleMark])

/-- The beginning of a line at a depth. -/
def newLine (depth : Nat) : String := "\n" ++ String.ofList (List.replicate (2 * depth) ' ')

mutual

/-- The text of a value that stands at a depth. -/
def render (depth : Nat) : JsonValue → String
  | text s => quoted s
  | int n => toString n
  | bool b => toString b
  | array items =>
    if items.isEmpty then "[]"
    else "[" ++ renderItems (depth + 1) items ++ newLine depth ++ "]"
  | object members =>
    if members.isEmpty then "\x7b\x7d"
    else "\x7b" ++ renderMembers (depth + 1) members ++ newLine depth ++ "\x7d"

/-- The items of an array, each on a line of its own. -/
def renderItems (depth : Nat) : List JsonValue → String
  | [] => ""
  | v :: vs =>
    newLine depth ++ render depth v ++ (if vs.isEmpty then "" else ",") ++ renderItems depth vs

/-- The members of an object, each on a line of its own. -/
def renderMembers (depth : Nat) : List (String × JsonValue) → String
  | [] => ""
  | (name, v) :: rest =>
    newLine depth ++ quoted name ++ ": " ++ render depth v ++
      (if rest.isEmpty then "" else ",") ++ renderMembers depth rest

end

end JsonValue

end ClassAudit
