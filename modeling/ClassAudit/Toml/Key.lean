import ClassAudit.Text.Quoted

/-!
# Keys of TOML

A key has one or several parts. In a message its parts stand between dots, and those that are no
plain words stand between marks.

## Main definitions

* `Toml.Key` - the parts of a key; `Toml.keyText` - its text.
* `Toml.isBareChar` - the characters of plain words.
-/

namespace ClassAudit.Toml

/-- The parts of a key. -/
abbrev Key := List String

/-- A character of a key without marks. -/
def isBareChar (c : Char) : Bool := c.isAlphanum || c == '_' || c == '-'

/-- A character of a key between marks. -/
def quotedKeyChar (c : Char) : List Char :=
  if c == Text.doubleMark || c == '\\' then ['\\', c]
  else if c == '\x08' then ['\\', 'b']
  else if c == '\t' then ['\\', 't']
  else if c == '\n' then ['\\', 'n']
  else if c == '\x0c' then ['\\', 'f']
  else if c == '\r' then ['\\', 'r']
  else if c.toNat ≤ 0x1f || c.toNat == 0x7f then '\\' :: 'u' :: Text.hexDigits 4 c.toNat
  else [c]

/-- A part of a key, between marks where it needs them. -/
def keyPartText (part : String) : String :=
  if part != "" && part.toList.all isBareChar then part
  else
    String.ofList
      ([Text.doubleMark] ++ part.toList.flatMap quotedKeyChar ++ [Text.doubleMark])

/-- The text of a key. -/
def keyText (key : Key) : String := Text.joinWith "." (key.map keyPartText)

end ClassAudit.Toml
