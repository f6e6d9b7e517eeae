import ClassAudit.Config.Basic
import ClassAudit.Toml.Document

/-!
# Configurations in TOML

The names of fields count whatever their case. Every key of the document has to belong to a field.

## Main definitions

* `TomlFault` - why a text gives no configuration.
* `Config.ofToml` - the configuration that a TOML document describes.
-/

namespace ClassAudit

/-- What a field of a configuration takes. -/
inductive TomlShape where
  | text
  | bool
  | list
  /-- A table for a record of the given type. -/
  | record (type : String)
deriving DecidableEq, Repr

/-- Why a text gives no configuration. -/
inductive TomlFault where
  /-- The text is no document. -/
  | syntactic (fault : Toml.Fault)
  /-- The value of a key, which is defined in the given line, has the wrong type. -/
  | mismatch (line : Option Nat) (key : Toml.Key) (expected : TomlShape) (found : String)
  /-- The first key that belongs to no field. -/
  | unknownKey (key : Toml.Key)
deriving DecidableEq, Repr

/-- What is wrong with a value of another type. -/
def TomlShape.mismatchText (found : String) : TomlShape → String
  | text => plain "string"
  | bool => plain "boolean"
  | list => plain "slice"
  | record type => "type mismatch for " ++ type ++ ": expected table but found " ++ found
where
  /-- The wording for all but records. -/
  plain (expected : String) : String :=
    "incompatible types: TOML value has type " ++ found ++ "; destination has type " ++ expected

/-- The wording of a fault. -/
def TomlFault.message : TomlFault → String
  | syntactic fault => "parsing toml config: " ++ fault.message
  | mismatch line key expected found =>
    "parsing toml config: " ++
      (match line with
        | some line => Toml.placeText line (Toml.keyText key)
        | none => "toml: (last key " ++ Text.quote (Toml.keyText key) ++ "): ") ++
      expected.mismatchText found
  | unknownKey key => "parsing toml config: unknown key " ++ Toml.keyText key

namespace Config

open Toml

/-- Why a value does not fit: its key, what it should be and its type. -/
structure TomlMisfit where
  key : Key
  expected : TomlShape
  found : String

/-- A reading of the value of a key: the result, and the keys below it that belong to fields. -/
abbrev TomlReading (α : Type) : Type := Key → Value → Except TomlMisfit (α × List Key)

/-- Letters that count as the same, whatever their case. The long s counts as an s, and the sign for
kelvin as a k. -/
def foldedName (name : String) : String :=
  name.map fun c =>
    if c.toNat == 0x17f then 's' else if c.toNat == 0x212a then 'k' else c.toLower

/-- A field of a record: its name, and how its value changes the record. -/
structure TomlField (σ : Type) where
  name : String
  set : σ → TomlReading σ

/-- A record of a type that begins as `zero`. -/
def tomlRecord {σ : Type} (type : String) (fields : List (TomlField σ)) (zero : σ) :
    TomlReading σ
  | key, .table entries =>
    entries.foldlM (fun (r, known) (name, v) =>
      match fields.find? fun f => f.name == foldedName name with
      | none => .ok (r, known)
      | some f => do
        let below := key ++ [name]
        let (r, more) ← f.set r below v
        return (r, known ++ below :: more)) (zero, [])
  | key, v => .error ⟨key, .record type, v.typeName⟩

/-- A list of records or single values. -/
def tomlList {α : Type} (element : TomlReading α) : TomlReading (List α) := fun key v => do
  let items ← match v with
    | .list items => pure items
    | .tables elements => pure (elements.map .table)
    | v => throw ⟨key, .list, v.typeName⟩
  let read ← items.mapM (element key)
  return (read.map (·.1), read.flatMap (·.2))

/-- A text. -/
def tomlText : TomlReading String
  | _, .text s => .ok (s, [])
  | key, v => .error ⟨key, .text, v.typeName⟩

/-- A truth value. -/
def tomlBool : TomlReading Bool
  | _, .bool b => .ok (b, [])
  | key, v => .error ⟨key, .bool, v.typeName⟩

/-- The field that keeps the value of a reading. -/
def TomlField.of {σ α : Type} (name : String) (read : TomlReading α) (keep : α → σ → σ) :
    TomlField σ where
  name
  set r key v := (read key v).map fun (a, known) => (keep a r, known)

/-- A rule. -/
def tomlRule : TomlReading LinterRule :=
  tomlRecord "config.LinterRule"
    [.of "name" tomlText fun name r => { r with name },
     .of "all" tomlBool fun all r => { r with all },
     .of "classes" (tomlList tomlText) fun classes r => { r with classes },
     .of "packages" (tomlList tomlText) fun packages r => { r with packages }] {}

/-- A suppression. -/
def tomlSuppression : TomlReading Suppression :=
  tomlRecord "suppress.Rule"
    [.of "linter" tomlText fun linter r => { r with linter },
     .of "class" tomlText fun className r => { r with className },
     .of "member" tomlText fun member r => { r with member },
     .of "reason" tomlText fun reason r => { r with reason }] {}

/-- The platform packages. -/
def tomlPlatform : TomlReading (List String) :=
  tomlRecord "config.Platform"
    [.of "prefixes" (tomlList tomlText) fun prefixes _ => prefixes] []

/-- A configuration. -/
def tomlConfig : TomlReading Config :=
  tomlRecord "config.Config"
    [.of "linters" (tomlList tomlRule) fun linters c => { c with linters },
     .of "suppress" (tomlList tomlSuppression) fun suppress c => { c with suppress },
     .of "platform" tomlPlatform fun platform c => { c with platform }] {}

/-- The configuration that a byte string describes. -/
def ofToml (bytes : List UInt8) : Except TomlFault Config := do
  let d ← (Toml.parse bytes).mapError .syntactic
  let (c, known) ← (tomlConfig [] (.table d.root)).mapError fun m =>
    .mismatch (d.lineOf? m.key) m.key m.expected m.found
  match d.keys.find? fun key => !known.contains key with
  | some key => throw (.unknownKey key)
  | none => return c

end Config

end ClassAudit
