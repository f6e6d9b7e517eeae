import Std.Data.HashMap
import Std.Data.HashSet
import ClassAudit.Toml.Fault

/-!
# Tables of TOML

The statements of a document build up one table, step by step; a step that would define something
twice is refused. A table that only longer keys mention may still be defined, and an array that was
written out may be replaced.

## Main definitions

* `Toml.Value`, `Toml.Table` - the values of a document; `Toml.Value.typeName` - their types.
* `Toml.Tables` - what was defined so far: the table, what is known of its keys, and the context.
* `Tables.setValue`, `Tables.openTable`, `Tables.openInArray` - the steps.
-/

namespace ClassAudit.Toml

/-! ### Values -/

/-- A value of a document. -/
inductive Value where
  | text (s : String)
  | bool (b : Bool)
  | integer
  | float
  | date
  | list (items : List Value)
  | table (entries : List (String × Value))
  /-- An array whose tables have headers of their own. -/
  | tables (elements : List (List (String × Value)))
deriving Repr, Inhabited

/-- The type of a value in words. -/
def Value.typeName : Value → String
  | text _ => "string"
  | bool _ => "bool"
  | integer => "int64"
  | float => "float64"
  | date => "time.Time"
  | list _ => "[]any"
  | table _ => "map[string]any"
  | tables _ => "[]map[string]any"

/-- Was the value written between brackets? -/
def Value.isList : Value → Bool
  | list _ => true
  | _ => false

/-- The entries of a table in the order of their definition. -/
abbrev Table := List (String × Value)

namespace Table

/-- Does the table have an entry? -/
def has (t : Table) (name : String) : Bool := t.any (·.1 == name)

/-- Puts an entry into a table, in the place of an entry with the same name. -/
def set (t : Table) (name : String) (v : Value) : Table :=
  if t.has name then t.map fun (n, old) => if n == name then (n, v) else (n, old)
  else t ++ [(name, v)]

/-- The table at a place, or the number of the part of the key, counted from one, that names none.
In an array of tables the last one counts. -/
def at? (t : Table) : Key → Except Nat Table
  | [] => .ok t
  | name :: rest =>
    match t.lookup name with
    | some (.table inner) => (at? inner rest).mapError (· + 1)
    | some (.tables elements) => (at? (elements.getLast?.getD []) rest).mapError (· + 1)
    | _ => .error 1

/-- Makes the tables at and above a place where there are none, or gives the number of the part of the
key, counted from one, that names none. The numbers of the parts that are new come with the table. -/
def openPath (t : Table) : Key → Except Nat (Table × List Nat)
  | [] => .ok (t, [])
  | name :: rest =>
    let go (inner : Table) : Except Nat (Table × List Nat) :=
      ((inner.openPath rest).mapError (· + 1)).map fun (inner, new) => (inner, new.map (· + 1))
    match t.lookup name with
    | none => (go []).map fun (inner, new) => (t.set name (.table inner), 1 :: new)
    | some (.table inner) => (go inner).map fun (inner, new) => (t.set name (.table inner), new)
    | some (.tables elements) =>
      (go (elements.getLast?.getD [])).map fun (inner, new) =>
        (t.set name (.tables (elements.dropLast ++ [inner])), new)
    | some _ => .error 1

/-- Changes the table at a place, which exists. -/
def changeAt (f : Table → Table) : Key → Table → Table
  | [], t => f t
  | name :: rest, t =>
    match t.lookup name with
    | some (.table inner) => t.set name (.table (changeAt f rest inner))
    | some (.tables elements) =>
      t.set name
        (.tables (elements.dropLast ++ [changeAt f rest (elements.getLast?.getD [])]))
    | _ => t

/-- Puts an entry into a table below a table, and makes the tables on the way. Fails where a value
that is no table stands in the way. -/
def setBelow (name : String) (v : Value) : Key → Table → Option Table
  | [], t => some (t.set name v)
  | part :: rest, t =>
    match t.lookup part with
    | none => (setBelow name v rest []).map fun inner => t.set part (.table inner)
    | some (.table inner) =>
      (setBelow name v rest inner).map fun inner => t.set part (.table inner)
    | some _ => none

end Table

/-! ### Definitions -/

/-- What is known of a key: the line of its last definition, and whether it holds a written
array. -/
structure KeyInfo where
  line : Nat
  isArray : Bool
deriving Repr, Inhabited

/-- What was defined so far. -/
structure Tables where
  root : Table := []
  /-- What is known of keys, by their texts. -/
  info : Std.HashMap String KeyInfo := {}
  /-- The keys of tables that longer keys mention, by their texts. -/
  mentioned : Std.HashSet String := {}
  /-- The keys in the order of the text, newest first. -/
  keys : List Key := []
  /-- The table that statements add to. -/
  context : Key := []
  /-- The name that is being defined in it; empty for none. -/
  current : String := ""
  /-- The line of the last key. -/
  keyLine : Nat := 0
deriving Inhabited

namespace Tables

/-- The key that is being defined, for messages. -/
def lastKey (t : Tables) : String :=
  if t.current == "" then keyText t.context
  else if t.context.isEmpty then t.current
  else keyText t.context ++ "." ++ t.current

/-- A fault at the last key. -/
def fault (t : Tables) (cause : Cause) : Fault :=
  { line := t.keyLine, lastKey := t.lastKey, cause }

/-- Notes that a table is mentioned. -/
def mention (t : Tables) (key : Key) : Tables :=
  { t with mentioned := t.mentioned.insert (keyText key) }

/-- Forgets that a table was only mentioned. -/
def settle (t : Tables) (key : Key) : Tables :=
  { t with mentioned := t.mentioned.erase (keyText key) }

/-- Notes the kind and the line of a key of the context; the empty name stands for the context. -/
def note (t : Tables) (name : String) (isArray : Bool) (line : Nat) : Tables :=
  let key := if name == "" then t.context else t.context ++ [name]
  let key := if key.isEmpty then [""] else key
  { t with info := t.info.insert (keyText key) { line, isArray } }

/-- Notes a key in the order of the text. -/
def addKey (t : Tables) (key : Key) : Tables := { t with keys := key :: t.keys }

/-- Gives a name of the context a value. A key that holds a written array gets the new value; a table
that was only mentioned stays as it is and counts as defined from then on. -/
def setValue (t : Tables) (name : String) (v : Value) : Except Fault Tables :=
  match t.root.at? t.context with
  | .error n => .error (t.fault (.keyTwice (t.context.take n)))
  | .ok here =>
    let key := t.context ++ [name]
    let replaced : Tables := { t with root := Table.changeAt (Table.set · name v) t.context t.root }
    if !here.has name then .ok replaced
    else if ((t.info.get? (keyText key)).map (·.isArray)).getD false then .ok (replaced.settle key)
    else if t.mentioned.contains (keyText key) then .ok (t.settle key)
    else .error (t.fault (.keyTwice key))

/-- Makes the tables at and above a key; those that are new are only mentioned. -/
def openPath (t : Tables) (key : Key) : Except Fault Tables :=
  match t.root.openPath key with
  | .error n => .error (t.fault (.noTable (key.take n)))
  | .ok (root, new) => .ok (new.foldl (fun t n => t.mention (key.take n)) { t with root })

/-- Defines the table of a key, which becomes the context. -/
def openTable (t : Tables) (key : Key) : Except Fault Tables := do
  let t ← t.openPath key.dropLast
  let t ← { t with context := key.dropLast }.setValue (key.getLast?.getD "") (.table [])
  return { t with context := key }

/-- Adds a table to the array of a key; it becomes the context. -/
def openInArray (t : Tables) (key : Key) : Except Fault Tables := do
  let t ← t.openPath key.dropLast
  let t := { t with context := key.dropLast }
  let name := key.getLast?.getD ""
  let here := (t.root.at? t.context).toOption.getD []
  let elements ← match here.lookup name with
    | none => pure []
    | some (.tables elements) => pure elements
    | some _ => throw (t.fault (.noArray key))
  return { t with
    root := Table.changeAt (Table.set · name (.tables (elements ++ [[]]))) t.context t.root
    context := key }

/-- Mentions and opens the tables of the parts of a dotted key before its last one. -/
def openDotted (t : Tables) : Key → Except Fault Tables
  | [] => .ok t
  | part :: rest => do
    let key := t.context ++ [part]
    (← (t.mention key).openTable key).openDotted rest

end Tables

end ClassAudit.Toml
