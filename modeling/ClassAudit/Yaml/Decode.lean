import ClassAudit.Text.Base64
import ClassAudit.Text.Quoted
import ClassAudit.Text.Utf8
import ClassAudit.Yaml.Node

/-!
# Reading values from YAML documents

A document is read into values of given types. What does not fit is noted and reading goes on, so
that all mismatches of a document are told at once. A missing value, or one that does not fit,
leaves a record as it is and drops out of a list.

Aliases may multiply the work that a document makes, so it is counted: a large document of which
nearly everything comes from aliases is refused.

## Main definitions

* `Yaml.Mismatch` - something in a document that does not fit.
* `Yaml.Failure` - why a text gives no value.
* `Yaml.Decode` - a reading that notes mismatches; `Yaml.visit` - one step into a node.
* `Yaml.decodeText`, `Yaml.decodeBool`, `Yaml.decodeInt`, `Yaml.decodeList`,
  `Yaml.decodeRecord` - the readings of values.
* `Yaml.decodeDocument` - the value of the first document of a byte string.
-/

namespace ClassAudit.Yaml

/-! ### Failures -/

/-- Something in a document that does not fit. -/
inductive Mismatch where
  | unknownField (line : Nat) (name type : String)
  | repeatedField (line : Nat) (name type : String)
  | repeatedKey (line : Nat) (key : String) (firstLine : Nat)
  /-- A node of another type, with its text, which is empty for a collection. -/
  | wrongType (line : Nat) (tag text type : String)
deriving DecidableEq, Repr

namespace Mismatch

/-- A text as it is told: at most ten bytes, or the first seven of them. -/
def shownText (text : String) : String :=
  let mark := String.singleton Text.backMark
  let bytes := Text.textBytes text.toList
  let shown :=
    if 10 < bytes.length then String.ofList (Text.decodeKeeping (bytes.take 7)) ++ "..." else text
  " " ++ mark ++ shown ++ mark

/-- A text behind its tag. That of a collection, or what is called one, is told as it is. -/
def taggedText (tag text : String) : String :=
  tag ++ (if tag == "!!seq" || tag == "!!map" then text else shownText text)

/-- The wording of a mismatch. -/
def message : Mismatch → String
  | unknownField line name type =>
    "line " ++ toString line ++ ": field " ++ name ++ " not found in type " ++ type
  | repeatedField line name type =>
    "line " ++ toString line ++ ": field " ++ name ++ " already set in type " ++ type
  | repeatedKey line key firstLine =>
    "line " ++ toString line ++ ": mapping key " ++ Text.quoteKept key ++
      " already defined at line " ++ toString firstLine
  | wrongType line tag text type =>
    "line " ++ toString line ++ ": cannot unmarshal " ++ taggedText tag text ++ " into " ++ type

end Mismatch

/-- Why a text gives no value. -/
inductive Failure where
  | fault (f : Fault)
  | mismatches (ms : List Mismatch)
  /-- A collection is a key where keys are compared, and nothing can be told about that. -/
  | unusableKey
deriving DecidableEq, Repr

/-- The wording of a failure. -/
def Failure.message : Failure → String
  | fault f => f.message
  | mismatches ms =>
    "yaml: unmarshal errors:" ++ String.join (ms.map fun m => "\n  " ++ m.message)
  | unusableKey => "yaml: a collection cannot be compared with other keys"

/-! ### Readings -/

/-- The state of a reading. -/
structure Decoding where
  /-- The nodes with anchors. -/
  anchored : Array Node := #[]
  /-- A bound for the depth of the reading. -/
  depth : Nat := 0
  /-- The mismatches, newest first. -/
  mismatches : List Mismatch := []
  /-- The number of steps into nodes, and of those below an alias. -/
  steps : Nat := 0
  aliased : Nat := 0
  /-- The aliases around the current node, innermost first. -/
  active : List Nat := []
  /-- The keys that take precedence over those of merged mappings, while mappings are merged. -/
  merged : Option (List String) := none
deriving Inhabited

/-- A reading that notes mismatches. -/
abbrev Decode := StateT Decoding (Except Failure)

namespace Decode

/-- Notes a mismatch. -/
def note (m : Mismatch) : Decode Unit :=
  modify fun d => { d with mismatches := m :: d.mismatches }

/-- Stops the reading. -/
def stop {α : Type} (problem : String) : Decode α := throw (.fault { problem })

end Decode

/-- Does too much of the work come from aliases? Of up to 400,000 steps 99 of 100 may be below
aliases, of 4,000,000 or more 10 of 100, and the share falls evenly between. -/
def tooManyAliased (aliased steps : Nat) : Bool :=
  let allowed : Nat :=
    if steps ≤ 400000 then 99 * 3600000
    else if 4000000 ≤ steps then 10 * 3600000
    else 99 * 3600000 - 89 * (steps - 400000)
  100 < aliased && 1000 < steps && allowed * steps < 360000000 * aliased

/-- Counts a step into a node. -/
def countStep : Decode Unit := do
  let d ← get
  let steps := d.steps + 1
  let aliased := if d.active.isEmpty then d.aliased else d.aliased + 1
  set { d with steps, aliased }
  if tooManyAliased aliased steps then Decode.stop "document contains excessive aliasing"

/-- Reads a node, or the node that an alias stands for. No alias may stand inside of itself. -/
def visit {α : Type} (read : Node → Decode α) (n : Node) : Decode α := do
  countStep
  match n with
  | .reference _ name number _ =>
    let d ← get
    if d.active.contains number then
      Decode.stop ("anchor '" ++ name ++ "' value contains itself")
    set { d with active := number :: d.active }
    countStep
    let value ← read (n.target d.anchored)
    modify fun e => { e with active := d.active }
    return value
  | n => read n

/-! ### Nodes -/

/-- The tags whose texts have to be of the tag's type. -/
def checkedTags : List String := ["!!null", "!!bool", "!!int", "!!float", "!!timestamp"]

/-- What a text with a tag stands for. A tag of another type than the text's own is refused,
apart from a whole number as a number with a fraction; with a tag that is not checked the text
stands for itself. -/
def plainValue (tag text : String) : Decode Plain :=
  let own := resolve (tag == "!!timestamp") text
  if !checkedTags.contains tag then return .text
  else if tag == own.tag then return own
  else
    match own with
    | .int n =>
      if tag == "!!float" && n < Binary.span 63 then return .float (some (ofInt n)) else refuse own
    | _ => refuse own
where
  /-- The text is no value of the tag's type. -/
  refuse (own : Plain) : Decode Plain :=
    let mark := String.singleton Text.backMark
    Decode.stop ("cannot decode " ++ own.tag ++ " " ++ mark ++ text ++ mark ++ " as a " ++ tag)

/-- A text as its tag wants it to be read: the tag for byte strings tells that it is in base 64. -/
def taggedText (tag text : String) : Decode String :=
  if tag == "!!binary" then
    match Text.Base64.decode? text.toList with
    | some bytes => return String.ofList (Text.decodeKeeping bytes)
    | none => Decode.stop "!!binary value contains invalid base64 data"
  else return text

/-- Notes that a node has another type. -/
def noteType (n : Node) (type : String) : Decode Unit :=
  match n with
  | .scalar line tag text => Decode.note (.wrongType line tag text type)
  | .sequence line tag _ => Decode.note (.wrongType line tag "" type)
  | .mapping line tag _ => Decode.note (.wrongType line tag "" type)
  | .reference .. => pure ()

/-- The kind of a node and its text, by which keys are compared. -/
def keyOf : Node → Nat × String
  | .scalar _ _ text => (0, text)
  | .sequence .. => (1, "")
  | .mapping .. => (2, "")
  | .reference _ name _ _ => (3, name)

/-- The keys that a mapping has twice, by the first of the two. -/
def repeatedKeys : List (Node × Node) → List Mismatch
  | [] => []
  | (k, _) :: rest =>
    (rest.filter fun (l, _) => keyOf l == keyOf k).map
        (fun (l, _) => .repeatedKey l.line (keyOf l).2 k.line) ++ repeatedKeys rest

/-- Notes the keys that a mapping has twice; tells whether there are none. -/
def checkKeys (entries : List (Node × Node)) : Decode Bool := do
  let found := repeatedKeys entries
  for m in found do Decode.note m
  return found.isEmpty

/-! ### Single values -/

/-- The text of a single value and what that stands for. None for nothing, and for a collection,
which is noted. -/
def scalarValue (type : String) (n : Node) : Decode (Option (String × Plain)) := do
  match n with
  | .scalar _ tag text =>
    let p ← plainValue tag text
    let text ← taggedText tag text
    return if p = .null then none else some (text, p)
  | .mapping _ _ entries =>
    if ← checkKeys entries then noteType n type
    return none
  | n =>
    noteType n type
    return none

/-- A text; numbers and truth values count as they are written. -/
def decodeText : Node → Decode (Option String) :=
  visit fun n => do return (← scalarValue "string" n).map (·.1)

/-- Words that count as true or false where a truth value is wanted. -/
def boolWord? (text : String) : Option Bool :=
  if ["y", "Y", "yes", "Yes", "YES", "on", "On", "ON"].contains text then some true
  else if ["n", "N", "no", "No", "NO", "off", "Off", "OFF"].contains text then some false
  else none

/-- A truth value. -/
def decodeBool : Node → Decode (Option Bool) :=
  visit fun n => do
    match ← scalarValue "bool" n with
    | none => return none
    | some (text, p) =>
      let value := match p with
        | .bool b => some b
        | .text => boolWord? text
        | _ => none
      if value.isNone then noteType n "bool"
      return value

/-- A whole number; a fraction is cut off. -/
def decodeInt : Node → Decode (Option Int) :=
  visit fun n => do
    match ← scalarValue "int" n with
    | none => return none
    | some (_, p) =>
      let value := match p with
        | .int v => if v < Binary.span 63 then some v else none
        | .float r => r.bind wordValue?
        | _ => none
      if value.isNone then noteType n "int"
      return value

/-! ### Values of any type -/

/-- Is the node the key under which other mappings are merged into a mapping? -/
def isMerge : Node → Bool
  | .scalar _ tag text => text == "<<" && tag == "!!merge"
  | _ => false

/-- A value of any type, as far as it can be told as a key. -/
inductive AnyValue where
  | text (s : String)
  | other
  | collection
deriving DecidableEq, Repr

/-- Puts a key among those that take precedence. A collection cannot be compared with them. -/
def noteMerged : AnyValue → Decode Unit
  | .text s => modify fun d => { d with merged := d.merged.map (s :: ·) }
  | .other => pure ()
  | .collection => throw .unusableKey

/-- Merges other mappings into one. Its own keys take precedence over theirs; they are read with
`readKey`, unless the mapping is merged into another one itself. A mapping that is merged is read
with `readMapping`. -/
def mergeInto {σ : Type} (readKey : Node → Decode (Option AnyValue))
    (readMapping : Node → σ → Decode σ) (entries : List (Node × Node)) (source : Node) (r : σ) :
    Decode σ := do
  let isOutermost := (← get).merged.isNone
  if isOutermost then
    modify fun d => { d with merged := some [] }
    for (k, _) in entries do
      match ← readKey k with
      | some v => noteMerged v
      | none => pure ()
  let mut r := r
  let sources := match source with
    | .sequence _ _ items => items
    | n => [n]
  let anchored := (← get).anchored
  for n in sources do
    match n.target anchored with
    | .mapping .. => r ← readMapping n r
    | _ => Decode.stop "map merge requires map or sequence of maps as the value"
  if isOutermost then modify fun d => { d with merged := none }
  return r

/-- The last mapping or sequence of mappings that is to be merged into a mapping. -/
def mergeSource? (entries : List (Node × Node)) : Option Node :=
  ((entries.filter fun (k, _) => isMerge k).getLast?).map (·.2)

/-- Is every key a text, or marks mappings to be merged? -/
def hasTextKeys (anchored : Array Node) (entries : List (Node × Node)) : Bool :=
  entries.all fun (k, _) => ["!!str", "!!merge"].contains (k.target anchored).tag

mutual

/-- Reads a node as a value of any type. None for a mapping with repeated keys. -/
def decodeAny : Nat → Node → Decode (Option AnyValue)
  | 0, _ => return none
  | fuel + 1, n => visit (fun n => do
      match n with
      | .scalar _ tag text =>
        let p ← plainValue tag text
        let text ← taggedText tag text
        return some (if p = .text then .text text else .other)
      | .sequence _ _ items =>
        for item in items do discard (decodeAny fuel item)
        return some .collection
      | .mapping _ _ entries =>
        if !(← checkKeys entries) then return none
        anyEntries fuel (hasTextKeys (← get).anchored entries) entries
        return some .collection
      | .reference .. => return none) n

/-- Reads the entries of a mapping as values of any type; `texts` tells whether its keys are
texts. -/
def anyEntries : Nat → Bool → List (Node × Node) → Decode Unit
  | 0, _, _ => return ()
  | fuel + 1, texts, entries => do
    let readKey (k : Node) : Decode (Option AnyValue) := do
      if texts then return (← decodeText k).map .text else decodeAny fuel k
    let mut seen := (← get).merged
    modify fun d => { d with merged := none }
    for (k, v) in entries do
      if !isMerge k then
        match ← readKey k with
        | none => pure ()
        | some .collection =>
          if seen.isSome then throw .unusableKey else Decode.stop "invalid map key"
        | some .other => discard (decodeAny fuel v)
        | some (.text s) =>
          if !((seen.map (·.contains s)).getD false) then
            seen := seen.map (s :: ·)
            discard (decodeAny fuel v)
    modify fun d => { d with merged := seen }
    match mergeSource? entries with
    | none => return ()
    | some source =>
      mergeInto (decodeAny fuel) (fun n _ => visit (fun n => do
        match n with
        | .mapping _ _ inner => if ← checkKeys inner then anyEntries fuel texts inner
        | _ => return ()) n) entries source ()

end

/-! ### Lists and records -/

/-- A list, whose elements that give no value are dropped. Nothing counts as the empty list. -/
def decodeList {α : Type} (type : String) (element : Node → Decode (Option α)) :
    Node → Decode (Option (List α)) :=
  visit fun n => do
    match n with
    | .sequence _ _ items => return some (← items.filterMapM element)
    | .scalar _ tag text =>
      if (← plainValue tag text) = .null then return some []
      else
        discard (taggedText tag text)
        noteType n type
        return none
    | .mapping _ _ entries =>
      if ← checkKeys entries then noteType n type
      return none
    | .reference .. => return none

/-- A field of a record: its name, and how its value changes the record. -/
structure Field (σ : Type) where
  name : String
  set : Node → σ → Decode σ

/-- The field that keeps the value of a reading; without a value the record stays as it is. -/
def Field.of {σ α : Type} (name : String) (read : Node → Decode (Option α))
    (keep : α → σ → σ) : Field σ where
  name
  set n r := do
    match ← read n with
    | some v => return keep v r
    | none => return r

/-- Reads the entries of a mapping into a record. `seen` holds the keys that take precedence over
merged mappings; it is none for a mapping that is not merged. `strict` tells whether unknown
fields are noted. -/
def decodeEntries {σ : Type} (strict : Bool) (type : String) (fields : List (Field σ)) :
    List (Node × Node) → Option (List String) → List String → σ →
      Decode (σ × Option (List String))
  | [], seen, _, r => return (r, seen)
  | (k, v) :: rest, seen, done, r => do
    let skip := decodeEntries strict type fields rest
    if isMerge k then skip seen done r
    else
      match ← decodeText k with
      | none => skip seen done r
      | some name =>
        if (seen.map (·.contains name)).getD false then skip seen done r
        else
          let seen := seen.map (name :: ·)
          match fields.find? (·.name == name) with
          | some f =>
            if done.contains name then
              Decode.note (.repeatedField k.line name type)
              skip seen done r
            else skip seen (name :: done) (← f.set v r)
          | none =>
            if strict then Decode.note (.unknownField k.line name type)
            skip seen done r

/-- Reads a mapping into a record, and after its own entries those of the mappings that are
merged into it; tells whether there is a value. `depth` bounds how deep merged mappings lie in each
other. -/
def decodeMapping {σ : Type} (strict : Bool) (type : String) (fields : List (Field σ)) :
    Nat → σ → Node → Decode (Bool × σ)
  | 0, r, _ => return (false, r)
  | depth + 1, r, n => visit (fun n => do
      match n with
      | .mapping _ _ entries =>
        if !(← checkKeys entries) then return (false, r)
        let seen := (← get).merged
        modify fun d => { d with merged := none }
        let (r, seen) ← decodeEntries strict type fields entries seen [] r
        modify fun d => { d with merged := seen }
        match mergeSource? entries with
        | none => return (true, r)
        | some source =>
          let readMapping (n : Node) (r : σ) : Decode σ := do
            return (← decodeMapping strict type fields depth r n).2
          return (true, ← mergeInto (decodeAny (← get).depth) readMapping entries source r)
      | .scalar _ tag text =>
        if (← plainValue tag text) != .null then
          discard (taggedText tag text)
          noteType n type
        return (false, r)
      | n =>
        noteType n type
        return (false, r)) n

/-- A record, which begins as `zero`. -/
def decodeRecord {σ : Type} (strict : Bool) (type : String) (zero : σ) (fields : List (Field σ))
    (n : Node) : Decode (Option σ) := do
  let (hasValue, r) ← decodeMapping strict type fields (← get).depth zero n
  return if hasValue then some r else none

/-! ### Documents -/

/-- The value of the first document of a byte string; none without a document, or when it is
empty. -/
def decodeDocument {α : Type} (read : Node → Decode (Option α)) (bytes : List UInt8) :
    Except Failure (Option α) := do
  match ← (Document.ofBytes? bytes).mapError .fault with
  | none => return none
  | some doc =>
    let start : Decoding :=
      { anchored := doc.anchored, depth := (doc.size + 2) * (doc.aliases + 2) }
    let run : Decode (Option α) := do
      countStep
      read doc.root
    let (value, d) ← run.run start
    if d.mismatches.isEmpty then return value else throw (.mismatches d.mismatches.reverse)

end ClassAudit.Yaml
