import ClassAudit.Yaml.Event
import ClassAudit.Yaml.Resolve

/-!
# YAML documents

A document is a tree of texts, sequences and mappings. An alias stands for the node that an anchor
marks, which may be a node around it: the nodes with anchors are kept in a table, and an alias
holds a number in that table.

## Main definitions

* `Yaml.Node` - a node of a document; `Yaml.Document` - a document with its table.
* `Yaml.Builder` - the state of building a tree from events.
* `Yaml.Document.ofBytes?` - the first document of a byte string.
-/

namespace ClassAudit.Yaml

/-- A node of a document, with the line that it begins on, counted from one, and its tag. -/
inductive Node where
  | scalar (line : Nat) (tag : String) (text : String)
  | sequence (line : Nat) (tag : String) (items : List Node)
  | mapping (line : Nat) (tag : String) (entries : List (Node × Node))
  /-- An alias: its name, its number among the aliases, and the number of the node that it stands
  for. -/
  | reference (line : Nat) (name : String) (number target : Nat)
deriving Repr, Inhabited

/-- The line that a node begins on. -/
def Node.line : Node → Nat
  | scalar line .. => line
  | sequence line .. => line
  | mapping line .. => line
  | reference line .. => line

/-- The tag of a node; an alias has none. -/
def Node.tag : Node → String
  | scalar _ tag _ => tag
  | sequence _ tag _ => tag
  | mapping _ tag _ => tag
  | reference .. => ""

/-- The node that a node stands for. -/
def Node.target (anchored : Array Node) : Node → Node
  | .reference _ _ _ target => anchored.getD target default
  | n => n

/-- The first document of a text. -/
structure Document where
  root : Node
  /-- The nodes with anchors. -/
  anchored : Array Node := #[]
  /-- The number of aliases. -/
  aliases : Nat := 0
  /-- The number of all nodes. -/
  size : Nat := 0
deriving Repr, Inhabited

/-! ### Tags -/

/-- The short form of a tag. -/
def shortTag (tag : String) : String :=
  if Text.startsWith tag longTagStart then
    "!!" ++ String.ofList (tag.toList.drop longTagStart.length)
  else tag

/-- The tag of a scalar: the given one, the tag of a text for marked texts, and otherwise the tag
of what the text stands for. -/
def scalarTag (given : String) (isPlain : Bool) (text : String) : String :=
  if given != "" && given != "!" then shortTag given
  else if !isPlain then "!!str"
  else if text == "<<" then "!!merge"
  else (resolve true text).tag

/-- The tag of a collection: the given one, or a standard one. -/
def collectionTag (given standard : String) : String :=
  if given != "" && given != "!" then shortTag given else standard

/-! ### Building -/

/-- A collection that is being built. -/
structure OpenNode where
  isMapping : Bool
  line : Nat
  tag : String
  /-- Its number among the nodes with anchors. -/
  anchor : Option Nat
  /-- The nodes in it, newest first; keys and values of a mapping take turns. -/
  children : List Node := []
deriving Repr, Inhabited

/-- Keys and values that take turns, as pairs. -/
def pairs : List Node → List (Node × Node)
  | k :: v :: rest => (k, v) :: pairs rest
  | _ => []

/-- The finished collection. -/
def OpenNode.close (o : OpenNode) : Node :=
  if o.isMapping then .mapping o.line o.tag (pairs o.children.reverse)
  else .sequence o.line o.tag o.children.reverse

/-- The state of building a tree. -/
structure Builder where
  /-- The collections around the next node, innermost first. -/
  stack : List OpenNode := []
  /-- The numbers of nodes by the names of their anchors, newest first. -/
  names : List (String × Nat) := []
  /-- The nodes with anchors. -/
  anchored : Array Node := #[]
  aliases : Nat := 0
  size : Nat := 0
  /-- The whole tree, when it is finished. -/
  root : Option Node := none
deriving Repr, Inhabited

namespace Builder

/-- Gives a number to a node with an anchor. -/
def noteAnchor (b : Builder) (name : String) : Option Nat × Builder :=
  if name == "" then (none, b)
  else
    let number := b.anchored.size
    (some number,
      { b with names := (name, number) :: b.names, anchored := b.anchored.push default })

/-- Completes a node: it goes into the table, if it has an anchor, and into the collection around
it. -/
def place (b : Builder) (anchor : Option Nat) (n : Node) : Builder :=
  let b := match anchor with
    | some number => { b with anchored := b.anchored.setIfInBounds number n }
    | none => b
  let b := { b with size := b.size + 1 }
  match b.stack with
  | [] => { b with root := some n }
  | o :: outer => { b with stack := { o with children := n :: o.children } :: outer }

/-- Begins a collection. -/
def begin (b : Builder) (isMapping : Bool) (line : Nat) (anchor tag : String) : Builder :=
  let (anchor, b) := b.noteAnchor anchor
  { b with stack := { isMapping, line, tag, anchor } :: b.stack }

/-- Adds what an event says. -/
def add (b : Builder) : Event → Except Fault Builder
  | .scalar line anchor tag text isPlain =>
    let (number, b) := b.noteAnchor anchor
    .ok (b.place number (.scalar line (scalarTag tag isPlain text) text))
  | .reference line name =>
    match b.names.lookup name with
    | some target =>
      .ok ({ b with aliases := b.aliases + 1 }.place none (.reference line name b.aliases target))
    | none => .error { problem := "unknown anchor '" ++ name ++ "' referenced" }
  | .sequenceStart line anchor tag => .ok (b.begin false line anchor (collectionTag tag "!!seq"))
  | .mappingStart line anchor tag => .ok (b.begin true line anchor (collectionTag tag "!!map"))
  | .collectionEnd =>
    match b.stack with
    | o :: outer => .ok ({ b with stack := outer }.place o.anchor o.close)
    | [] => .ok b
  | .streamEnd => .ok b
  | .documentEnd => .ok b

/-- The finished document. -/
def document? (b : Builder) : Option Document :=
  b.root.map fun root =>
    { root, anchored := b.anchored, aliases := b.aliases, size := b.size }

/-- Builds the first document. -/
def run : Nat → Grammar → Builder → Except Fault (Option Document)
  | 0, _, b => .ok b.document?
  | fuel + 1, g, b => do
    let (e, g) ← Grammar.next.run g
    match e with
    | .streamEnd => return none
    | .documentEnd => return b.document?
    | e => run fuel g (← b.add e)

end Builder

/-- The first document of a byte string; none when there is none. Every character gives at most four
tokens, and every token at most three events. -/
def Document.ofBytes? (bytes : List UInt8) : Except Fault (Option Document) :=
  let scanner := Scanner.ofBytes bytes
  Builder.run (16 * (scanner.cursor.size + 4)) { scanner } {}

end ClassAudit.Yaml
