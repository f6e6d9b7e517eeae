import ClassAudit.Lint.Context
import ClassAudit.ClassFile.Descriptor

/-!
# Dependencies between classes

A class depends on another class of its package when one of its ordinary methods calls it, or
when one of its instance fields holds it. Classes that depend on each other in a circle form a
strongly connected component of the dependency graph.

## Main definitions

* `DependencyGraph` - a directed graph on names, without loops.
* `DependencyGraph.ofContext` - the dependencies inside a package.
* `DependencyGraph.components` - the strongly connected components with several nodes, each in
  the order in which a depth-first search discovers it.
* `DependencyGraph.cycleText` - a component in words.
-/

namespace ClassAudit

/-- A directed graph on names, without loops and multiple edges. -/
structure DependencyGraph where
  /-- Every node once. -/
  nodeList : List String := []
  /-- Every edge once; both ends are nodes. -/
  edgeList : List (String × String) := []
deriving DecidableEq, Repr, Inhabited

namespace DependencyGraph

/-! ### Building -/

/-- Adds a node. -/
def addNode (g : DependencyGraph) (name : String) : DependencyGraph :=
  if g.nodeList.contains name then g else { g with nodeList := g.nodeList ++ [name] }

/-- Adds an edge and its ends; an edge from a node to itself adds only the node. -/
def addEdge (g : DependencyGraph) (source target : String) : DependencyGraph :=
  let g := (g.addNode source).addNode target
  if source == target || g.edgeList.contains (source, target) then g
  else { g with edgeList := g.edgeList ++ [(source, target)] }

/-- The nodes in ascending order. -/
def nodes (g : DependencyGraph) : List String := Text.sorted g.nodeList

/-- The nodes that edges from a node lead to, in ascending order. -/
def neighbors (g : DependencyGraph) (name : String) : List String :=
  Text.sorted ((g.edgeList.filter (·.1 == name)).map (·.2))

/-- The names that a class refers to: owners of methods that its ordinary methods call, and types
of its instance fields. -/
def references (c : ClassModel) : List String :=
  let calls := (c.methods.filter (!·.isInitializer)).flatMap fun m =>
    m.code.elements.filterMap fun i => i.action.call?.map (·.2.owner)
  let held := (c.fields.filter (!·.access.isStatic)).filterMap fun f => objectType? f.desc
  calls ++ held

/-- Adds a class and its dependencies inside a package. -/
def addClass (ctx : PackageContext) (g : DependencyGraph) (c : ClassModel) : DependencyGraph :=
  ((references c).filter fun d => ctx.contains d && d != c.name).foldl
    (fun g d => g.addEdge c.name d) (g.addNode c.name)

/-- The dependencies inside a package. -/
def ofContext (ctx : PackageContext) : DependencyGraph := ctx.classes.foldl (addClass ctx) {}

/-! ### Components -/

/-- The state of the depth-first search for components. -/
structure Search where
  /-- The discovered nodes with their numbers, in ascending order from 0. -/
  discovered : List (String × Nat) := []
  /-- The discovered nodes that no component has taken, newest first. -/
  stack : List String := []
  /-- The components found, in the order in which they were completed. -/
  found : List (List String) := []

/-- The state after discovering a node. -/
def Search.discover (s : Search) (v : String) : Search :=
  { s with
    discovered := s.discovered ++ [(v, s.discovered.length)]
    stack := v :: s.stack }

/-- The state after completing the component of `v`, which has taken everything on the stack down
to `v`. A single node is no cycle. -/
def Search.complete (s : Search) (v : String) : Search :=
  let taken := s.stack.takeWhile (· != v) ++ [v]
  { s with
    stack := (s.stack.dropWhile (· != v)).drop 1
    found := if taken.length > 1 then s.found ++ [taken.reverse] else s.found }

/-- Discovers `v` and everything undiscovered that it reaches, to a depth of `fuel` nodes. The
result comes with the lowest number of a node on the stack that was met on the way. A node that
meets no lower number than its own completes a component. -/
def visit (g : DependencyGraph) : Nat → String → Search → Nat × Search
  | 0, _, s => (s.discovered.length, s)
  | fuel + 1, v, s =>
    let number := s.discovered.length
    let (low, s) := (g.neighbors v).foldl
      (fun (low, s) w =>
        match s.discovered.lookup w with
        | none =>
          let (lowest, s) := visit g fuel w s
          (min low lowest, s)
        | some n => (if s.stack.contains w then min low n else low, s))
      (number, s.discover v)
    if low = number then (low, s.complete v) else (low, s)

/-- The strongly connected components with several nodes. Nodes and neighbors are visited in
ascending order. A search never gets deeper than there are nodes. -/
def components (g : DependencyGraph) : List (List String) :=
  (g.nodes.foldl
    (fun s v =>
      match s.discovered.lookup v with
      | none => (visit g g.nodeList.length v s).2
      | some _ => s)
    ({} : Search)).found

/-! ### Text -/

/-- The longest dotted name, in bytes, that is shown in full. -/
def maxShown : Nat := 40

/-- The name of a class as a report of a cycle shows it: dotted, or without its package when that
is too long. -/
def displayName (name : String) : String :=
  let dotted := dottedName name
  if Text.byteLength dotted.toList ≤ maxShown then dotted
  else match Text.cutAt (· == '.') dotted.toList.reverse with
    | some (last, rest) => if rest.isEmpty then dotted else String.ofList last.reverse
    | none => dotted

/-- A cycle in words. -/
def cycleText (cycle : List String) : String :=
  Text.joinWith " <-> " (cycle.map displayName)

end DependencyGraph

end ClassAudit
