import ClassAudit.Detectors.DependencyGraph
import Mathlib.Data.List.Basic

/-!
# The nodes of dependency graphs

The dependencies inside a package are between its classes, and so are the circles that are found
among them.

## Main definitions

* `DependencyGraph.Closed` - edges run between nodes.
* `DependencyGraph.Search.Inside` - a search that has met nothing but nodes.

## Main statements

* `DependencyGraph.closed_ofContext` - the dependencies inside a package are between its classes.
* `DependencyGraph.Search.Inside.visit` - a search stays among the nodes.
* `DependencyGraph.Closed.mem_components` - components consist of nodes.
-/

namespace ClassAudit

/-- A name that a context knows is the name of one of its classes. -/
theorem PackageContext.mem_of_contains {ctx : PackageContext} {name : String}
    (h : ctx.contains name) : name ∈ ctx.classes.map (·.name) := by
  obtain ⟨c, hc⟩ := Option.isSome_iff_exists.mp h
  have hname := List.find?_some (p := fun d : ClassModel => d.name == name) hc
  exact List.mem_map.mpr ⟨c, List.mem_of_find?_eq_some hc, eq_of_beq hname⟩

namespace DependencyGraph

/-! ### Building -/

/-- Edges run between nodes. -/
def Closed (g : DependencyGraph) : Prop :=
  ∀ e ∈ g.edgeList, e.1 ∈ g.nodeList ∧ e.2 ∈ g.nodeList

theorem mem_addNode {g : DependencyGraph} {name n : String} :
    n ∈ (g.addNode name).nodeList ↔ n ∈ g.nodeList ∨ n = name := by
  rw [addNode]
  split
  · rename_i h
    rw [List.contains_iff_mem] at h
    exact ⟨.inl, fun hn => hn.elim id fun hn => hn ▸ h⟩
  · rw [List.mem_append, List.mem_singleton]

theorem edgeList_addNode (g : DependencyGraph) (name : String) :
    (g.addNode name).edgeList = g.edgeList := by
  rw [addNode]
  split <;> rfl

theorem mem_addEdge {g : DependencyGraph} {source target n : String} :
    n ∈ (g.addEdge source target).nodeList ↔ n ∈ g.nodeList ∨ n = source ∨ n = target := by
  have hends : n ∈ ((g.addNode source).addNode target).nodeList ↔
      n ∈ g.nodeList ∨ n = source ∨ n = target := by
    rw [mem_addNode, mem_addNode, or_assoc]
  rw [addEdge]
  split
  · exact hends
  · exact hends

theorem Closed.addNode {g : DependencyGraph} (h : g.Closed) (name : String) :
    (g.addNode name).Closed := by
  intro e he
  rw [edgeList_addNode] at he
  exact (h e he).imp (mem_addNode.mpr <| .inl ·) (mem_addNode.mpr <| .inl ·)

theorem Closed.addEdge {g : DependencyGraph} (h : g.Closed) (source target : String) :
    (g.addEdge source target).Closed := by
  have hends := (h.addNode source).addNode target
  rw [DependencyGraph.addEdge]
  split
  · exact hends
  · intro e he
    obtain he | he := List.mem_append.mp he
    · exact hends e he
    · obtain rfl := List.mem_singleton.mp he
      exact ⟨mem_addNode.mpr (.inl (mem_addNode.mpr (.inr rfl))), mem_addNode.mpr (.inr rfl)⟩

/-- The dependencies inside a package are between its classes. -/
theorem closed_ofContext (ctx : PackageContext) :
    (ofContext ctx).Closed ∧ (ofContext ctx).nodeList ⊆ ctx.classes.map (·.name) := by
  let Inside (g : DependencyGraph) : Prop := g.Closed ∧ g.nodeList ⊆ ctx.classes.map (·.name)
  refine List.foldlRecOn (motive := Inside) ctx.classes (addClass ctx) ⟨?_, ?_⟩ ?_
  · exact fun e he => nomatch he
  · exact fun n hn => nomatch hn
  rintro g ⟨hclosed, hnodes⟩ c hc
  have hname : c.name ∈ ctx.classes.map (·.name) := List.mem_map_of_mem hc
  refine List.foldlRecOn (motive := Inside) _ _ ⟨hclosed.addNode c.name, ?_⟩ ?_
  · intro n hn
    obtain hn | rfl := mem_addNode.mp hn
    · exact hnodes hn
    · exact hname
  · rintro g ⟨hclosed, hnodes⟩ d hd
    refine ⟨hclosed.addEdge c.name d, fun n hn => ?_⟩
    rw [List.mem_filter, Bool.and_eq_true] at hd
    obtain hn | rfl | rfl := mem_addEdge.mp hn
    · exact hnodes hn
    · exact hname
    · exact PackageContext.mem_of_contains hd.2.1

/-! ### Components -/

theorem mem_nodes {g : DependencyGraph} {n : String} : n ∈ g.nodes ↔ n ∈ g.nodeList := by
  rw [nodes, Text.sorted, List.mem_mergeSort]

theorem Closed.mem_of_neighbor {g : DependencyGraph} (h : g.Closed) {v w : String}
    (hw : w ∈ g.neighbors v) : w ∈ g.nodeList := by
  rw [neighbors, Text.sorted, List.mem_mergeSort] at hw
  obtain ⟨e, he, rfl⟩ := List.mem_map.mp hw
  exact (h e (List.mem_filter.mp he).1).2

/-- The search has met nothing but nodes. -/
structure Search.Inside (g : DependencyGraph) (s : Search) : Prop where
  stack : s.stack ⊆ g.nodeList
  found : ∀ cycle ∈ s.found, cycle ≠ [] ∧ cycle ⊆ g.nodeList

namespace Search.Inside

variable {g : DependencyGraph} {s : Search} {v : String}

theorem discover (hs : s.Inside g) (hv : v ∈ g.nodeList) : (s.discover v).Inside g :=
  ⟨List.cons_subset.mpr ⟨hv, hs.stack⟩, hs.found⟩

theorem complete (hs : s.Inside g) (hv : v ∈ g.nodeList) : (s.complete v).Inside g := by
  have htaken : s.stack.takeWhile (· != v) ++ [v] ⊆ g.nodeList :=
    List.append_subset.mpr ⟨fun n hn => hs.stack (List.takeWhile_subset _ hn),
      List.cons_subset.mpr ⟨hv, List.nil_subset _⟩⟩
  refine ⟨fun n hn => hs.stack (List.dropWhile_subset _ (List.drop_subset _ _ hn)), ?_⟩
  intro cycle hcycle
  simp only [Search.complete] at hcycle
  split at hcycle
  · obtain hcycle | hcycle := List.mem_append.mp hcycle
    · exact hs.found cycle hcycle
    · obtain rfl := List.mem_singleton.mp hcycle
      exact ⟨by simp, fun n hn => htaken (List.mem_reverse.mp hn)⟩
  · exact hs.found cycle hcycle

/-- A search stays among the nodes. -/
theorem visit (hg : g.Closed) (hs : s.Inside g) (hv : v ∈ g.nodeList) (fuel : Nat) :
    (g.visit fuel v s).2.Inside g := by
  induction fuel generalizing s v with
  | zero => exact hs
  | succ fuel ih =>
      have hlast (p : Nat × Search) (hp : p.2.Inside g) :
          (if p.1 = s.discovered.length then (p.1, p.2.complete v) else p).2.Inside g := by
        split
        · exact hp.complete hv
        · exact hp
      -- the neighbors are visited in turn, and each leaves the search among the nodes
      refine hlast _ (List.foldlRecOn (motive := fun p : Nat × Search => p.2.Inside g) _ _
        (hs.discover hv) ?_)
      rintro ⟨low, s⟩ hs w hw
      dsimp only
      split
      · exact ih hs (hg.mem_of_neighbor hw)
      · exact hs

end Search.Inside

/-- Components consist of nodes. -/
theorem Closed.mem_components {g : DependencyGraph} (h : g.Closed) {cycle : List String}
    (hcycle : cycle ∈ g.components) : cycle ≠ [] ∧ cycle ⊆ g.nodeList := by
  have hstart : ({} : Search).Inside g :=
    ⟨List.nil_subset _, fun cycle hcycle => absurd hcycle List.not_mem_nil⟩
  refine (List.foldlRecOn (motive := Search.Inside g) g.nodes _ hstart ?_).found cycle hcycle
  intro s hs v hv
  split
  · exact hs.visit h (mem_nodes.mp hv) _
  · exact hs

end DependencyGraph

end ClassAudit
