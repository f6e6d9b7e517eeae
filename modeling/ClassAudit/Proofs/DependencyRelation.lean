import ClassAudit.Detectors.CyclicDependency
import ClassAudit.Proofs.DescriptorBytes
import ClassAudit.Proofs.Ordering
import ClassAudit.Proofs.StoredMembers
import ClassAudit.Proofs.StrongComponents

/-!
# The dependency relation of a package

What it means that a class depends on another is said here without a graph. The graph of a package
is that relation between its classes, whichever of them comes first, so the circles found in it do
not depend on the order either.

## Main definitions

* `ClassModel.DependsOn` - a class refers to a name.
* `DependencyGraph.changesOf` - the steps by which a class enters the graph of its package.

## Main statements

* `DependencyGraph.leads_ofContext` - the edges of the graph of a package.
* `DependencyGraph.components_congr` - components depend on the nodes and the neighbors only.
* `DependencyGraph.ofContext_dependsOn` - the graph of a package is its dependency relation, and
  its circles are the same in every order.
-/

namespace ClassAudit

/-! ### The relation -/

/-- The class refers to `name`: one of its methods, no initializer, calls a method that `name` owns,
or one of its instance fields holds a `name`. -/
def ClassModel.DependsOn (a : ClassModel) (name : String) : Prop :=
  (∃ m ∈ a.methods, m.name ≠ "<init>" ∧ m.name ≠ "<clinit>" ∧
    ∃ i ∈ m.code.elements, i.kind = .invoke ∧ i.action.owner = name) ∨
  ∃ f ∈ a.fields, f.access.isStatic = false ∧ f.desc = "L" ++ name ++ ";"

/-- A name is called by an action exactly if the action is a call of a method that it owns. -/
theorem Action.owner_of_call? {a : Action} {name : String} :
    a.call?.map (·.2.owner) = some name ↔ a.kind = .invoke ∧ a.owner = name := by
  cases a with
  | invoke kind target => simp [call?, Action.kind, owner]
  | field access target => cases access <;> simp [call?, Action.kind]
  | _ => simp [call?, Action.kind]

/-- The fields of an accepted class have valid descriptors. -/
theorem ClassModel.validFieldDescriptor_of_parse {data : List UInt8} {c : ClassModel}
    (h : parse data = .ok c) {f : FieldModel} (hf : f ∈ c.fields) :
    validFieldDescriptor f.desc := by
  obtain ⟨stored, -, hmembers⟩ := exists_stored h
  obtain ⟨n, hn⟩ := List.getElem?_of_mem hf
  obtain ⟨info, -, hinfo⟩ := exists_getElem?_of_forall₂ hmembers.fields hn
  exact hinfo.valid

theorem PackageContext.contains_iff {ctx : PackageContext} {name : String} :
    ctx.contains name ↔ ∃ c ∈ ctx.classes, c.name = name := by
  rw [contains, lookup?, List.find?_isSome]
  simp only [beq_iff_eq]

namespace DependencyGraph

/-- The references of an accepted class are what it depends on. -/
theorem mem_references {data : List UInt8} {c : ClassModel} (h : ClassModel.parse data = .ok c)
    {name : String} : name ∈ references c ↔ c.DependsOn name := by
  have hheld (f : FieldModel) (hf : f ∈ c.fields) :
      objectType? f.desc = some name ↔ f.desc = "L" ++ name ++ ";" := by
    rw [objectType?_eq_some_iff, and_iff_right_iff_imp]
    rintro hdesc rfl
    have hvalid := ClassModel.validFieldDescriptor_of_parse h hf
    rw [hdesc, validFieldDescriptor_eq] at hvalid
    exact absurd hvalid (by decide)
  rw [references, ClassModel.DependsOn, List.mem_append]
  refine or_congr ?_ ?_
  · simp only [List.mem_flatMap, List.mem_filter, List.mem_filterMap, Bool.not_eq_true',
      MethodModel.isInitializer_eq_false_iff, and_assoc,
      Action.owner_of_call?]
    rfl
  · simp only [List.mem_filterMap, List.mem_filter, Bool.not_eq_true', and_assoc]
    refine exists_congr fun f => and_congr_right fun hf => and_congr_right fun _ => hheld f hf

/-! ### The graph of a package -/

/-- The steps by which a class enters the graph of its package. -/
def changesOf (ctx : PackageContext) (c : ClassModel) : List Change :=
  .node c.name ::
    ((references c).filter fun d => ctx.contains d && d != c.name).map (.edge c.name)

theorem ofContext_eq_build (ctx : PackageContext) :
    ofContext ctx = build (ctx.classes.flatMap (changesOf ctx)) := by
  rw [ofContext, build, List.foldl_flatMap]
  congr 1
  funext g c
  rw [addClass, changesOf, List.foldl_cons, List.foldl_map]
  rfl

theorem mem_nodeList_of_node {changes : List Change} {n : String} (h : Change.node n ∈ changes) :
    n ∈ (build changes).nodeList := by
  have hkept (g : DependencyGraph) (c : Change) (hn : n ∈ g.nodeList) :
      n ∈ (g.change c).nodeList := by
    cases c with
    | node name => exact mem_addNode.mpr (.inl hn)
    | edge source target => exact mem_addEdge.mpr (.inl hn)
  obtain ⟨before, after, rfl⟩ := List.append_of_mem h
  rw [build, List.foldl_append, List.foldl_cons]
  refine List.foldlRecOn (motive := fun g : DependencyGraph => n ∈ g.nodeList) after change
    (mem_addNode.mpr (.inr rfl)) ?_
  exact fun g hn c _ => hkept g c hn

/-- Nothing is listed twice. -/
structure Distinct (g : DependencyGraph) : Prop where
  nodes : g.nodeList.Nodup
  edges : g.edgeList.Nodup

theorem Distinct.addNode {g : DependencyGraph} (h : g.Distinct) (name : String) :
    (g.addNode name).Distinct := by
  rw [DependencyGraph.addNode]
  split
  · exact h
  · rename_i hnew
    rw [List.contains_iff_mem] at hnew
    exact ⟨List.concat_eq_append ▸ h.nodes.concat hnew, h.edges⟩

theorem Distinct.addEdge {g : DependencyGraph} (h : g.Distinct) (source target : String) :
    (g.addEdge source target).Distinct := by
  have hends := (h.addNode source).addNode target
  rw [DependencyGraph.addEdge]
  split
  · exact hends
  · rename_i hnew
    rw [Bool.or_eq_true, not_or, List.contains_iff_mem] at hnew
    exact ⟨hends.nodes, List.concat_eq_append ▸ hends.edges.concat hnew.2⟩

theorem distinct_build (changes : List Change) : (build changes).Distinct := by
  refine List.foldlRecOn (motive := Distinct) changes change ⟨.nil, .nil⟩ ?_
  intro g hg c _
  cases c with
  | node name => exact hg.addNode name
  | edge source target => exact hg.addEdge source target

theorem distinct_ofContext (ctx : PackageContext) : (ofContext ctx).Distinct :=
  ofContext_eq_build ctx ▸ distinct_build _

theorem Distinct.pairwise_nodes {g : DependencyGraph} (h : g.Distinct) :
    g.nodes.Pairwise (· < ·) :=
  Text.pairwise_sorted_of_nodup h.nodes

theorem Distinct.pairwise_neighbors {g : DependencyGraph} (h : g.Distinct) (name : String) :
    (g.neighbors name).Pairwise (· < ·) := by
  refine Text.pairwise_sorted_of_nodup ((h.edges.filter _).map_on ?_)
  rintro ⟨v, w⟩ he ⟨v', w'⟩ he' (rfl : w = w')
  obtain ⟨-, hv⟩ := List.mem_filter.mp he
  obtain ⟨-, hv'⟩ := List.mem_filter.mp he'
  exact congrArg (·, w) ((beq_iff_eq.mp hv).trans (beq_iff_eq.mp hv').symm)

theorem edge_mem_changesOf {ctx : PackageContext} {c : ClassModel} {v w : String} :
    Change.edge v w ∈ changesOf ctx c ↔
      c.name = v ∧ w ∈ references c ∧ (∃ d ∈ ctx.classes, d.name = w) ∧ w ≠ v := by
  rw [changesOf, List.mem_cons, List.mem_map]
  simp only [reduceCtorEq, false_or, Change.edge.injEq, List.mem_filter, Bool.and_eq_true,
    PackageContext.contains_iff, bne_iff_ne]
  constructor
  · rintro ⟨d, ⟨hrefer, hknown, hne⟩, rfl, rfl⟩
    exact ⟨rfl, hrefer, hknown, hne⟩
  · rintro ⟨rfl, hrefer, hknown, hne⟩
    exact ⟨w, ⟨hrefer, hknown, hne⟩, rfl, rfl⟩

/-- The edges of the graph of a package. -/
theorem leads_ofContext {ctx : PackageContext} {v w : String} :
    (ofContext ctx).Leads v w ↔ ∃ c ∈ ctx.classes,
      c.name = v ∧ w ∈ references c ∧ (∃ d ∈ ctx.classes, d.name = w) ∧ w ≠ v := by
  rw [leads_iff, ofContext_eq_build, mem_edgeList_build, List.mem_flatMap]
  simp only [edge_mem_changesOf]
  refine and_iff_left_of_imp ?_
  rintro ⟨c, -, -, -, -, hne⟩
  exact hne.symm

/-- The nodes of the graph of a package. -/
theorem mem_nodes_ofContext {ctx : PackageContext} {n : String} :
    n ∈ (ofContext ctx).nodes ↔ ∃ c ∈ ctx.classes, c.name = n := by
  rw [mem_nodes]
  constructor
  · intro hn
    exact List.mem_map.mp ((closed_ofContext ctx).2 hn)
  · rintro ⟨c, hc, rfl⟩
    rw [ofContext_eq_build]
    exact mem_nodeList_of_node (List.mem_flatMap.mpr ⟨c, hc, List.mem_cons_self⟩)

/-! ### The order of the classes -/

/-- Components depend on the nodes and the neighbors only. -/
theorem components_congr {g g' : DependencyGraph} (hnodes : g.nodes = g'.nodes)
    (hneighbors : ∀ v, g.neighbors v = g'.neighbors v) : g.components = g'.components := by
  have hvisit (fuel : Nat) (v : String) (s : Search) : g.visit fuel v s = g'.visit fuel v s := by
    induction fuel generalizing v s with
    | zero => rfl
    | succ fuel ih =>
        have hadvance : g.advance fuel = g'.advance fuel := by
          funext p w
          simp only [advance, ih]
        rw [visit_succ, visit_succ, hneighbors, hadvance]
  have hlength : g.nodeList.length = g'.nodeList.length := by
    simpa [nodes, Text.sorted] using congrArg List.length hnodes
  have hadvance : g.advance g.nodeList.length = g'.advance g'.nodeList.length := by
    funext p w
    simp only [advance, hvisit, hlength]
  rw [components_eq, components_eq, hnodes, hadvance]

/-- The circles of a package are the same in every order of its classes. -/
theorem components_perm {ctx order : PackageContext} (h : order.classes.Perm ctx.classes) :
    (ofContext order).components = (ofContext ctx).components := by
  refine components_congr ?_ fun v => ?_
  · refine (distinct_ofContext order).pairwise_nodes.eq_of_mem_iff
      (distinct_ofContext ctx).pairwise_nodes fun n => ?_
    simp only [mem_nodes_ofContext, h.mem_iff]
  · refine ((distinct_ofContext order).pairwise_neighbors v).eq_of_mem_iff
      ((distinct_ofContext ctx).pairwise_neighbors v) fun w => ?_
    rw [← Leads, ← Leads, leads_ofContext, leads_ofContext]
    simp only [h.mem_iff]

/-- **The graph of a package is its dependency relation, in whatever order its classes come.** Its
nodes are the names of the classes, and its edges lead from each class to the other classes that it
depends on, in ascending order. The circles found in it are the same for every class that is asked
about and in every order. -/
theorem ofContext_dependsOn {ctx order : PackageContext}
    (hparsed : ∀ c ∈ ctx.classes, ∃ data, ClassModel.parse data = .ok c)
    (hkeys : (ctx.classes.map (·.name)).Nodup) (horder : order.classes.Perm ctx.classes) :
    (ofContext order).nodes.Pairwise (· < ·) ∧
    (∀ n, n ∈ (ofContext order).nodes ↔ ∃ c ∈ ctx.classes, c.name = n) ∧
    (∀ a ∈ ctx.classes,
      ((ofContext order).neighbors a.name).Pairwise (· < ·) ∧
      ∀ b, b ∈ (ofContext order).neighbors a.name ↔
        (∃ c ∈ ctx.classes, c.name = b) ∧ b ≠ a.name ∧ a.DependsOn b) ∧
    ∀ target ∈ ctx.classes, ∀ target' ∈ ctx.classes,
      (CyclicDependency.linter target order).findings =
        (CyclicDependency.linter target' ctx).findings := by
  refine ⟨(distinct_ofContext order).pairwise_nodes, fun n => ?_, fun a ha => ⟨?_, fun b => ?_⟩, ?_⟩
  · simp only [mem_nodes_ofContext, horder.mem_iff]
  · exact (distinct_ofContext order).pairwise_neighbors a.name
  · obtain ⟨data, hdata⟩ := hparsed a ha
    rw [← Leads, leads_ofContext, ← mem_references hdata]
    simp only [horder.mem_iff]
    constructor
    · rintro ⟨c, hc, hname, hrefer, hknown, hne⟩
      obtain rfl : c = a := List.inj_on_of_nodup_map hkeys hc ha hname
      exact ⟨hknown, hne, hrefer⟩
    · rintro ⟨hknown, hne, hrefer⟩
      exact ⟨a, ha, rfl, hrefer, hknown, hne⟩
  · intro _ _ _ _
    have hsame := components_perm horder
    simp only [CyclicDependency.linter, hsame]

/-- A class with one field, which holds another class. -/
def holder (name held : String) : ClassModel :=
  { name, access := ⟨0x21⟩, fields := [⟨"f", "L" ++ held ++ ";", ⟨2⟩⟩], major := 52 }

/-- The class file of a class whose name is one letter, with one field, which holds a class whose
name is one letter. -/
def holderFile (name held : UInt8) : List UInt8 :=
  [0xca, 0xfe, 0xba, 0xbe, 0, 0, 0, 52, 0, 5,
    1, 0, 1, name, 7, 0, 1, 1, 0, 1, 0x66, 1, 0, 3, 0x4c, held, 0x3b,
    0, 0x21, 0, 2, 0, 0, 0, 0, 0, 1, 0, 2, 0, 3, 0, 4, 0, 0, 0, 0, 0, 0]

/-- Two classes that hold each other. -/
def holders : PackageContext := ⟨[holder "A" "B", holder "B" "A"]⟩

/-- The two classes are a circle, which is told alike in either order. -/
theorem holders_dependsOn :
    "B" ∈ (ofContext ⟨holders.classes.reverse⟩).neighbors "A" ∧
    "A" ∈ (ofContext ⟨holders.classes.reverse⟩).neighbors "B" ∧
    (CyclicDependency.linter (holder "A" "B") ⟨holders.classes.reverse⟩).findings =
      (CyclicDependency.linter (holder "B" "A") holders).findings := by
  have hparsed : ∀ c ∈ holders.classes, ∃ data, ClassModel.parse data = .ok c := by
    intro c hc
    obtain rfl | hc := List.mem_cons.mp hc
    · exact ⟨holderFile 0x41 0x42, by decide +kernel⟩
    · obtain rfl := List.mem_singleton.mp hc
      exact ⟨holderFile 0x42 0x41, by decide +kernel⟩
  have hA : holder "A" "B" ∈ holders.classes := List.mem_cons_self
  have hB : holder "B" "A" ∈ holders.classes := List.mem_cons_of_mem _ List.mem_cons_self
  obtain ⟨-, -, hneighbors, hfindings⟩ := @ofContext_dependsOn holders ⟨holders.classes.reverse⟩
    hparsed (by decide) (List.reverse_perm _)
  refine ⟨?_, ?_, hfindings _ hA _ hB⟩
  · exact ((hneighbors _ hA).2 "B").mpr
      ⟨⟨_, hB, rfl⟩, by decide, .inr ⟨_, List.mem_singleton_self _, rfl, rfl⟩⟩
  · exact ((hneighbors _ hB).2 "A").mpr
      ⟨⟨_, hA, rfl⟩, by decide, .inr ⟨_, List.mem_singleton_self _, rfl, rfl⟩⟩

end DependencyGraph

end ClassAudit
