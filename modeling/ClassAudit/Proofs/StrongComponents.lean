import ClassAudit.Proofs.SearchRuns
import Mathlib

/-!
# Strongly connected components

Two nodes of a graph belong together if each can be reached from the other. The search for
components finds exactly the groups of several nodes that belong together.

The argument is an invariant over the nodes of the path that the search is on. Everything on the
stack can be reached from what lies below it and reaches some node of the path; everything that was
taken off the stack leads only to what was taken off before. A node whose search meets no lower
number than its own therefore finds its whole component above it on the stack.

## Main definitions

* `DependencyGraph.Reaches`, `DependencyGraph.Mutual` - reachability along edges, in one direction
  and in both.
* `DependencyGraph.IsComponent` - several nodes that belong together, and all of them.
* `DependencyGraph.Search.Sound` - the invariant.
* `DependencyGraph.Search.Scanned` - what the lowest number says after a list of names was searched.

## Main statements

* `DependencyGraph.Search.Traversed.isComponent` - a node that meets no lower number than its own
  has its component above it on the stack.
* `DependencyGraph.Scans.sound` - runs keep the invariant.
* `DependencyGraph.components_build` - the components of a graph are its strongly connected
  components.
* `DependencyGraph.components_reverse_topological` - a component comes after those that it reaches.
-/

namespace ClassAudit.DependencyGraph

/-! ### Reachability -/

/-- An edge leads from `v` to `w`. -/
def Leads (g : DependencyGraph) (v w : String) : Prop := w ∈ g.neighbors v

/-- There is a path from one node to another. -/
def Reaches (g : DependencyGraph) : String → String → Prop := Relation.ReflTransGen g.Leads

/-- Each of two nodes is reachable from the other. -/
def Mutual (g : DependencyGraph) (v w : String) : Prop := g.Reaches v w ∧ g.Reaches w v

/-- Several nodes that are reachable from each other, and all of them. -/
structure IsComponent (g : DependencyGraph) (c : List String) : Prop where
  several : 2 ≤ c.length
  nodup : c.Nodup
  mem_iff : ∀ v ∈ c, ∀ w, w ∈ c ↔ g.Mutual v w

variable {g : DependencyGraph}

theorem Reaches.trans {u v w : String} (h : g.Reaches u v) (h' : g.Reaches v w) : g.Reaches u w :=
  Relation.ReflTransGen.trans h h'

theorem Leads.reaches {v w : String} (h : g.Leads v w) : g.Reaches v w :=
  Relation.ReflTransGen.single h

theorem Mutual.symm {v w : String} (h : g.Mutual v w) : g.Mutual w v := ⟨h.2, h.1⟩

theorem Mutual.trans {u v w : String} (h : g.Mutual u v) (h' : g.Mutual v w) : g.Mutual u w :=
  ⟨h.1.trans h'.1, h'.2.trans h.2⟩

/-! ### The invariant -/

namespace Search

/-- The node was taken off the stack. -/
def Settled (s : Search) (v : String) : Prop := s.Met v ∧ v ∉ s.stack

/-- The invariant of the search, where `path` holds the nodes whose search has begun and not
ended. -/
structure Sound (g : DependencyGraph) (path : List String) (s : Search) : Prop where
  tidy : s.Tidy
  path_subset : path ⊆ s.stack
  /-- Everything that an explored node leads to was discovered. -/
  explored : ∀ v, s.Met v → v ∉ path → ∀ w, g.Leads v w → s.Met w
  /-- Nodes of the stack reach the nodes above them. -/
  reaches_newer : ∀ v ∈ s.stack, ∀ w ∈ s.stack, s.number v ≤ s.number w → g.Reaches v w
  /-- Nodes of the stack reach the path. -/
  reaches_path : ∀ v ∈ s.stack, ∃ p ∈ path, g.Reaches v p
  /-- What was taken off the stack leads only to what was taken off the stack. -/
  settled_of_leads : ∀ v, s.Settled v → ∀ w, g.Leads v w → s.Settled w
  settled_of_found : ∀ c ∈ s.found, ∀ v ∈ c, s.Settled v
  isComponent : ∀ c ∈ s.found, g.IsComponent c
  /-- No component of several nodes was left out. -/
  exists_found : ∀ v, s.Settled v → ∀ w, v ≠ w → g.Mutual v w → ∃ c ∈ s.found, v ∈ c
  /-- Components do not reach those that were found after them. -/
  ordered : s.found.Pairwise fun c d => ∀ v ∈ c, ∀ w ∈ d, ¬g.Reaches v w

/-- The names `ws` were searched, which led from `s` to `s'` and let the lowest number fall from
`low` to `low'`. It is not above the number of anything that was on the stack before and that an
edge of the names or of what was put on the stack leads to, and if it fell it belongs to a node that
the names reach. -/
structure Scanned (g : DependencyGraph) (low : Nat) (ws : List String) (s : Search) (low' : Nat)
    (s' : Search) : Prop where
  met : ∀ w ∈ ws, s'.Met w
  low_le : low' ≤ low
  low_le_of_mem : ∀ w ∈ ws, w ∈ s.stack → low' ≤ s.number w
  low_le_of_leads : ∀ v ∈ s'.stack, v ∉ s.stack → ∀ w ∈ s.stack, g.Leads v w → low' ≤ s.number w
  attained : low' = low ∨ ∃ w ∈ ws, ∃ v ∈ s'.stack, g.Reaches w v ∧ s'.number v = low'

variable {s t : Search} {path : List String} {v w : String} {lowest : Nat}

theorem Sound.settled_of_reaches (hs : s.Sound g path) (hv : s.Settled v) (h : g.Reaches v w) :
    s.Settled w := by
  induction h with
  | refl => exact hv
  | tail _ hlead ih => exact hs.settled_of_leads _ ih _ hlead

theorem settled_discover (hw : ¬s.Met w) : (s.discover w).Settled v ↔ s.Settled v := by
  rw [Settled, met_discover hw]
  constructor
  · rintro ⟨rfl | hmet, hstack⟩
    · exact absurd List.mem_cons_self hstack
    · exact ⟨hmet, fun hv => hstack (List.mem_cons_of_mem _ hv)⟩
  · rintro ⟨hmet, hstack⟩
    refine ⟨.inr hmet, fun hv => ?_⟩
    rcases List.mem_cons.mp hv with rfl | hv
    · exact hw hmet
    · exact hstack hv

/-- A node that the path reaches joins the path when it is discovered. -/
theorem Sound.discover (hs : s.Sound g path) (hw : ¬s.Met w) (hpath : ∀ p ∈ path, g.Reaches p w) :
    (s.discover w).Sound g (w :: path) := by
  have hext := extends_discover s w
  have hself := number_discover_self hw
  have hreach : ∀ v ∈ s.stack, g.Reaches v w := by
    intro v hv
    obtain ⟨p, hp, hvp⟩ := hs.reaches_path v hv
    exact hvp.trans (hpath p hp)
  have hnumber : ∀ v ∈ s.stack, (s.discover w).number v = s.number v ∧
      s.number v < s.discovered.length := by
    intro v hv
    have hmet := hs.tidy.met_of_mem v hv
    exact ⟨hext.number_eq hmet, hs.tidy.number_lt v hmet⟩
  refine ⟨hs.tidy.discover hw, List.cons_subset_cons w hs.path_subset, ?_, ?_, ?_, ?_, ?_,
    hs.isComponent, ?_, hs.ordered⟩
  · intro v hv hpath' u hu
    rw [List.mem_cons, not_or] at hpath'
    have hmet := ((met_discover hw).mp hv).resolve_left hpath'.1
    exact hext.met (hs.explored v hmet hpath'.2 u hu)
  · intro v hv u hu hle
    rcases List.mem_cons.mp hv with rfl | hold
    · rcases List.mem_cons.mp hu with rfl | hu
      · exact .refl
      · have := hnumber u hu
        omega
    · rcases List.mem_cons.mp hu with rfl | hu
      · exact hreach v hold
      · rw [(hnumber v hold).1, (hnumber u hu).1] at hle
        exact hs.reaches_newer v hold u hu hle
  · intro v hv
    refine ⟨w, List.mem_cons_self, ?_⟩
    rcases List.mem_cons.mp hv with rfl | hv
    · exact .refl
    · exact hreach v hv
  · intro v hv u hu
    rw [settled_discover hw] at hv ⊢
    exact hs.settled_of_leads v hv u hu
  · intro c hc v hv
    rw [settled_discover hw]
    exact hs.settled_of_found c hc v hv
  · intro v hv
    rw [settled_discover hw] at hv
    exact hs.exists_found v hv

/-! ### Closing a node -/

/-- The node `w` was discovered in the state `s`, and everything that it leads to was searched,
which led to the state `t`. -/
structure Traversed (g : DependencyGraph) (path : List String) (w : String) (s : Search)
    (lowest : Nat) (t : Search) : Prop where
  before : s.Sound g path
  fresh : ¬s.Met w
  after : t.Sound g (w :: path)
  ext : (s.discover w).Extends t
  scanned : Scanned g s.discovered.length (g.neighbors w) (s.discover w) lowest t

namespace Traversed

theorem extends_after (h : Traversed g path w s lowest t) : s.Extends t :=
  (extends_discover s w).trans h.ext

/-- The stack grew by `w` and by what was discovered after it. -/
def Gained (s t : Search) (v : String) : Prop := v ∈ t.stack ∧ v ∉ s.stack

theorem gained_self (h : Traversed g path w s lowest t) : Gained s t w :=
  ⟨h.after.path_subset List.mem_cons_self, fun hw => h.fresh (h.before.tidy.met_of_mem w hw)⟩

theorem number_self (h : Traversed g path w s lowest t) : t.number w = s.discovered.length := by
  rw [h.ext.number_eq ((met_discover h.fresh).mpr (.inl rfl)), number_discover_self h.fresh]

theorem number_discover_lt (h : Traversed g path w s lowest t) (hv : v ∈ s.stack) :
    (s.discover w).number v < s.discovered.length := by
  have hmet := h.before.tidy.met_of_mem v hv
  rw [(extends_discover s w).number_eq hmet]
  exact h.before.tidy.number_lt v hmet

theorem mem_append_iff (h : Traversed g path w s lowest t) {new : List String}
    (hstack : t.stack = new ++ w :: s.stack) : v ∈ new ++ [w] ↔ Gained s t v := by
  rw [List.append_cons] at hstack
  have hnodup := h.after.tidy.nodup
  rw [hstack] at hnodup
  rw [Gained, hstack, List.mem_append (t := s.stack)]
  constructor
  · intro hv
    exact ⟨.inl hv, fun hold => List.disjoint_of_nodup_append hnodup hv hold⟩
  · rintro ⟨hv, hold⟩
    exact hv.resolve_right hold

theorem le_number_of_gained (h : Traversed g path w s lowest t) (hv : Gained s t v) :
    s.discovered.length ≤ t.number v := by
  obtain ⟨new, hstack⟩ := h.ext.stack
  have hmem := (h.mem_append_iff hstack.symm).mpr hv
  rcases List.mem_append.mp hmem with hnew | hself
  · have hpair := h.after.tidy.descending
    rw [← hstack] at hpair
    have hlt := (List.pairwise_append.mp hpair).2.2 v hnew w List.mem_cons_self
    rw [h.number_self] at hlt
    omega
  · obtain rfl := List.mem_singleton.mp hself
    exact Nat.le_of_eq h.number_self.symm

/-- Once `w` leaves the path, everything off the path is explored. -/
theorem met_of_leads_of_not_mem_path (h : Traversed g path w s lowest t) (hv : t.Met v)
    (hpath : v ∉ path) {u : String} (hu : g.Leads v u) : t.Met u := by
  by_cases hvw : v = w
  · subst hvw
    exact h.scanned.met u hu
  · exact h.after.explored v hv (by simp [hvw, hpath]) u hu

/-- Everything that a gained node leads to was discovered. -/
theorem met_of_leads (h : Traversed g path w s lowest t) (hv : Gained s t v) {u : String}
    (hu : g.Leads v u) : t.Met u :=
  h.met_of_leads_of_not_mem_path (h.after.tidy.met_of_mem v hv.1)
    (fun hpath => hv.2 (h.before.path_subset hpath)) hu

/-- The lowest number is not above that of an older node of the stack that an edge leads back to. -/
theorem lowest_le_of_leads (h : Traversed g path w s lowest t) (hv : Gained s t v) {u : String}
    (hu : g.Leads v u) (hold : u ∈ s.stack) : lowest ≤ (s.discover w).number u := by
  have hold' : u ∈ (s.discover w).stack := List.mem_cons_of_mem w hold
  by_cases hvw : v = w
  · subst hvw
    exact h.scanned.low_le_of_mem u hu hold'
  · refine h.scanned.low_le_of_leads v hv.1 ?_ u hold' hu
    rintro (_ | ⟨_, hold⟩)
    · exact hvw rfl
    · exact hv.2 hold

/-- Taking the component off the stack settles its nodes. -/
theorem settled_iff_of_stack_eq (h : Traversed g path w s lowest t) {u : Search}
    (hdiscovered : u.discovered = t.discovered) (hstack : u.stack = s.stack) :
    u.Settled v ↔ Gained s t v ∨ t.Settled v := by
  rw [Settled, Settled, Gained, Met, Met, hdiscovered, hstack]
  constructor
  · rintro ⟨hmet, hold⟩
    by_cases hv : v ∈ t.stack
    · exact .inl ⟨hv, hold⟩
    · exact .inr ⟨hmet, hv⟩
  · rintro (⟨hv, hold⟩ | ⟨hmet, hv⟩)
    · exact ⟨h.after.tidy.met_of_mem v hv, hold⟩
    · exact ⟨hmet, fun hold => hv (h.extends_after.stack.subset hold)⟩

section Root

variable (h : Traversed g path w s lowest t) (hroot : lowest = s.discovered.length)

include h hroot

/-- Edges of gained nodes do not lead back when the lowest number did not fall. -/
theorem gained_or_settled_of_leads (hv : Gained s t v) {u : String} (hu : g.Leads v u) :
    Gained s t u ∨ t.Settled u := by
  by_cases hstack : u ∈ t.stack
  · refine .inl ⟨hstack, fun hold => ?_⟩
    have hle := h.lowest_le_of_leads hv hu hold
    have hlt := h.number_discover_lt hold
    omega
  · exact .inr ⟨h.met_of_leads hv hu, hstack⟩

theorem gained_or_settled_of_reaches (hv : Gained s t v) {u : String} (hu : g.Reaches v u) :
    Gained s t u ∨ t.Settled u := by
  induction hu with
  | refl => exact .inl hv
  | tail _ hlead ih =>
      rcases ih with hgained | hsettled
      · exact h.gained_or_settled_of_leads hroot hgained hlead
      · exact .inr (h.after.settled_of_leads _ hsettled _ hlead)

/-- What the stack gained is the component of the node that it was gained for. -/
theorem gained_iff_mutual : Gained s t v ↔ g.Mutual w v := by
  have hself := h.gained_self
  constructor
  · intro hv
    refine ⟨?_, ?_⟩
    · refine h.after.reaches_newer w hself.1 v hv.1 ?_
      rw [h.number_self]
      exact h.le_number_of_gained hv
    · obtain ⟨p, hp, hreach⟩ := h.after.reaches_path v hv.1
      rcases List.mem_cons.mp hp with rfl | hp
      · exact hreach
      -- an older node of the path cannot be reached any more
      have hold := h.before.path_subset hp
      rcases h.gained_or_settled_of_reaches hroot hv hreach with hgained | hsettled
      · exact absurd hold hgained.2
      · exact absurd (h.extends_after.stack.subset hold) hsettled.2
  · rintro ⟨hto, hback⟩
    rcases h.gained_or_settled_of_reaches hroot hself hto with hgained | hsettled
    · exact hgained
    · exact absurd hself.1 (h.after.settled_of_reaches hsettled hback).2

/-- **A node that meets no lower number than its own has its component above it on the stack.** -/
theorem isComponent {new : List String} (hstack : t.stack = new ++ w :: s.stack) (hne : new ≠ []) :
    g.IsComponent (new ++ [w]).reverse := by
  have hmem : ∀ v, v ∈ (new ++ [w]).reverse ↔ g.Mutual w v := by
    intro v
    rw [List.mem_reverse, h.mem_append_iff hstack, h.gained_iff_mutual hroot]
  refine ⟨?_, ?_, ?_⟩
  · have := List.length_pos_iff.mpr hne
    simp only [List.length_reverse, List.length_append, List.length_singleton]
    omega
  · have hnodup := h.after.tidy.nodup
    rw [hstack, List.append_cons] at hnodup
    exact List.nodup_reverse.mpr hnodup.of_append_left
  · intro v hv u
    rw [hmem] at hv ⊢
    exact ⟨hv.symm.trans, hv.trans⟩

/-- The state in which the component of `w` was taken off the stack keeps the invariant. -/
theorem sound_root {new : List String} (hnew : t.stack = new ++ w :: s.stack) {u : Search}
    (htidy : u.Tidy) (hdiscovered : u.discovered = t.discovered) (hstack : u.stack = s.stack)
    (hfound : u.found = if new ≠ [] then t.found ++ [(new ++ [w]).reverse] else t.found) :
    u.Sound g path := by
  have hsettled : ∀ v, u.Settled v ↔ Gained s t v ∨ t.Settled v := fun v =>
    h.settled_iff_of_stack_eq hdiscovered hstack
  have hcomponent : ∀ v, v ∈ (new ++ [w]).reverse ↔ Gained s t v := fun v => by
    rw [List.mem_reverse, h.mem_append_iff hnew]
  have hmem : ∀ c ∈ u.found, c ∈ t.found ∨ new ≠ [] ∧ c = (new ++ [w]).reverse := by
    intro c hc
    rw [hfound] at hc
    split at hc
    · rename_i hne
      rcases List.mem_append.mp hc with hc | hc
      · exact .inl hc
      · exact .inr ⟨hne, List.mem_singleton.mp hc⟩
    · exact .inl hc
  have hsub : t.found ⊆ u.found := by
    rw [hfound]
    split
    · exact List.subset_append_left _ _
    · exact List.Subset.refl _
  refine ⟨htidy, ?_, ?_, ?_, ?_, ?_, ?_, ?_, ?_, ?_⟩
  · rw [hstack]
    exact h.before.path_subset
  · intro v hv hpath x hx
    rw [Met, hdiscovered] at hv ⊢
    exact h.met_of_leads_of_not_mem_path hv hpath hx
  · intro v hv x hx hle
    rw [hstack] at hv hx
    rw [number, number, hdiscovered] at hle
    exact h.after.reaches_newer v (h.extends_after.stack.subset hv) x
      (h.extends_after.stack.subset hx) hle
  · rw [hstack]
    exact h.before.reaches_path
  · intro v hv x hx
    rw [hsettled] at hv ⊢
    rcases hv with hgained | hv
    · exact h.gained_or_settled_of_leads hroot hgained hx
    · exact .inr (h.after.settled_of_leads v hv x hx)
  · intro c hc v hv
    rw [hsettled]
    rcases hmem c hc with hc | ⟨-, rfl⟩
    · exact .inr (h.after.settled_of_found c hc v hv)
    · exact .inl ((hcomponent v).mp hv)
  · intro c hc
    rcases hmem c hc with hc | ⟨hne, rfl⟩
    · exact h.after.isComponent c hc
    · exact h.isComponent hroot hnew hne
  · intro v hv x hne hmutual
    rw [hsettled] at hv
    rcases hv with hgained | hv
    · -- a second node of the component lies above `w`
      have hx : Gained s t x := (h.gained_iff_mutual hroot).mpr
        (((h.gained_iff_mutual hroot).mp hgained).trans hmutual)
      have hnil : new ≠ [] := by
        rintro rfl
        rw [← h.mem_append_iff hnew, List.nil_append, List.mem_singleton] at hgained hx
        exact hne (hgained.trans hx.symm)
      refine ⟨(new ++ [w]).reverse, ?_, (hcomponent v).mpr hgained⟩
      rw [hfound, if_pos hnil]
      exact List.mem_append_right _ List.mem_cons_self
    · obtain ⟨c, hc, hvc⟩ := h.after.exists_found v hv x hne hmutual
      exact ⟨c, hsub hc, hvc⟩
  · rw [hfound]
    split
    · refine List.pairwise_append.mpr ⟨h.after.ordered, List.pairwise_singleton _ _, ?_⟩
      intro c hc d hd v hv x hx hreach
      rw [List.mem_singleton.mp hd, hcomponent] at hx
      -- what was found before leads only to what was settled before
      have hsettled' := h.after.settled_of_reaches (h.after.settled_of_found c hc v hv) hreach
      exact hsettled'.2 hx.1
    · exact h.after.ordered

end Root

/-- If the lowest number fell, `w` leaves the path but stays on the stack. -/
theorem sound_inner (h : Traversed g path w s lowest t) (hinner : lowest ≠ s.discovered.length) :
    t.Sound g path := by
  have hback : ∃ p ∈ path, g.Reaches w p := by
    rcases h.scanned.attained with heq | ⟨x, hx, v, hv, hreach, hnumber⟩
    · exact absurd heq hinner
    -- the node with the lowest number is older than `w`
    have hle := h.scanned.low_le
    have hold : v ∈ s.stack := by
      by_contra hold
      have := h.le_number_of_gained ⟨hv, hold⟩
      omega
    obtain ⟨p, hp, hvp⟩ := h.before.reaches_path v hold
    exact ⟨p, hp, (Leads.reaches hx).trans (hreach.trans hvp)⟩
  refine { h.after with path_subset := ?_, explored := ?_, reaches_path := ?_ }
  · exact (List.cons_subset.mp h.after.path_subset).2
  · exact fun v hv hpath x hx => h.met_of_leads_of_not_mem_path hv hpath hx
  · intro v hv
    obtain ⟨p, hp, hreach⟩ := h.after.reaches_path v hv
    rcases List.mem_cons.mp hp with rfl | hp
    · obtain ⟨q, hq, hpq⟩ := hback
      exact ⟨q, hq, hreach.trans hpq⟩
    · exact ⟨p, hp, hreach⟩

/-- Closing a node keeps the invariant. -/
theorem sound_close? (h : Traversed g path w s lowest t) {u : Search}
    (hclose : t.close? w s.discovered.length lowest = some u) : u.Sound g path := by
  obtain ⟨new, hstack⟩ := h.ext.stack
  obtain ⟨htidy, -⟩ := h.after.tidy.extends_of_close? h.ext hclose
  rcases h.after.tidy.close?_eq_some hstack.symm hclose with ⟨hroot, rfl⟩ | ⟨hinner, rfl⟩
  · exact h.sound_root hroot hstack.symm htidy rfl rfl rfl
  · exact h.sound_inner hinner

end Traversed

/-! ### Lowest numbers -/

variable {low low' n : Nat} {ws : List String} {s' u : Search}

theorem scanned_nil : Scanned g low [] s low s where
  met _ hw := absurd hw List.not_mem_nil
  low_le := Nat.le_refl low
  low_le_of_mem _ hw := absurd hw List.not_mem_nil
  low_le_of_leads _ hv hnot := absurd hv hnot
  attained := .inl rfl

/-- A node that is known already counts with its number if it is on the stack. -/
theorem Scanned.known (h : Scanned g (if s.stack.contains w then min low n else low) ws s low' s')
    (hw : s.discovered.lookup w = some n) (hext : s.Extends s') :
    Scanned g low (w :: ws) s low' s' := by
  have hmet := met_of_lookup hw
  have hnumber := number_of_lookup hw
  have hle := h.low_le
  refine ⟨?_, ?_, ?_, h.low_le_of_leads, ?_⟩
  · intro x hx
    rcases List.mem_cons.mp hx with rfl | hx
    · exact hext.met hmet
    · exact h.met x hx
  · split at hle <;> omega
  · intro x hx hstack
    rcases List.mem_cons.mp hx with rfl | hx
    · rw [if_pos (List.contains_iff_mem.mpr hstack)] at hle
      omega
    · exact h.low_le_of_mem x hx hstack
  · rcases h.attained with heq | ⟨x, hx, hattained⟩
    · split at heq
      · rename_i hstack
        rw [List.contains_iff_mem] at hstack
        rcases Nat.le_total low n with hlow | hlow
        · exact .inl (heq.trans (Nat.min_eq_left hlow))
        · refine .inr ⟨w, List.mem_cons_self, w, hext.stack.subset hstack, .refl, ?_⟩
          rw [hext.number_eq hmet, hnumber, heq, Nat.min_eq_right hlow]
      · exact .inl heq
    · exact .inr ⟨x, List.mem_cons_of_mem w hx, hattained⟩

/-- A node that was searched through counts with the lowest number that its search met. -/
theorem Traversed.scanned_cons (h : Traversed g path w s lowest t)
    (hlow : low ≤ s.discovered.length)
    (hclose : t.close? w s.discovered.length lowest = some u) (hext : u.Extends s')
    (hrest : Scanned g (min low lowest) ws u low' s') : Scanned g low (w :: ws) s low' s' := by
  obtain ⟨-, hext'⟩ := h.after.tidy.extends_of_close? h.ext hclose
  obtain ⟨new, hstack⟩ := h.ext.stack
  have hcases := h.after.tidy.close?_eq_some hstack.symm hclose
  have hle := hrest.low_le
  have hnumber : ∀ x ∈ s.stack, u.number x = s.number x ∧
      (s.discover w).number x = s.number x := by
    intro x hx
    have hmet := h.before.tidy.met_of_mem x hx
    exact ⟨hext'.number_eq hmet, (extends_discover s w).number_eq hmet⟩
  refine ⟨?_, by omega, ?_, ?_, ?_⟩
  · intro x hx
    rcases List.mem_cons.mp hx with rfl | hx
    · have hmet : u.Met x := by
        have := h.after.tidy.met_of_mem x h.gained_self.1
        rcases hcases with ⟨-, rfl⟩ | ⟨-, rfl⟩
        · exact this
        · exact this
      exact hext.met hmet
    · exact hrest.met x hx
  · intro x hx hold
    rcases List.mem_cons.mp hx with rfl | hx
    · exact absurd hold h.gained_self.2
    · rw [← (hnumber x hold).1]
      exact hrest.low_le_of_mem x hx (hext'.stack.subset hold)
  · intro v hv hnot x hold hx
    by_cases hvu : v ∈ u.stack
    · -- the node was put on the stack by the search of `w`, which left it there
      rcases hcases with ⟨-, rfl⟩ | ⟨-, rfl⟩
      · exact absurd hvu hnot
      · have := h.lowest_le_of_leads ⟨hvu, hnot⟩ hx hold
        rw [(hnumber x hold).2] at this
        omega
    · rw [← (hnumber x hold).1]
      exact hrest.low_le_of_leads v hv hvu x (hext'.stack.subset hold) hx
  · rcases hrest.attained with heq | ⟨x, hx, hattained⟩
    · rcases Nat.le_total low lowest with hlow' | hlow'
      · exact .inl (heq.trans (Nat.min_eq_left hlow'))
      rw [Nat.min_eq_right hlow'] at heq
      rcases h.scanned.attained with hroot | ⟨x, hx, v, hv, hreach, hv'⟩
      · exact .inl (by omega)
      rcases hcases with ⟨hroot, -⟩ | ⟨-, rfl⟩
      · exact .inl (by omega)
      refine .inr ⟨w, List.mem_cons_self, v, hext.stack.subset hv, ?_, ?_⟩
      · exact (Leads.reaches hx).trans hreach
      · rw [hext.number_eq (h.after.tidy.met_of_mem v hv), hv', heq]
    · exact .inr ⟨x, List.mem_cons_of_mem w hx, hattained⟩

end Search

/-! ### Runs -/

open Search

/-- **Runs keep the invariant.** -/
theorem Scans.sound {low low' : Nat} {ws path : List String} {s s' : Search}
    (h : g.Scans low ws s low' s') (hs : s.Sound g path) (hlow : low ≤ s.discovered.length)
    (hpath : ∀ p ∈ path, ∀ w ∈ ws, g.Reaches p w) :
    s'.Sound g path ∧ Scanned g low ws s low' s' := by
  induction h generalizing path with
  | done => exact ⟨hs, scanned_nil⟩
  | known hw hscans ih =>
      obtain ⟨-, hext⟩ := hscans.frame hs.tidy
      obtain ⟨hs', hrest⟩ := ih hs (by split <;> omega)
        fun p hp x hx => hpath p hp x (List.mem_cons_of_mem _ hx)
      exact ⟨hs', hrest.known hw hext⟩
  | @fresh low lowest low' w ws s t u s' hw hscans hclose hscans' ih ih' =>
      have hmet : ¬s.Met w := not_met_iff.mpr hw
      have hfirst : ∀ p ∈ path, g.Reaches p w := fun p hp => hpath p hp w List.mem_cons_self
      have hdiscover := hs.discover hmet hfirst
      obtain ⟨-, hext⟩ := hscans.frame hdiscover.tidy
      -- the search of what `w` leads to, with `w` on the path
      have hneighbors : ∀ p ∈ w :: path, ∀ x ∈ g.neighbors w, g.Reaches p x := by
        intro p hp x hx
        rcases List.mem_cons.mp hp with rfl | hp
        · exact Leads.reaches hx
        · exact (hfirst p hp).trans (Leads.reaches hx)
      obtain ⟨ht, hscanned⟩ := ih hdiscover (by rw [length_discover]; omega) hneighbors
      have htraversed : Traversed g path w s lowest t := ⟨hs, hmet, ht, hext, hscanned⟩
      obtain ⟨-, hext'⟩ := ht.tidy.extends_of_close? hext hclose
      have hu := htraversed.sound_close? hclose
      have hlength := hext'.discovered.length_le
      obtain ⟨-, hext''⟩ := hscans'.frame hu.tidy
      obtain ⟨hs', hrest⟩ := ih' hu (by omega)
        fun p hp x hx => hpath p hp x (List.mem_cons_of_mem _ hx)
      exact ⟨hs', htraversed.scanned_cons hlow hclose hext'' hrest⟩

theorem Search.sound_empty (g : DependencyGraph) : ({} : Search).Sound g [] where
  tidy := tidy_empty
  path_subset := List.nil_subset _
  explored _ hv := absurd hv Bool.false_ne_true
  reaches_newer _ hv := absurd hv List.not_mem_nil
  reaches_path _ hv := absurd hv List.not_mem_nil
  settled_of_leads _ hv := absurd hv.1 Bool.false_ne_true
  settled_of_found _ hc := absurd hc List.not_mem_nil
  isComponent _ hc := absurd hc List.not_mem_nil
  exists_found _ hv := absurd hv.1 Bool.false_ne_true
  ordered := .nil

/-- After the search of a whole graph everything is settled. -/
theorem Runs.sound {s : Search} (h : g.Runs s) :
    s.Sound g [] ∧ ∀ v ∈ g.nodes, s.Settled v := by
  obtain ⟨low, hscans⟩ := h
  obtain ⟨hs, hscanned⟩ := hscans.sound (sound_empty g) (Nat.le_refl 0)
    fun _ hp => absurd hp List.not_mem_nil
  refine ⟨hs, fun v hv => ⟨hscanned.met v hv, fun hstack => ?_⟩⟩
  obtain ⟨p, hp, -⟩ := hs.reaches_path v hstack
  exact absurd hp List.not_mem_nil

/-! ### Graphs as they are built -/

/-- One step in building a graph. -/
inductive Change where
  | node (name : String)
  | edge (source target : String)
deriving DecidableEq, Repr

/-- The graph after one more step. -/
def change (g : DependencyGraph) : Change → DependencyGraph
  | .node name => g.addNode name
  | .edge source target => g.addEdge source target

/-- The graph that a sequence of steps builds. -/
def build (changes : List Change) : DependencyGraph := changes.foldl change {}

/-- There is a path along edges that were added. -/
def Connects (changes : List Change) : String → String → Prop :=
  Relation.ReflTransGen fun v w => Change.edge v w ∈ changes

theorem mem_edgeList_addEdge {source target : String} {e : String × String} :
    e ∈ (g.addEdge source target).edgeList ↔
      e ∈ g.edgeList ∨ e = (source, target) ∧ source ≠ target := by
  rw [addEdge]
  simp only [edgeList_addNode]
  by_cases heq : source = target
  · simp [heq, edgeList_addNode]
  by_cases hmem : (source, target) ∈ g.edgeList
  · simp only [heq, hmem, edgeList_addNode, List.contains_iff_mem, beq_iff_eq, Bool.or_eq_true,
      or_true, if_true, ne_eq, not_false_eq_true, and_true]
    exact ⟨.inl, fun h => h.elim id fun h => h ▸ hmem⟩
  · simp [heq, hmem]

theorem mem_edgeList_build {changes : List Change} {v w : String} :
    (v, w) ∈ (build changes).edgeList ↔ Change.edge v w ∈ changes ∧ v ≠ w := by
  have hfold (g : DependencyGraph) : (v, w) ∈ (changes.foldl change g).edgeList ↔
      (v, w) ∈ g.edgeList ∨ Change.edge v w ∈ changes ∧ v ≠ w := by
    induction changes generalizing g with
    | nil => simp
    | cons c changes ih =>
        rw [List.foldl_cons, ih]
        cases c with
        | node name => simp [change, edgeList_addNode]
        | edge source target =>
            simp only [change, mem_edgeList_addEdge, List.mem_cons, Prod.mk.injEq,
              Change.edge.injEq]
            grind
  rw [build, hfold]
  simp

theorem leads_iff {v w : String} : g.Leads v w ↔ (v, w) ∈ g.edgeList := by
  rw [Leads, neighbors, Text.sorted, List.mem_mergeSort, List.mem_map]
  constructor
  · rintro ⟨⟨a, b⟩, he, rfl⟩
    obtain ⟨hmem, heq⟩ := List.mem_filter.mp he
    rw [beq_iff_eq] at heq
    exact heq ▸ hmem
  · intro he
    exact ⟨(v, w), List.mem_filter.mpr ⟨he, beq_self_eq_true v⟩, rfl⟩

theorem reaches_build {changes : List Change} {v w : String} :
    (build changes).Reaches v w ↔ Connects changes v w := by
  constructor
  · refine Relation.ReflTransGen.mono ?_ v w
    intro a b hlead
    exact (mem_edgeList_build.mp (leads_iff.mp hlead)).1
  · intro h
    induction h with
    | refl => exact .refl
    | @tail a b _ hedge ih =>
        -- an edge from a node to itself was not added, and is not needed
        by_cases hab : a = b
        · exact hab ▸ ih
        · exact ih.tail (leads_iff.mpr (mem_edgeList_build.mpr ⟨hedge, hab⟩))

theorem closed_build (changes : List Change) : (build changes).Closed := by
  have hempty : Closed {} := fun _ he => absurd he List.not_mem_nil
  refine List.foldlRecOn (motive := Closed) changes change hempty ?_
  intro g hg c _
  cases c with
  | node name => exact hg.addNode name
  | edge source target => exact hg.addEdge source target

/-- **The components of a graph are its strongly connected components of several nodes.** The search
for them comes to an end without taking a node off an empty stack. Each of them has several nodes,
none of them twice, no two have a node in common, and two different nodes are in one of them exactly
if each can be reached from the other. -/
theorem components_build (changes : List Change) :
    (∃ s, (build changes).Runs s) ∧
    (∀ s, (build changes).Runs s → s.found = (build changes).components) ∧
    (∀ c ∈ (build changes).components, 2 ≤ c.length ∧ c.Nodup ∧ c ⊆ (build changes).nodes) ∧
    (build changes).components.Pairwise List.Disjoint ∧
    ∀ v w, v ≠ w → ((∃ c ∈ (build changes).components, v ∈ c ∧ w ∈ c) ↔
      Connects changes v w ∧ Connects changes w v) := by
  have hclosed := closed_build changes
  obtain ⟨s, hruns, hfound⟩ := exists_runs hclosed
  obtain ⟨hsound, hsettled⟩ := hruns.sound
  refine ⟨⟨s, hruns⟩, fun s' hruns' => ?_, ?_, ?_, ?_⟩
  · rw [hruns'.unique hruns, hfound]
  · intro c hc
    obtain ⟨-, hsub⟩ := hclosed.mem_components hc
    rw [← hfound] at hc
    have hcomponent := hsound.isComponent c hc
    exact ⟨hcomponent.several, hcomponent.nodup, fun v hv => mem_nodes.mpr (hsub hv)⟩
  · rw [← hfound]
    refine hsound.ordered.imp ?_
    intro c d hcd v hv hv'
    exact hcd v hv v hv' .refl
  · intro v w hne
    rw [← hfound, ← reaches_build, ← reaches_build]
    constructor
    · rintro ⟨c, hc, hv, hw⟩
      exact ((hsound.isComponent c hc).mem_iff v hv w).mp hw
    · intro hmutual
      -- a path to another node begins with an edge, so `v` is a node
      obtain heq | ⟨x, hlead, -⟩ := Relation.ReflTransGen.cases_head hmutual.1
      · exact absurd heq hne
      have hv : v ∈ (build changes).nodes := mem_nodes.mpr (hclosed _ (leads_iff.mp hlead)).1
      obtain ⟨c, hc, hvc⟩ := hsound.exists_found v (hsettled v hv) w hne hmutual
      exact ⟨c, hc, hvc, ((hsound.isComponent c hc).mem_iff v hvc w).mpr hmutual⟩

/-- What is listed first does not reach what is listed later. -/
theorem pairwise_components (changes : List Change) :
    (build changes).components.Pairwise fun c d => ∀ v ∈ c, ∀ w ∈ d, ¬Connects changes v w := by
  obtain ⟨s, hruns, hfound⟩ := exists_runs (closed_build changes)
  obtain ⟨hsound, -⟩ := hruns.sound
  simp only [← hfound, ← reaches_build]
  exact hsound.ordered

/-- **Components are listed against the direction of the edges.** If a path leads from a node of one
component to a node of another, the component that it leads to is listed before. -/
theorem components_reverse_topological (changes : List Change) {i j : Nat} {x y : List String}
    (hx : (build changes).components[i]? = some x) (hy : (build changes).components[j]? = some y)
    (hne : x ≠ y) {v w : String} (hv : v ∈ x) (hw : w ∈ y) (hreach : Connects changes v w) :
    j < i := by
  obtain ⟨hi, rfl⟩ := List.getElem?_eq_some_iff.mp hx
  obtain ⟨hj, rfl⟩ := List.getElem?_eq_some_iff.mp hy
  rcases Nat.lt_trichotomy i j with hij | rfl | hji
  · have hno := List.pairwise_iff_getElem.mp (pairwise_components changes) i j hi hj hij
    exact absurd hreach (hno v hv w hw)
  · exact absurd rfl hne
  · exact hji

/-- Two circles; a path through a node between them leads from the first one to the second. -/
def twoCircles : List Change :=
  [.edge "a" "b", .edge "b" "a", .edge "c" "d", .edge "d" "c", .edge "b" "x", .edge "x" "c"]

/-- The circle that is entered first is listed last. -/
theorem twoCircles_reverse_topological :
    ∃ i j : Nat, (build twoCircles).components[i]? = some ["a", "b"] ∧
      (build twoCircles).components[j]? = some ["c", "d"] ∧ j < i := by
  have hcomponents : (build twoCircles).components = [["c", "d"], ["a", "b"]] := by cbv
  have hx : (build twoCircles).components[1]? = some ["a", "b"] := by rw [hcomponents]; rfl
  have hy : (build twoCircles).components[0]? = some ["c", "d"] := by rw [hcomponents]; rfl
  have hbx : Connects twoCircles "b" "x" := .single (by decide)
  have hreach : Connects twoCircles "b" "c" := hbx.tail (by decide)
  exact ⟨1, 0, hx, hy, components_reverse_topological twoCircles hx hy (by decide) (by decide)
    (by decide) hreach⟩

end ClassAudit.DependencyGraph
