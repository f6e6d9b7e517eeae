import ClassAudit.Proofs.DependencyNodes
import Mathlib.Data.List.Nodup

/-!
# Runs of the search for components

The search for components goes as deep as the graph makes it, and it takes a component off the stack
node by node, down to the node that completes it. The relation `Scans` describes such a run without
a bound on the depth; a run that would have to take a node off an empty stack has no outcome.

## Main definitions

* `DependencyGraph.pop?` - the stack taken down to a node.
* `DependencyGraph.Scans` - a list of names is searched, each with everything that it leads to;
  `DependencyGraph.Runs` - a whole graph is searched.
* `DependencyGraph.Search.Tidy` - the stack holds discovered nodes, the newest first.

## Main statements

* `DependencyGraph.Scans.frame` - a run leaves what was on the stack, and all numbers, as they were.
* `DependencyGraph.visits_visit` - the bounded search is a run if its bound is not below the number
  of nodes that are left to discover.
* `DependencyGraph.exists_runs` - the search of a whole graph comes to an end, and its outcome is
  that of `components`.
-/

namespace ClassAudit.DependencyGraph

/-! ### Runs -/

/-- Takes names off the top of a stack until `v` is taken. There is no result if the stack runs
empty before. -/
def pop? (v : String) : List String → Option (List String × List String)
  | [] => none
  | w :: rest =>
    if w = v then some ([w], rest)
    else (pop? v rest).map fun (taken, rest) => (w :: taken, rest)

/-- The state after `v` was searched through, where `lowest` is the lowest number met on the way. A
node that meets no lower number than its own takes its component off the stack. -/
def Search.close? (s : Search) (v : String) (number lowest : Nat) : Option Search :=
  if lowest = number then
    (pop? v s.stack).map fun (taken, rest) =>
      { s with
        stack := rest
        found := if taken.length > 1 then s.found ++ [taken.reverse] else s.found }
  else some s

/-- The names `ws` are searched in turn, which leads from the state `s` to the state `s'`. On the
way the lowest number of a node on the stack that was met falls from `low` to `low'`. -/
inductive Scans (g : DependencyGraph) : Nat → List String → Search → Nat → Search → Prop
  | done {low : Nat} {s : Search} : Scans g low [] s low s
  | known {low n low' : Nat} {w : String} {ws : List String} {s s' : Search} :
      s.discovered.lookup w = some n →
      Scans g (if s.stack.contains w then min low n else low) ws s low' s' →
      Scans g low (w :: ws) s low' s'
  | fresh {low lowest low' : Nat} {w : String} {ws : List String} {s t u s' : Search} :
      s.discovered.lookup w = none →
      Scans g s.discovered.length (g.neighbors w) (s.discover w) lowest t →
      t.close? w s.discovered.length lowest = some u →
      Scans g (min low lowest) ws u low' s' →
      Scans g low (w :: ws) s low' s'

/-- The search of a whole graph ends in the state `s`. -/
def Runs (g : DependencyGraph) (s : Search) : Prop := ∃ low, g.Scans 0 g.nodes {} low s

/-- A run has one outcome. -/
theorem Scans.unique {g : DependencyGraph} {low low₁ low₂ : Nat} {ws : List String}
    {s s₁ s₂ : Search} (h₁ : g.Scans low ws s low₁ s₁) (h₂ : g.Scans low ws s low₂ s₂) :
    low₁ = low₂ ∧ s₁ = s₂ := by
  induction h₁ generalizing low₂ s₂ with
  | done =>
      cases h₂
      exact ⟨rfl, rfl⟩
  | known hw _ ih =>
      cases h₂ with
      | known hw' hrest =>
          obtain rfl := Option.some.inj (hw.symm.trans hw')
          exact ih hrest
      | fresh hw' => exact absurd (hw.symm.trans hw') (Option.some_ne_none _)
  | fresh hw _ hclose _ ih ih' =>
      cases h₂ with
      | known hw' => exact absurd (hw'.symm.trans hw) (Option.some_ne_none _)
      | fresh _ hscans hclose' hrest =>
          obtain ⟨rfl, rfl⟩ := ih hscans
          obtain rfl := Option.some.inj (hclose.symm.trans hclose')
          exact ih' hrest

theorem Runs.unique {g : DependencyGraph} {s₁ s₂ : Search} (h₁ : g.Runs s₁) (h₂ : g.Runs s₂) :
    s₁ = s₂ := by
  obtain ⟨_, hscans₁⟩ := h₁
  obtain ⟨_, hscans₂⟩ := h₂
  exact (hscans₁.unique hscans₂).2

/-! ### What a run leaves alone -/

namespace Search

/-- The number of a discovered node. -/
def number (s : Search) (v : String) : Nat := (s.discovered.lookup v).getD 0

/-- The node was discovered. -/
def Met (s : Search) (v : String) : Prop := (s.discovered.lookup v).isSome

/-- The stack holds discovered nodes, the newest first. -/
structure Tidy (s : Search) : Prop where
  number_lt : ∀ v, s.Met v → s.number v < s.discovered.length
  met_of_mem : ∀ v ∈ s.stack, s.Met v
  descending : s.stack.Pairwise fun v w => s.number w < s.number v

theorem Tidy.nodup {s : Search} (h : s.Tidy) : s.stack.Nodup := by
  refine h.descending.imp ?_
  intro v w hlt heq
  subst heq
  omega

/-- A later state: nothing was taken off the stack that was on it, and no number was changed. -/
structure Extends (s s' : Search) : Prop where
  stack : s.stack <:+ s'.stack
  discovered : s.discovered <+: s'.discovered

variable {s s' s'' : Search} {v w : String}

theorem Extends.refl (s : Search) : s.Extends s := ⟨List.suffix_rfl, List.prefix_rfl⟩

theorem Extends.trans (h : s.Extends s') (h' : s'.Extends s'') : s.Extends s'' :=
  ⟨h.stack.trans h'.stack, h.discovered.trans h'.discovered⟩

theorem lookup_of_prefix (h : s.discovered <+: s'.discovered) (hv : s.Met v) :
    s'.discovered.lookup v = s.discovered.lookup v := by
  obtain ⟨more, hmore⟩ := h
  obtain ⟨n, hn⟩ := Option.isSome_iff_exists.mp hv
  rw [← hmore, List.lookup_append, hn]
  rfl

theorem Extends.met (h : s.Extends s') (hv : s.Met v) : s'.Met v := by
  rw [Met, lookup_of_prefix h.discovered hv]
  exact hv

theorem Extends.number_eq (h : s.Extends s') (hv : s.Met v) : s'.number v = s.number v := by
  rw [number, number, lookup_of_prefix h.discovered hv]

theorem met_of_lookup {n : Nat} (h : s.discovered.lookup v = some n) : s.Met v := by
  rw [Met, h]
  rfl

theorem number_of_lookup {n : Nat} (h : s.discovered.lookup v = some n) : s.number v = n := by
  rw [number, h]
  rfl

theorem not_met_iff : ¬s.Met v ↔ s.discovered.lookup v = none := by
  rw [Met, Bool.not_eq_true, Option.isSome_eq_false_iff, Option.isNone_iff_eq_none]

/-! #### Discovering a node -/

theorem lookup_discover (hv : ¬s.Met v) :
    (s.discover v).discovered.lookup w =
      if w = v then some s.discovered.length else s.discovered.lookup w := by
  rw [discover, List.lookup_append]
  by_cases hw : w = v
  · subst hw
    rw [not_met_iff.mp hv, if_pos rfl]
    simp
  · rw [if_neg hw, List.lookup_cons, beq_eq_false_iff_ne.mpr hw]
    simp

theorem met_discover (hv : ¬s.Met v) : (s.discover v).Met w ↔ w = v ∨ s.Met w := by
  rw [Met, lookup_discover hv]
  by_cases hw : w = v
  · simp [hw]
  · simp [hw, Met]

theorem number_discover_self (hv : ¬s.Met v) :
    (s.discover v).number v = s.discovered.length := by
  rw [number, lookup_discover hv, if_pos rfl]
  rfl

theorem extends_discover (s : Search) (v : String) : s.Extends (s.discover v) :=
  ⟨List.suffix_cons v s.stack, List.prefix_append _ _⟩

theorem length_discover (s : Search) (v : String) :
    (s.discover v).discovered.length = s.discovered.length + 1 := by
  simp [discover]

theorem Tidy.discover (h : s.Tidy) (hv : ¬s.Met v) : (s.discover v).Tidy := by
  have hext := extends_discover s v
  have hself := number_discover_self hv
  refine ⟨?_, ?_, ?_⟩
  · intro w hw
    rw [length_discover]
    rcases (met_discover hv).mp hw with rfl | hw
    · omega
    · have hlt := h.number_lt w hw
      have heq := hext.number_eq hw
      omega
  · intro w hw
    rcases List.mem_cons.mp hw with rfl | hw
    · exact (met_discover hv).mpr (.inl rfl)
    · exact hext.met (h.met_of_mem w hw)
  · refine List.pairwise_cons.mpr ⟨?_, ?_⟩
    · intro w hw
      have hmet := h.met_of_mem w hw
      have hlt := h.number_lt w hmet
      have heq := hext.number_eq hmet
      omega
    · refine h.descending.imp_of_mem ?_
      intro a b ha hb hlt
      rw [hext.number_eq (h.met_of_mem a ha), hext.number_eq (h.met_of_mem b hb)]
      exact hlt

/-! #### Taking a component off the stack -/

theorem pop?_append {new old : List String} (h : v ∉ new) :
    pop? v (new ++ v :: old) = some (new ++ [v], old) := by
  induction new with
  | nil => simp [pop?]
  | cons w new ih =>
      have hne : w ≠ v := fun heq => h (heq ▸ List.mem_cons_self)
      have hmem : v ∉ new := fun hmem => h (List.mem_cons_of_mem w hmem)
      rw [List.cons_append, pop?, if_neg hne, ih hmem]
      rfl

/-- The stack has the nodes that were discovered since `v` above it. -/
theorem Tidy.not_mem_of_stack_eq (h : s.Tidy) {new old : List String}
    (hstack : s.stack = new ++ v :: old) : v ∉ new := by
  intro hv
  have hnodup := h.nodup
  rw [hstack] at hnodup
  exact List.disjoint_of_nodup_append hnodup hv List.mem_cons_self

/-- Closing a node either takes everything down to it off the stack or leaves the state as it is. -/
theorem Tidy.close?_eq_some (h : s.Tidy) {new old : List String}
    (hstack : s.stack = new ++ v :: old) {number lowest : Nat}
    (hclose : s.close? v number lowest = some s') :
    (lowest = number ∧ s' =
      { s with
        stack := old
        found := if new ≠ [] then s.found ++ [(new ++ [v]).reverse] else s.found }) ∨
    (lowest ≠ number ∧ s' = s) := by
  rw [close?] at hclose
  split at hclose
  · rename_i hroot
    rw [hstack, pop?_append (h.not_mem_of_stack_eq hstack)] at hclose
    refine .inl ⟨hroot, ?_⟩
    rw [← Option.some.inj hclose]
    cases new with
    | nil => rfl
    | cons w new => simp
  · rename_i hinner
    exact .inr ⟨hinner, (Option.some.inj hclose).symm⟩

/-- Closing a node leaves the stack below it and all numbers as they were. -/
theorem Tidy.extends_of_close? {t u : Search} (ht : t.Tidy) (hext : (s.discover v).Extends t)
    {number lowest : Nat} (hclose : t.close? v number lowest = some u) :
    u.Tidy ∧ s.Extends u := by
  have hext' := (extends_discover s v).trans hext
  obtain ⟨new, hstack⟩ := hext.stack
  rcases ht.close?_eq_some hstack.symm hclose with ⟨-, rfl⟩ | ⟨-, rfl⟩
  · refine ⟨⟨ht.number_lt, ?_, ?_⟩, ⟨List.suffix_rfl, hext'.discovered⟩⟩
    · exact fun w hw => ht.met_of_mem w (hext'.stack.subset hw)
    · exact ht.descending.sublist hext'.stack.sublist
  · exact ⟨ht, hext'⟩

end Search

open Search

variable {g : DependencyGraph}

/-- A run leaves what was on the stack, and all numbers, as they were. -/
theorem Scans.frame {low low' : Nat} {ws : List String} {s s' : Search}
    (h : g.Scans low ws s low' s') (hs : s.Tidy) : s'.Tidy ∧ s.Extends s' := by
  induction h with
  | done => exact ⟨hs, .refl _⟩
  | known _ _ ih => exact ih hs
  | fresh hw _ hclose _ ih ih' =>
      obtain ⟨ht, hext⟩ := ih (hs.discover (not_met_iff.mpr hw))
      obtain ⟨hu, hext'⟩ := ht.extends_of_close? hext hclose
      obtain ⟨hs', hext''⟩ := ih' hu
      exact ⟨hs', hext'.trans hext''⟩

/-! ### The bounded search is a run -/

/-- One name is searched with a bound on the depth, and the lowest number is updated. -/
def advance (g : DependencyGraph) (fuel : Nat) (p : Nat × Search) (w : String) : Nat × Search :=
  match p.2.discovered.lookup w with
  | none => (min p.1 (g.visit fuel w p.2).1, (g.visit fuel w p.2).2)
  | some n => (if p.2.stack.contains w then min p.1 n else p.1, p.2)

theorem visit_succ (fuel : Nat) (v : String) (s : Search) :
    g.visit (fuel + 1) v s =
      let p := (g.neighbors v).foldl (g.advance fuel) (s.discovered.length, s.discover v)
      if p.1 = s.discovered.length then (p.1, p.2.complete v) else p := rfl

theorem advance_of_none {fuel low : Nat} {s : Search} {w : String}
    (hw : s.discovered.lookup w = none) :
    g.advance fuel (low, s) w = (min low (g.visit fuel w s).1, (g.visit fuel w s).2) := by
  simp only [advance, hw]

theorem advance_of_some {fuel low n : Nat} {s : Search} {w : String}
    (hw : s.discovered.lookup w = some n) :
    g.advance fuel (low, s) w = (if s.stack.contains w then min low n else low, s) := by
  simp only [advance, hw]

/-- The search of a whole graph is that of the list of its nodes. -/
theorem components_eq (g : DependencyGraph) :
    g.components = (g.nodes.foldl (g.advance g.nodeList.length) (0, {})).2.found := by
  let step (s : Search) (v : String) : Search :=
    match s.discovered.lookup v with
    | none => (visit g g.nodeList.length v s).2
    | some _ => s
  have hstep (low : Nat) (s : Search) (w : String) :
      step s w = (g.advance g.nodeList.length (low, s) w).2 := by
    cases hw : s.discovered.lookup w with
    | none => simp only [step, hw, advance_of_none hw]
    | some n => simp only [step, hw, advance_of_some hw]
  have hsame (ws : List String) (low : Nat) (s : Search) :
      ws.foldl step s = (ws.foldl (g.advance g.nodeList.length) (low, s)).2 := by
    induction ws generalizing low s with
    | nil => rfl
    | cons w ws ih =>
        rw [List.foldl_cons, List.foldl_cons, hstep low]
        exact ih _ _
  exact congrArg Search.found (hsame g.nodes 0 {})

/-- Completing a component takes it off the stack node by node. -/
theorem Search.close?_eq_complete {s : Search} {v : String} {number : Nat} (hv : v ∈ s.stack) :
    s.close? v number number = some (s.complete v) := by
  have hpop (stack : List String) (hmem : v ∈ stack) :
      pop? v stack =
        some (stack.takeWhile (· != v) ++ [v], (stack.dropWhile (· != v)).drop 1) := by
    induction stack with
    | nil => exact absurd hmem List.not_mem_nil
    | cons w stack ih =>
        by_cases hw : w = v
        · subst hw
          simp [pop?]
        · have hmem' : v ∈ stack := (List.mem_cons.mp hmem).resolve_left (Ne.symm hw)
          simp [pop?, hw, ih hmem']
  rw [close?, if_pos rfl, hpop _ hv]
  rfl

/-- The number of nodes that are left to discover. -/
def unmet (g : DependencyGraph) (s : Search) : Nat :=
  (g.nodeList.filter fun v => (s.discovered.lookup v).isNone).length

theorem unmet_le_of_extends {s s' : Search} (h : s.Extends s') : g.unmet s' ≤ g.unmet s := by
  refine (List.monotone_filter_right g.nodeList ?_).length_le
  intro v hv
  rw [Option.isNone_iff_eq_none, ← not_met_iff] at hv ⊢
  exact fun hmet => hv (h.met hmet)

theorem unmet_discover_lt {s : Search} {v : String} (hv : v ∈ g.nodeList) (hmet : ¬s.Met v) :
    g.unmet (s.discover v) < g.unmet s := by
  have hsub : (g.nodeList.filter fun w => ((s.discover v).discovered.lookup w).isNone) =
      (g.nodeList.filter fun w => (s.discovered.lookup w).isNone).filter (· ≠ v) := by
    rw [List.filter_filter]
    refine List.filter_congr fun w _ => ?_
    rw [lookup_discover hmet]
    by_cases hw : w = v
    · simp [hw]
    · simp [hw]
  rw [unmet, unmet, hsub]
  refine List.length_filter_lt_length_iff_exists.mpr ⟨v, ?_, by simp⟩
  simpa [hv] using not_met_iff.mp hmet

/-- The node `w` is searched through from the state `s`, and the state is `u` afterwards. -/
def Visits (g : DependencyGraph) (w : String) (s : Search) (lowest : Nat) (u : Search) : Prop :=
  ∃ t, g.Scans s.discovered.length (g.neighbors w) (s.discover w) lowest t ∧
    t.close? w s.discovered.length lowest = some u

/-- The bounded search of a list is a run as soon as that of a single node is one. -/
theorem scans_foldl {fuel : Nat}
    (hvisit : ∀ w ∈ g.nodeList, ∀ s : Search, s.Tidy → ¬s.Met w → g.unmet s ≤ fuel →
      g.Visits w s (g.visit fuel w s).1 (g.visit fuel w s).2)
    {ws : List String} (hws : ws ⊆ g.nodeList) {low : Nat} {s : Search} (hs : s.Tidy)
    (hfuel : g.unmet s ≤ fuel) :
    g.Scans low ws s (ws.foldl (g.advance fuel) (low, s)).1
      (ws.foldl (g.advance fuel) (low, s)).2 := by
  induction ws generalizing low s with
  | nil => exact .done
  | cons w ws ih =>
      obtain ⟨hw, hws⟩ := List.cons_subset.mp hws
      rw [List.foldl_cons]
      cases hlookup : s.discovered.lookup w with
      | some n =>
          rw [advance_of_some hlookup]
          exact .known hlookup (ih hws hs hfuel)
      | none =>
          obtain ⟨t, hscans, hclose⟩ := hvisit w hw s hs (not_met_iff.mpr hlookup) hfuel
          obtain ⟨ht, hext⟩ := hscans.frame (hs.discover (not_met_iff.mpr hlookup))
          obtain ⟨hu, hext'⟩ := ht.extends_of_close? hext hclose
          have hfuel' : g.unmet (g.visit fuel w s).2 ≤ fuel :=
            Nat.le_trans (unmet_le_of_extends hext') hfuel
          rw [advance_of_none hlookup]
          exact .fresh hlookup hscans hclose (ih hws hu hfuel')

/-- The bounded search of a node is a run if its bound is not below the number of nodes that are
left to discover. -/
theorem visits_visit (hg : g.Closed) (fuel : Nat) {w : String} (hw : w ∈ g.nodeList) {s : Search}
    (hs : s.Tidy) (hmet : ¬s.Met w) (hfuel : g.unmet s ≤ fuel) :
    g.Visits w s (g.visit fuel w s).1 (g.visit fuel w s).2 := by
  have hlt := unmet_discover_lt hw hmet
  induction fuel generalizing w s with
  | zero => omega
  | succ fuel ih =>
      have hneighbors : g.neighbors w ⊆ g.nodeList := fun _ h => hg.mem_of_neighbor h
      have hscans : g.Scans s.discovered.length (g.neighbors w) (s.discover w) _ _ :=
        scans_foldl (fun w hw s hs hmet hfuel => ih hw hs hmet hfuel (unmet_discover_lt hw hmet))
          hneighbors (hs.discover hmet) (by omega)
      obtain ⟨-, hext⟩ := hscans.frame (hs.discover hmet)
      rw [visit_succ]
      dsimp only
      split
      · rename_i hroot
        refine ⟨_, hscans, ?_⟩
        rw [hroot]
        exact close?_eq_complete (hext.stack.subset List.mem_cons_self)
      · rename_i hinner
        exact ⟨_, hscans, if_neg hinner⟩

theorem Search.tidy_empty : ({} : Search).Tidy :=
  ⟨fun _ hv => absurd hv Bool.false_ne_true, fun _ hv => absurd hv List.not_mem_nil, .nil⟩

/-- **The search comes to an end.** The search of a whole graph never takes a node off an empty
stack, and its outcome is that of `components`. -/
theorem exists_runs (hg : g.Closed) : ∃ s, g.Runs s ∧ s.found = g.components := by
  have hnodes : g.nodes ⊆ g.nodeList := fun _ h => mem_nodes.mp h
  have hfuel : g.unmet {} ≤ g.nodeList.length := List.length_filter_le _ _
  refine ⟨_, ⟨_, scans_foldl ?_ hnodes tidy_empty hfuel⟩, (components_eq g).symm⟩
  exact fun w hw s hs hmet hfuel => visits_visit hg _ hw hs hmet hfuel

end ClassAudit.DependencyGraph
