import ClassAudit.Proofs.Sites

/-!
# Monitors

Some linters go through a body once. They keep a state, which every element changes, and may tell
something about an element, which depends on the state before it. What such a monitor reports is
therefore told by the elements before each report and by nothing else.

## Main definitions

* `Monitor` - the two functions of a monitor; `Monitor.reports` - its run over a list.

## Main statements

* `Monitor.mem_reports` - a report is what is told in the state that the elements before leave
  behind.
* `Monitor.pairwise_reports` - reports come in the order of what they are about.
* `Body.mem_of_split` - what stands before a position.
-/

namespace ClassAudit

/-- A state machine that may tell something about each element. -/
structure Monitor (σ α β : Type) where
  /-- The state that an element leaves behind. -/
  next : σ → α → σ
  /-- What is told about an element in the state before it. -/
  told? : σ → α → Option β

namespace Monitor

variable {σ α β : Type} (M : Monitor σ α β)

/-- What is told about the elements of a list, beginning in a state. -/
def reports : σ → List α → List β
  | _, [] => []
  | s, x :: l => (M.told? s x).toList ++ reports (M.next s x) l

variable {M}

/-- A report is what is told in the state that the elements before leave behind. -/
theorem mem_reports {s : σ} {l : List α} {y : β} : y ∈ M.reports s l ↔
    ∃ earlier x later, l = earlier ++ x :: later ∧ M.told? (earlier.foldl M.next s) x = some y := by
  induction l generalizing s with
  | nil => simp [reports]
  | cons x l ih =>
      rw [reports, List.mem_append, Option.mem_toList, ih]
      constructor
      · rintro (htold | ⟨earlier, z, later, rfl, htold⟩)
        · exact ⟨[], x, l, rfl, htold⟩
        · exact ⟨x :: earlier, z, later, rfl, htold⟩
      · rintro ⟨earlier, z, later, heq, htold⟩
        cases earlier with
        | nil =>
            obtain ⟨rfl, rfl⟩ := List.cons.inj heq
            exact .inl htold
        | cons w earlier =>
            obtain ⟨rfl, rfl⟩ := List.cons.inj heq
            exact .inr ⟨earlier, z, later, rfl, htold⟩

/-- Reports that bear the position of their element come in the order of the elements, and there is
at most one for each. -/
theorem pairwise_reports {γ : Type} {M : Monitor σ (Nat × α) (Nat × γ)}
    (hposition : ∀ s x y, M.told? s x = some y → y.1 = x.1) {s : σ} {l : List (Nat × α)}
    (h : l.Pairwise (·.1 < ·.1)) : (M.reports s l).Pairwise (·.1 < ·.1) := by
  have hsublist : ((M.reports s l).map (·.1)).Sublist (l.map (·.1)) := by
    clear h
    induction l generalizing s with
    | nil => exact .slnil
    | cons x l ih =>
        rw [reports, List.map_append, List.map_cons]
        cases htold : M.told? s x with
        | none => exact ih.cons _
        | some y =>
            rw [Option.toList_some, List.map_singleton, List.singleton_append,
              hposition s x y htold]
            exact ih.cons_cons _
  exact List.pairwise_map.mp ((List.pairwise_map.mpr h).sublist hsublist)

end Monitor

/-- Before a position stand exactly the actions at smaller positions. -/
theorem Body.mem_of_split {b : Body} {earlier later : List (Nat × Action)} {x : Nat × Action}
    (h : b.indexed = earlier ++ x :: later) {y : Nat × Action} :
    y ∈ earlier ↔ y ∈ b.indexed ∧ y.1 < x.1 := by
  have hordered := b.pairwise_indexed
  rw [h, List.pairwise_append, List.pairwise_cons] at hordered
  obtain ⟨-, ⟨hlater, -⟩, hearlier⟩ := hordered
  rw [h, List.mem_append, List.mem_cons]
  constructor
  · exact fun hy => ⟨.inl hy, hearlier y hy x List.mem_cons_self⟩
  · rintro ⟨hy | rfl | hy, hlt⟩
    · exact hy
    · exact absurd hlt (Nat.lt_irrefl _)
    · exact absurd (hlater y hy) (Nat.lt_asymm hlt)

end ClassAudit
