import ClassAudit.Proofs.Selection

/-!
# Finding classes by halving

The classes of a batch ascend by name, so a class can be found by halving the places where it can
stand. Looking from the start finds the same class, and it is the only one of its name. In a batch
that does not ascend, halving can miss a class that is there.

## Main definitions

* `placeOf` - the first place whose class is not below a name, found by halving.
* `Batch.search?` - the class with a dotted or internal name, found by halving.

## Main statements

* `placeOf_separates` - the place separates the names below from those that are not.
* `Batch.Ascending.search?_eq_lookup?` - halving finds what looking from the start finds.
-/

namespace ClassAudit

/-- The first place from `low` on whose class is not below the name, if there is one before `high`,
and otherwise `high`. -/
def placeOf (classes : List ClassModel) (name : String) (low high : Nat)
    (hhigh : high ≤ classes.length) : Nat :=
  if hlow : low < high then
    let middle := (low + high) / 2
    have hmiddle : middle < classes.length := by omega
    if classes[middle].name < name then placeOf classes name (middle + 1) high hhigh
    else placeOf classes name low middle (by omega)
  else low
termination_by high - low

/-- The class with a dotted or internal name, found by halving. -/
def Batch.search? (b : Batch) (name : String) : Option ClassModel :=
  (b.classes[placeOf b.classes (internalName name) 0 b.classes.length le_rfl]?).filter
    (·.name == internalName name)

section Place

variable {classes : List ClassModel} {name : String}

/-- Classes before a place that is below a name are below it, too. -/
theorem name_lt_of_le (h : classes.Pairwise fun c d => c.name < d.name) {i j : Nat} (hij : i ≤ j)
    (hj : j < classes.length) (hlt : classes[j].name < name) : classes[i].name < name := by
  obtain rfl | hij := Nat.eq_or_lt_of_le hij
  · exact hlt
  · exact String.lt_trans (List.pairwise_iff_getElem.mp h i j _ hj hij) hlt

/-- The place separates the names below from those that are not. What is known of the places outside
`low` and `high` is kept by each halving. -/
theorem placeOf_separates (h : classes.Pairwise fun c d => c.name < d.name) {low high : Nat}
    (hhigh : high ≤ classes.length) (hle : low ≤ high)
    (hbelow : ∀ i (hi : i < classes.length), i < low → classes[i].name < name)
    (habove : ∀ i (hi : i < classes.length), high ≤ i → ¬classes[i].name < name) :
    ∀ i (hi : i < classes.length),
      classes[i].name < name ↔ i < placeOf classes name low high hhigh := by
  fun_induction placeOf classes name low high hhigh with
  | case1 low high hhigh hlow middle hmiddle hlt ih =>
      have hbetween : middle < high := by omega
      exact ih hbetween (fun i hi hilow => name_lt_of_le h (by omega) hmiddle hlt) habove
  | case2 low high hhigh hlow middle hmiddle hge ih =>
      have hbetween : low ≤ middle := by omega
      refine ih hbetween hbelow fun i hi hmi hlt => hge ?_
      exact name_lt_of_le h hmi hi hlt
  | case3 low high hhigh hlow =>
      intro i hi
      constructor
      · intro hlt
        by_contra hge
        exact habove i hi (by omega) hlt
      · exact hbelow i hi

end Place

namespace Batch

variable {b : Batch}

/-- Halving finds the class with this name. -/
theorem Ascending.search?_eq_some_iff (h : b.Ascending) {name : String} {c : ClassModel} :
    b.search? name = some c ↔ c ∈ b.classes ∧ internalName name = c.name := by
  have hplace : ∀ i (hi : i < b.classes.length), b.classes[i].name < internalName name ↔
      i < placeOf b.classes (internalName name) 0 b.classes.length le_rfl :=
    placeOf_separates h le_rfl (Nat.zero_le _) (fun i _ hi => absurd hi (Nat.not_lt_zero i))
      (fun i hi hge => absurd hi (by omega))
  rw [search?, Option.filter_eq_some_iff, beq_iff_eq]
  constructor
  · rintro ⟨hfound, hname⟩
    exact ⟨List.mem_of_getElem? hfound, hname.symm⟩
  · rintro ⟨hc, hname⟩
    refine ⟨?_, hname.symm⟩
    obtain ⟨i, hi, rfl⟩ := List.getElem_of_mem hc
    -- The class is not below its own name, and all before it are.
    have hnot : ¬i < placeOf b.classes (internalName name) 0 b.classes.length le_rfl := by
      rw [← hplace i hi, hname]
      exact String.lt_irrefl _
    obtain heq | hlt := Nat.eq_or_lt_of_le (Nat.le_of_not_lt hnot)
    · rw [heq]
      exact List.getElem?_eq_getElem hi
    · have hbelow := List.pairwise_iff_getElem.mp h _ _ (hlt.trans hi) hi hlt
      rw [← hname] at hbelow
      exact absurd ((hplace _ (hlt.trans hi)).mp hbelow) (Nat.lt_irrefl _)

/-- Halving finds what looking from the start finds. -/
theorem Ascending.search?_eq_lookup? (h : b.Ascending) (name : String) :
    b.search? name = b.lookup? name := by
  ext c
  rw [h.search?_eq_some_iff, h.lookup?_eq_some_iff]

end Batch

end ClassAudit
