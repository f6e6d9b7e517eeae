import ClassAudit.Detectors.SingleResponsibilityPrinciple
import ClassAudit.Proofs.Ordering
import Mathlib.Algebra.BigOperators.Fin
import Mathlib.Data.Nat.Choose.Basic

/-!
# Cohesion

The methods of a class belong together if they use the same fields. The linter counts the pairs of
methods that do not. It goes through each pair once, the earlier method first, but as two methods
share a field in either order, it does not matter in which order a class declares its members.

## Main definitions

* `SingleResponsibilityPrinciple.bodied` - the methods with code.
* `SingleResponsibilityPrinciple.ShareField` - two methods use a common field.
* `SingleResponsibilityPrinciple.HasState` - a class with fields, and with a method that uses one.
* `SingleResponsibilityPrinciple.unrelatedPairs` - the pairs of methods without a common field.

## Main statements

* `SingleResponsibilityPrinciple.disjointPairs_perm` - the number of pairs does not depend on the
  order.
* `SingleResponsibilityPrinciple.disjointPairs_map_eq_card` - it is the number of pairs of places.
* `SingleResponsibilityPrinciple.findings_declaration_order` - **the order in which members are
  declared does not matter**.
-/

namespace ClassAudit.SingleResponsibilityPrinciple

/-! ### Pairs without a common element -/

section Pairs

variable {a b : List String} {l l' : List (List String)}

theorem overlaps_iff : overlaps a b = true ↔ ∃ x ∈ a, x ∈ b := by
  rw [overlaps]
  split
  · simp only [List.any_eq_true, List.contains_iff_mem]
    exact exists_congr fun x => and_comm
  · simp only [List.any_eq_true, List.contains_iff_mem]

/-- It does not matter which of the two lists is gone through. -/
theorem overlaps_comm (a b : List String) : overlaps a b = overlaps b a := by
  rw [Bool.eq_iff_iff, overlaps_iff, overlaps_iff]
  exact exists_congr fun x => and_comm

/-- The number of pairs does not depend on the order. -/
theorem disjointPairs_perm (h : l.Perm l') : disjointPairs l = disjointPairs l' := by
  induction h with
  | nil => rfl
  | cons a h ih => rw [disjointPairs, disjointPairs, h.countP_eq, ih]
  | swap a b l =>
      simp only [disjointPairs, List.countP_cons, overlaps_comm b a]
      omega
  | trans _ _ ih ih' => exact ih.trans ih'

theorem disjointPairs_le (l : List (List String)) : disjointPairs l ≤ l.length.choose 2 := by
  induction l with
  | nil => rfl
  | cons a l ih =>
      have hfirst : l.countP (!overlaps a ·) ≤ l.length := List.countP_le_length
      rw [disjointPairs, List.length_cons, Nat.choose_succ_succ, Nat.choose_one_right]
      exact Nat.add_le_add hfirst ih

theorem countP_eq_card {α : Type} (p : α → Bool) (l : List α) :
    l.countP p = (Finset.univ.filter fun n : Fin l.length => p (l.get n)).card := by
  induction l with
  | nil => rfl
  | cons a l ih =>
      show _ = (Finset.univ.filter fun n : Fin (l.length + 1) => p ((a :: l).get n)).card
      rw [List.countP_cons, Fin.card_filter_univ_succ, ih]
      simp only [List.get_cons_zero, List.get_cons_succ']
      split <;> rfl

/-- The pairs are counted at their places. -/
theorem disjointPairs_map_eq_card {α : Type} (f : α → List String) (l : List α) :
    disjointPairs (l.map f) = (Finset.univ.filter fun p : Fin l.length × Fin l.length =>
      p.1 < p.2 ∧ overlaps (f (l.get p.1)) (f (l.get p.2)) = false).card := by
  rw [Finset.card_filter, Fintype.sum_prod_type]
  induction l with
  | nil => rfl
  | cons a l ih =>
      rw [List.map_cons, disjointPairs, ih, List.countP_map, countP_eq_card, Finset.card_filter]
      -- the first element with each later one, and then the pairs of later ones
      show _ = ∑ i : Fin (l.length + 1), ∑ j : Fin (l.length + 1), _
      rw [Fin.sum_univ_succ]
      congr 1
      · rw [Fin.sum_univ_succ]
        simp
      · refine Finset.sum_congr rfl fun i _ => ?_
        rw [Fin.sum_univ_succ]
        simp

end Pairs

/-! ### Methods without a common field -/

/-- The methods with code. -/
def bodied (c : ClassModel) : List MethodModel := c.methods.filter (!·.code.isEmpty)

/-- The name of the field that an action uses. -/
def fieldName (a : Action) : String := a.owner ++ "." ++ a.name

/-- Both methods use a field of the same owner and name. -/
def ShareField (m m' : MethodModel) : Prop :=
  ∃ i ∈ m.code.elements, ∃ j ∈ m'.code.elements, i.action.isFieldAccess = true ∧
    j.action.isFieldAccess = true ∧ fieldName i.action = fieldName j.action

instance (m m' : MethodModel) : Decidable (ShareField m m') :=
  inferInstanceAs (Decidable (∃ i ∈ m.code.elements, ∃ j ∈ m'.code.elements, _))

/-- The class has fields, and one of its methods uses a field. -/
def HasState (c : ClassModel) : Prop :=
  c.fields ≠ [] ∧ ∃ m ∈ c.methods, ∃ i ∈ m.code.elements, i.action.isFieldAccess = true

instance (c : ClassModel) : Decidable (HasState c) :=
  inferInstanceAs (Decidable (_ ∧ ∃ m ∈ c.methods, ∃ i ∈ m.code.elements, _))

/-- The places of two methods, the earlier one first, that use no common field. -/
def unrelatedPairs (methods : List MethodModel) :
    Finset (Fin methods.length × Fin methods.length) :=
  Finset.univ.filter fun p => p.1 < p.2 ∧ ¬ShareField (methods.get p.1) (methods.get p.2)

theorem mem_fieldsUsed {b : Body} {field : String} : field ∈ fieldsUsed b ↔
    ∃ i ∈ b.elements, i.action.isFieldAccess = true ∧ fieldName i.action = field := by
  rw [fieldsUsed, List.mem_eraseDups, List.mem_filterMap]
  refine exists_congr fun i => and_congr_right fun _ => ?_
  cases i.action with
  | field access m => simp [Action.isFieldAccess, fieldName, Action.owner, Action.name]
  | _ => simp [Action.isFieldAccess]

theorem overlaps_eq_false_iff {m m' : MethodModel} :
    overlaps (fieldsUsed m.code) (fieldsUsed m'.code) = false ↔ ¬ShareField m m' := by
  rw [← Bool.not_eq_true, overlaps_iff, not_iff_not]
  simp only [mem_fieldsUsed, ShareField]
  constructor
  · rintro ⟨_, ⟨i, hi, huses, rfl⟩, j, hj, huses', heq⟩
    exact ⟨i, hi, j, hj, huses, huses', heq.symm⟩
  · rintro ⟨i, hi, j, hj, huses, huses', heq⟩
    exact ⟨_, ⟨i, hi, huses, rfl⟩, j, hj, huses', heq.symm⟩

theorem isEmpty_fieldsUsed_eq_false_iff {b : Body} :
    (fieldsUsed b).isEmpty = false ↔ ∃ i ∈ b.elements, i.action.isFieldAccess = true := by
  simp only [List.isEmpty_eq_false_iff_exists_mem, mem_fieldsUsed]
  constructor
  · rintro ⟨_, i, hi, huses, -⟩
    exact ⟨i, hi, huses⟩
  · rintro ⟨i, hi, huses⟩
    exact ⟨_, i, hi, huses, rfl⟩

theorem disjointPairs_fieldsUsed (methods : List MethodModel) :
    disjointPairs (methods.map (fieldsUsed ·.code)) = (unrelatedPairs methods).card := by
  simp only [disjointPairs_map_eq_card, overlaps_eq_false_iff, unrelatedPairs]

/-- A class with fields has state exactly if one of the methods with code uses a field. -/
theorem any_usage_iff {c : ClassModel} (h : c.fields ≠ []) :
    ((bodied c).map (fieldsUsed ·.code)).any (!·.isEmpty) = true ↔ HasState c := by
  simp only [List.any_map, List.any_eq_true, Function.comp_apply, Bool.not_eq_true',
    isEmpty_fieldsUsed_eq_false_iff, bodied, List.mem_filter, HasState]
  constructor
  · rintro ⟨m, ⟨hm, -⟩, i, hi, huses⟩
    exact ⟨h, m, hm, i, hi, huses⟩
  · rintro ⟨-, m, hm, i, hi, huses⟩
    refine ⟨m, ⟨hm, ?_⟩, i, hi, huses⟩
    rw [Body.isEmpty, List.isEmpty_eq_false_iff_exists_mem]
    exact ⟨i, hi⟩

/-- What the linter counts. -/
theorem cohesion_fst_eq (c : ClassModel) :
    (cohesion c).1 = if HasState c then (unrelatedPairs (bodied c)).card else 0 := by
  rw [cohesion]
  split
  · rename_i hfields
    rw [if_neg fun h => h.1 (List.isEmpty_iff.mp hfields)]
  · rename_i hfields
    rw [← disjointPairs_fieldsUsed, apply_ite Prod.fst]
    exact if_congr (any_usage_iff (mt List.isEmpty_iff.mpr hfields)) rfl rfl

/-! ### Other orders -/

section Orders

variable {c : ClassModel} {fields : List FieldModel} {methods : List MethodModel}

/-- The same classes are called, whichever method comes first. -/
theorem length_collaborators_perm (h : methods.Perm c.methods) :
    (collaborators { c with fields, methods }).length = (collaborators c).length := by
  refine ((List.perm_ext_iff_of_nodup (nodup_eraseDups _) (nodup_eraseDups _)).mpr
    fun owner => ?_).length_eq
  rw [List.mem_eraseDups, List.mem_eraseDups]
  exact (h.flatMap_right _).mem_iff

theorem cohesion_perm (hfields : fields.Perm c.fields) (hmethods : methods.Perm c.methods) :
    cohesion { c with fields, methods } = cohesion c := by
  have husage := (hmethods.filter (!·.code.isEmpty)).map (fieldsUsed ·.code)
  have hempty : fields.isEmpty = c.fields.isEmpty := by
    rw [Bool.eq_iff_iff, List.isEmpty_iff_length_eq_zero, List.isEmpty_iff_length_eq_zero,
      hfields.length_eq]
  simp only [cohesion, hempty, husage.any_eq, disjointPairs_perm husage, husage.length_eq]

/-- **The order in which members are declared does not matter.** A class whose fields and methods
are declared in another order has the same findings. Two of its methods with code are counted as
unrelated if they use no common field; there are at most `n * (n - 1) / 2` such pairs, and none is
counted if the class has no state. -/
theorem findings_declaration_order (hfields : fields.Perm c.fields)
    (hmethods : methods.Perm c.methods) :
    (linter { c with fields, methods }).findings = (linter c).findings ∧
      (cohesion { c with fields, methods }).1 = (cohesion c).1 ∧
      (cohesion c).1 = (if HasState c then (unrelatedPairs (bodied c)).card else 0) ∧
      (cohesion c).1 ≤ (bodied c).length * ((bodied c).length - 1) / 2 := by
  have hcohesion := cohesion_perm hfields hmethods
  refine ⟨?_, by rw [hcohesion], cohesion_fst_eq c, ?_⟩
  · simp only [linter, hcohesion, length_collaborators_perm hmethods, hfields.length_eq,
      hmethods.length_eq]
  · rw [cohesion_fst_eq]
    split
    · have hle := disjointPairs_le ((bodied c).map (fieldsUsed ·.code))
      rwa [disjointPairs_fieldsUsed, List.length_map, Nat.choose_two_right] at hle
    · exact Nat.zero_le _

end Orders

/-- A method that reads one field. -/
def reader (field : String) : MethodModel where
  name := "read"
  desc := "()I"
  access := ⟨1⟩
  code := ⟨[⟨.load .reference 0, 0⟩, ⟨.field .getField ⟨"p/Big", field, "I"⟩, 1⟩,
    ⟨.return .int, 4⟩]⟩

/-- A class whose methods have nothing to do with each other. -/
def looseClass : ClassModel where
  name := "p/Big"
  fields := ["a", "b", "c", "d"].map fun field => ⟨field, "I", ⟨2⟩⟩
  methods := ["a", "b", "c", "d"].map reader

/-- All six pairs of four methods are unrelated, also when the members come in reverse order. -/
theorem looseClass_reversed :
    looseClass.fields.reverse.Perm looseClass.fields ∧
      looseClass.methods.reverse.Perm looseClass.methods ∧
      (linter { looseClass with fields := looseClass.fields.reverse
                                methods := looseClass.methods.reverse }).findings =
        (linter looseClass).findings ∧
      (cohesion { looseClass with fields := looseClass.fields.reverse
                                  methods := looseClass.methods.reverse }).1 = 6 := by
  have hfields := List.reverse_perm looseClass.fields
  have hmethods := List.reverse_perm looseClass.methods
  obtain ⟨hfindings, hcohesion, -⟩ := findings_declaration_order hfields hmethods
  exact ⟨hfields, hmethods, hfindings, hcohesion.trans (by decide +kernel)⟩

end ClassAudit.SingleResponsibilityPrinciple
