import ClassAudit.Lint.Suppression
import ClassAudit.Proofs.Ordering

/-!
# The order of reports

Findings are sorted by class, linter, line, member and message. Severity and category play no part,
and neither do the marks of suppression, so the order in which findings are collected could show in
a report. It does not where findings that agree in these five respects are the same.

## Main definitions

* `Finding.Keyed` - findings that the order of reports tells apart.

## Main statements

* `Finding.compare_eq_iff` - which findings the order does not tell apart.
* `Finding.Keyed.sort_eq_of_mem_iff` - what is reported depends only on what was collected.
* `Suppression.sort_apply` - sorting and marking can be done in either order.
-/

namespace ClassAudit

namespace Finding

theorem compare_eq_compareLex :
    compare = compareLex (compareOn className) (compareLex (compareOn linter)
      (compareLex (compareOn line) (compareLex (compareOn member) (compareOn message)))) := rfl

instance : Std.TransCmp compare := by
  rw [compare_eq_compareLex]
  infer_instance

/-- The order does not tell findings apart that agree in class, linter, line, member and message. -/
theorem compare_eq_iff {a b : Finding} :
    compare a b = .eq ↔ a.className = b.className ∧ a.linter = b.linter ∧ a.line = b.line ∧
      a.member = b.member ∧ a.message = b.message := by
  simp only [compare, Ordering.then_eq_eq, Std.LawfulEqCmp.compare_eq_iff_eq]

/-- Findings that the order of reports does not tell apart are the same. -/
def Keyed (fs : List Finding) : Prop := ∀ f ∈ fs, ∀ g ∈ fs, compare f g = .eq → f = g

theorem perm_sort (fs : List Finding) : (sort fs).Perm fs := List.mergeSort_perm fs _

theorem pairwise_sort (fs : List Finding) :
    (sort fs).Pairwise fun a b => (compare a b).isLE := by
  refine List.pairwise_mergeSort (fun a b c => Std.TransCmp.isLE_trans) (fun a b => ?_) fs
  rw [← Std.OrientedCmp.isGE_eq_isLE]
  cases compare b a with
  | lt | eq | gt => rfl

/-- What is reported does not depend on the order in which it was collected. -/
theorem Keyed.sort_eq {fs gs : List Finding} (hfs : Keyed fs) (h : fs.Perm gs) :
    sort fs = sort gs := by
  have hperm := (perm_sort fs).trans (h.trans (perm_sort gs).symm)
  refine hperm.eq_of_pairwise (fun f g hf hg hle hge => ?_) (pairwise_sort fs) (pairwise_sort gs)
  have hg' : g ∈ fs := (h.trans (perm_sort gs).symm).mem_iff.mpr hg
  refine hfs f ((perm_sort fs).mem_iff.mp hf) g hg' (Ordering.eq_eq_of_isLE_of_isGE hle ?_)
  exact Std.OrientedCmp.isGE_iff_isLE.mpr hge

theorem Keyed.eraseDups {fs : List Finding} (h : Keyed fs) : Keyed fs.eraseDups := fun f hf g hg =>
  h f (List.mem_eraseDups.mp hf) g (List.mem_eraseDups.mp hg)

/-- What is reported depends only on what was collected. -/
theorem Keyed.sort_eq_of_mem_iff {fs gs : List Finding} (h : Keyed fs) (hfs : fs.Nodup)
    (hgs : gs.Nodup) (hmem : ∀ f, f ∈ fs ↔ f ∈ gs) : sort fs = sort gs :=
  h.sort_eq ((List.perm_ext_iff_of_nodup hfs hgs).mpr hmem)

theorem mem_sort {fs : List Finding} {f : Finding} : f ∈ sort fs ↔ f ∈ fs := List.mem_mergeSort

end Finding

namespace Suppression

variable (rules : List Suppression)

/-- Marking leaves everything but the mark and its reason as it is. -/
theorem mark_eq (f : Finding) : mark rules f =
    { f with
      suppressed := (mark rules f).suppressed
      suppressReason := (mark rules f).suppressReason } := by
  rw [mark]
  split
  · rfl
  · rfl

theorem className_mark (f : Finding) : (mark rules f).className = f.className := by
  rw [mark_eq]

/-- Marks do not change the place of a finding in a report. -/
theorem compare_mark (f g : Finding) : (mark rules f).compare (mark rules g) = f.compare g := by
  rw [mark_eq rules f, mark_eq rules g]
  rfl

/-- Sorting and marking can be done in either order. -/
theorem sort_apply (fs : List Finding) :
    Finding.sort (apply rules fs) = apply rules (Finding.sort fs) := by
  refine (List.map_mergeSort fun f _ g _ => ?_).symm
  rw [compare_mark]

end Suppression

end ClassAudit
