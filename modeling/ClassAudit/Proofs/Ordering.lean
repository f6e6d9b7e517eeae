import ClassAudit.Text.Basic
import Mathlib.Data.List.Sort
import Mathlib.Data.String.Basic

/-!
# Ascending lists

Positions of labels, names and findings are sorted and listed once each. This loses no element, and
the elements of an ascending list are numbered by their places.

## Main statements

* `mem_eraseReps` - leaving repetitions out leaves no element out.
* `pairwise_eraseReps` - a sorted list without its repetitions ascends strictly.
* `nodup_eraseDups` - nothing occurs twice once the duplicates are erased.
* `filterMap_idxOf?_eq_range` - the places of an ascending list's elements, met in ascending order,
  are 0, 1, 2 and so on.
-/

namespace ClassAudit

variable {α : Type}

/-! ### Repetitions -/

section Repetitions

variable [BEq α]

/-- What was collected comes before what is still to be collected. -/
theorem eraseRepsBy_loop_eq_append (a : α) (as acc : List α) :
    List.eraseRepsBy.loop (· == ·) a as acc =
      acc.reverse ++ List.eraseRepsBy.loop (· == ·) a as [] := by
  induction as generalizing a acc with
  | nil => simp [List.eraseRepsBy.loop]
  | cons b as ih =>
      rw [List.eraseRepsBy.loop, List.eraseRepsBy.loop]
      cases a == b with
      | true => exact ih a acc
      | false =>
          show List.eraseRepsBy.loop (· == ·) b as (a :: acc) =
            acc.reverse ++ List.eraseRepsBy.loop (· == ·) b as [a]
          rw [ih b (a :: acc), ih b [a]]
          simp

variable [LawfulBEq α]

/-- Of two equal neighbours the first is left out. -/
theorem eraseReps_cons_self (a : α) (as : List α) :
    (a :: a :: as).eraseReps = (a :: as).eraseReps := by
  simp [List.eraseReps, List.eraseRepsBy, List.eraseRepsBy.loop]

theorem eraseReps_cons_of_ne {a b : α} (h : a ≠ b) (as : List α) :
    (a :: b :: as).eraseReps = a :: (b :: as).eraseReps := by
  show List.eraseRepsBy.loop (· == ·) a (b :: as) [] = a :: List.eraseRepsBy.loop (· == ·) b as []
  rw [List.eraseRepsBy.loop, beq_eq_false_iff_ne.mpr h]
  exact eraseRepsBy_loop_eq_append b as [a]

/-- Leaving repetitions out leaves no element out. -/
theorem mem_eraseReps {x : α} {l : List α} : x ∈ l.eraseReps ↔ x ∈ l := by
  induction l with
  | nil => rfl
  | cons a l ih =>
      cases l with
      | nil => rfl
      | cons b l =>
          by_cases hab : a = b
          · subst hab
            rw [eraseReps_cons_self, ih]
            simp
          · rw [eraseReps_cons_of_ne hab, List.mem_cons, ih, ← List.mem_cons]

/-- A sorted list without its repetitions ascends strictly. -/
theorem pairwise_eraseReps [PartialOrder α] {l : List α} (h : l.Pairwise (· ≤ ·)) :
    l.eraseReps.Pairwise (· < ·) := by
  induction l with
  | nil => exact .nil
  | cons a l ih =>
      obtain ⟨hle, hl⟩ := List.pairwise_cons.mp h
      cases l with
      | nil => exact List.pairwise_singleton _ a
      | cons b l =>
          by_cases hab : a = b
          · subst hab
            rw [eraseReps_cons_self]
            exact ih hl
          rw [eraseReps_cons_of_ne hab]
          have hlt : a < b := lt_of_le_of_ne (hle b List.mem_cons_self) hab
          refine .cons (fun x hx => hlt.trans_le ?_) (ih hl)
          obtain rfl | hx := List.mem_cons.mp (mem_eraseReps.mp hx)
          · exact le_rfl
          · exact (List.pairwise_cons.mp hl).1 x hx

/-- Sorted texts ascend. -/
theorem Text.pairwise_sorted (texts : List String) : (Text.sorted texts).Pairwise (· ≤ ·) := by
  have hsorted : (Text.sorted texts).Pairwise fun a b => decide (a ≤ b) :=
    List.pairwise_mergeSort (fun a b c => by simpa using String.le_trans)
      (fun a b => by simpa using String.le_total a b) texts
  exact hsorted.imp of_decide_eq_true

/-- Texts that are sorted and listed once each ascend strictly. -/
theorem Text.pairwise_sortedDistinct (texts : List String) :
    (Text.sortedDistinct texts).Pairwise (· < ·) :=
  pairwise_eraseReps (Text.pairwise_sorted texts)

/-- Different texts ascend strictly when they are sorted. -/
theorem Text.pairwise_sorted_of_nodup {texts : List String} (h : texts.Nodup) :
    (Text.sorted texts).Pairwise (· < ·) := by
  have hnodup : (Text.sorted texts).Nodup := (List.mergeSort_perm texts _).nodup_iff.mpr h
  exact (Text.pairwise_sorted texts).imp₂ (fun _ _ hle hne => lt_of_le_of_ne hle hne) hnodup

/-- Nothing occurs twice once the duplicates are erased. -/
theorem nodup_eraseDups (l : List α) : l.eraseDups.Nodup := by
  cases l with
  | nil => exact .nil
  | cons a l =>
      rw [List.eraseDups_cons, List.nodup_cons]
      constructor
      · rw [List.mem_eraseDups]
        simp
      · exact nodup_eraseDups (l.filter fun b => !b == a)
termination_by l.length
decreasing_by exact Nat.lt_succ_of_le (List.length_filter_le _ l)

end Repetitions

/-! ### Places -/

/-- The places of the elements of a list without duplicates. -/
theorem map_idxOf_eq_range [BEq α] [LawfulBEq α] {l : List α} (h : l.Nodup) :
    l.map l.idxOf = List.range l.length := by
  refine List.ext_getElem (by simp) fun n hn _ => ?_
  rw [List.length_map] at hn
  rw [List.getElem_map, List.getElem_range]
  exact h.idxOf_getElem n hn

theorem idxOf?_of_mem [BEq α] [LawfulBEq α] {l : List α} {a : α} (h : a ∈ l) :
    l.idxOf? a = some (l.idxOf a) := by
  obtain ⟨n, hn⟩ := Option.isSome_iff_exists.mp (List.isSome_idxOf?.mpr h)
  rw [hn, List.idxOf_eq_getD_idxOf?, hn]
  rfl

/-- The places of an ascending list's elements, met in ascending order, are 0, 1, 2 and so on. -/
theorem filterMap_idxOf?_eq_range {labels positions : List Nat}
    (hlabels : labels.Pairwise (· < ·)) (hpositions : positions.Pairwise (· < ·))
    (hsub : labels ⊆ positions) :
    positions.filterMap labels.idxOf? = List.range labels.length := by
  have hmem (x : Nat) : x ∈ positions.filter (· ∈ labels) ↔ x ∈ labels := by
    rw [List.mem_filter, decide_eq_true_eq]
    exact ⟨And.right, fun h => ⟨hsub h, h⟩⟩
  have hkept : positions.filter (· ∈ labels) = labels :=
    (hpositions.filter _).eq_of_mem_iff hlabels hmem
  have hplaces (l : List Nat) :
      l.filterMap labels.idxOf? = (l.filter (· ∈ labels)).map labels.idxOf := by
    induction l with
    | nil => rfl
    | cons x l ih =>
        rw [List.filterMap_cons]
        by_cases hx : x ∈ labels
        · rw [idxOf?_of_mem hx, List.filter_cons_of_pos (by simpa), List.map_cons, ih]
        · rw [List.idxOf?_eq_none_iff.mpr hx, List.filter_cons_of_neg (by simpa), ih]
  rw [hplaces, hkept, map_idxOf_eq_range hlabels.nodup]

end ClassAudit
