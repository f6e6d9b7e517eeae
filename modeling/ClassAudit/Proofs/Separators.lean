import ClassAudit.Text.Basic
import Mathlib.Data.List.Basic

/-!
# Texts between separators

A text is cut at each separator. The pieces hold no separator, and joined by separators they give
the text again; there is only one such list of pieces.

## Main definitions

* `Text.Separates` - the pieces of a text between the places of a mark.

## Main statements

* `Text.splitWhere_eq_splitOnP` - cutting is the splitting of lists.
* `Text.not_mem_of_mem_splitWhere` - no piece holds a separator.
* `Text.separates_iff` - cutting gives the pieces.
-/

namespace ClassAudit.Text

section Cutting

variable {α : Type} {p : α → Bool} {s piece : List α}

theorem splitWhere_eq_splitOnP (p : α → Bool) (s : List α) : splitWhere p s = s.splitOnP p := by
  induction s with
  | nil => rfl
  | cons a s ih =>
      rw [splitWhere, List.splitOnP_cons_eq_if_modifyHead, ih]
      cases hpieces : s.splitOnP p with
      | nil => exact absurd hpieces (List.splitOnP_ne_nil p s)
      | cons piece pieces => rfl

/-- No piece of a split text holds a separator. -/
theorem not_mem_of_mem_splitWhere (h : piece ∈ splitWhere p s) {a : α} (ha : p a = true) :
    a ∉ piece := by
  induction s generalizing piece with
  | nil =>
      obtain rfl := List.mem_singleton.mp h
      exact List.not_mem_nil
  | cons b s ih =>
      rw [splitWhere] at h
      split at h
      · obtain rfl | h := List.mem_cons.mp h
        · exact List.not_mem_nil
        · exact ih h
      · rename_i hb
        have hne : a ≠ b := by
          rintro rfl
          exact hb ha
        split at h
        · obtain rfl := List.mem_singleton.mp h
          simpa using hne
        · rename_i first pieces hpieces
          obtain rfl | h := List.mem_cons.mp h
          · have hfirst := ih (hpieces ▸ List.mem_cons_self)
            simp [hne, hfirst]
          · exact ih (hpieces ▸ List.mem_cons_of_mem _ h)

variable {mark : α} {parts : List (List α)}

/-- The parts hold no mark, and with a mark between any two of them they are the text. -/
structure Separates (mark : α) (s : List α) (parts : List (List α)) : Prop where
  ne_nil : parts ≠ []
  free : ∀ part ∈ parts, mark ∉ part
  joined : [mark].intercalate parts = s

/-- A text has only one list of parts, the one that cutting gives. -/
theorem separates_iff [BEq α] [LawfulBEq α] :
    Separates mark s parts ↔ splitWhere (· == mark) s = parts := by
  constructor
  · rintro ⟨hne, hfree, rfl⟩
    rw [splitWhere_eq_splitOnP, ← List.splitOn_eq_splitOnP]
    exact List.splitOn_intercalate mark hfree hne
  · rintro rfl
    refine ⟨?_, fun part hpart => not_mem_of_mem_splitWhere hpart (beq_self_eq_true mark), ?_⟩
    · rw [splitWhere_eq_splitOnP]
      exact List.splitOnP_ne_nil _ s
    · rw [splitWhere_eq_splitOnP, ← List.splitOn_eq_splitOnP, List.intercalate_splitOn]

end Cutting

end ClassAudit.Text
