import ClassAudit.Proofs.DirectivePattern
import Mathlib.Data.List.Basic
import Mathlib.Data.List.TakeWhile

/-!
# Directives are read back

A rule is spelled as a `nolint:` line by its linter, its class, its member and its reason. The line
is read back to the same rule, wherever it is indented and even where the parts hold the characters
that separate parts: a class may end in `//*`, a member may hold `//` behind its first character, and
a reason may begin with `//` itself. No part has to be quoted, because the preferred reading of a
line takes the words whole, and goes back into a word only if the rest cannot be read otherwise.

## Main definitions

* `Text.Trims` - a text and what is left of it without the blanks around it.
* `Suppression.Spellable` - the rules that directives can spell.
* `Suppression.directive` - the directive of a rule.

## Main statements

* `Text.trims_iff` - what stands around a trimmed text is removed.
* `Suppression.memberPart?_memberText` - the member and the reason are read back.
* `Suppression.directiveParts?_spelled` - the class, the member and the reason are read back.
* `Suppression.fields?_directive` - the fields of a directive are the parts of its rule.
* `Suppression.directive_read_back` - **a directive is read back to its rule**, whatever blanks
  stand around it.
-/

namespace ClassAudit

/-! ### Ends of texts -/

namespace Text

theorem isBlank_of_isAsciiBlank {c : Char} (h : isAsciiBlank c) : isBlank c := by
  simp only [isAsciiBlank, Bool.or_eq_true, beq_iff_eq] at h
  obtain (((rfl | rfl) | rfl) | rfl) | rfl := h <;> decide

theorem isAsciiBlank_of_isBlank_eq_false {c : Char} (h : isBlank c = false) :
    isAsciiBlank c = false :=
  Bool.eq_false_iff.mpr fun hc => Bool.eq_false_iff.mp h (isBlank_of_isAsciiBlank hc)

/-- A text that neither begins nor ends with a blank. -/
structure Trimmed (s : List Char) : Prop where
  head : ∀ c ∈ s.head?, isBlank c = false
  last : ∀ c ∈ s.getLast?, isBlank c = false

theorem Trimmed.of_forall {s : List Char} (h : ∀ c ∈ s, isBlank c = false) : Trimmed s :=
  ⟨fun c hc => h c (List.mem_of_head? hc), fun c hc => h c (List.mem_of_getLast? hc)⟩

theorem dropWhile_append_of_head {p : Char → Bool} {s t : List Char} (hs : ∀ c ∈ s, p c)
    (ht : ∀ c ∈ t.head?, p c = false) : (s ++ t).dropWhile p = t := by
  rw [List.dropWhile_append_of_pos hs]
  cases t with
  | nil => rfl
  | cons c t => exact List.dropWhile_cons_of_neg (Bool.eq_false_iff.mp (ht c rfl))

/-- What stands around a trimmed text is removed. -/
theorem trimEnds_append {before s after : List Char} (hbefore : ∀ c ∈ before, isBlank c)
    (hafter : ∀ c ∈ after, isBlank c) (h : Trimmed s) :
    trimEnds isBlank (before ++ (s ++ after)) = s := by
  cases s with
  | nil =>
      have hall : ∀ c ∈ before ++ after, isBlank c := fun c hc =>
        (List.mem_append.mp hc).elim (hbefore c) (hafter c)
      rw [List.nil_append, trimEnds, List.dropWhile_eq_nil_iff.mpr hall]
      rfl
  | cons c s =>
      have hhead : ∀ d ∈ (c :: s ++ after).head?, isBlank d = false := h.head
      have hlast : ∀ d ∈ (c :: s).reverse.head?, isBlank d = false := by
        rw [List.head?_reverse]
        exact h.last
      have hafter' : ∀ d ∈ after.reverse, isBlank d := fun d hd =>
        hafter d (List.mem_reverse.mp hd)
      rw [trimEnds, dropWhile_append_of_head hbefore hhead, dropTailWhile, List.reverse_append,
        dropWhile_append_of_head hafter' hlast, List.reverse_reverse]

/-- What is left of a text without the blanks around it. -/
structure Trims (s t : List Char) : Prop where
  trimmed : Trimmed t
  around : ∃ before after, (∀ c ∈ before, isBlank c) ∧ (∀ c ∈ after, isBlank c) ∧
    s = before ++ (t ++ after)

theorem trims_trimEnds (s : List Char) : Trims s (trimEnds isBlank s) := by
  have hfront : s.takeWhile isBlank ++ s.dropWhile isBlank = s := List.takeWhile_append_dropWhile
  have hhead : ∀ c ∈ (s.dropWhile isBlank).head?, isBlank c = false := fun c hc => by
    simpa [Option.mem_def.mp hc] using List.head?_dropWhile_not isBlank s
  rw [trimEnds, dropTailWhile]
  generalize s.dropWhile isBlank = t at hfront hhead
  have hback := List.takeWhile_append_dropWhile (p := isBlank) (l := t.reverse)
  have hlast : ∀ c ∈ (t.reverse.dropWhile isBlank).head?, isBlank c = false := fun c hc => by
    simpa [Option.mem_def.mp hc] using List.head?_dropWhile_not isBlank t.reverse
  have hafter : ∀ c ∈ (t.reverse.takeWhile isBlank).reverse, isBlank c := fun c hc =>
    List.mem_takeWhile_imp (List.mem_reverse.mp hc)
  generalize t.reverse.takeWhile isBlank = after at hback hafter
  generalize t.reverse.dropWhile isBlank = rest at hback hlast
  obtain rfl : t = rest.reverse ++ after.reverse := by
    rw [← List.reverse_append, hback, List.reverse_reverse]
  refine ⟨⟨fun c hc => ?_, fun c hc => hlast c ?_⟩, _, _, fun c hc => List.mem_takeWhile_imp hc,
    hafter, hfront.symm⟩
  · exact hhead c (by rw [List.head?_append, Option.mem_def.mp hc]; rfl)
  · rwa [List.getLast?_reverse] at hc

/-- There is only one way to take the blanks away. -/
theorem trims_iff {s t : List Char} : Trims s t ↔ trimEnds isBlank s = t := by
  constructor
  · rintro ⟨ht, before, after, hbefore, hafter, rfl⟩
    exact trimEnds_append hbefore hafter ht
  · rintro rfl
    exact trims_trimEnds s

theorem trim_of_trimmed {s : String} (h : Trimmed s.toList) : trim s = s := by
  have hnone : ∀ c ∈ ([] : List Char), isBlank c := by simp
  have htrim := trimEnds_append hnone hnone h
  rw [List.nil_append, List.append_nil] at htrim
  rw [trim, htrim, String.ofList_toList]

end Text

namespace Suppression

/-! ### Spelling a rule -/

/-- A rule that a directive can spell. -/
structure Spellable (r : Suppression) : Prop where
  linter_ne : r.linter ≠ ""
  linter_ink : ∀ c ∈ r.linter.toList, Text.isBlank c = false
  className_ne : r.className ≠ ""
  className_ink : ∀ c ∈ r.className.toList, Text.isBlank c = false
  member_ink : ∀ c ∈ r.member.toList, Text.isBlank c = false
  member_head : r.member.toList.head? ≠ some '/'
  reason_trimmed : Text.Trimmed r.reason.toList
  reason_line : '\n' ∉ r.reason.toList

/-- A member behind a space, if there is one. -/
def memberText (member : String) : String := if member = "" then "" else " " ++ member

/-- A reason behind its slashes, if there is one. -/
def reasonText (reason : String) : String := if reason = "" then "" else " // " ++ reason

/-- The directive of a rule. -/
def directive (r : Suppression) : String :=
  "nolint:" ++ r.linter ++ " " ++ r.className ++ memberText r.member ++ reasonText r.reason

theorem toList_directive (r : Suppression) : r.directive.toList =
    "nolint:".toList ++ (r.linter.toList ++ ' ' :: (r.className.toList ++
      ((memberText r.member).toList ++ (reasonText r.reason).toList))) := by
  simp [directive]

theorem toList_memberText {member : String} (h : member ≠ "") :
    (memberText member).toList = ' ' :: member.toList := by
  simp [memberText, h]

theorem toList_reasonText {reason : String} (h : reason ≠ "") :
    (reasonText reason).toList = ' ' :: '/' :: '/' :: ' ' :: reason.toList := by
  simp [reasonText, h]

/-! ### Reading the parts -/

section Words

variable {w s : List Char}

theorem takeWhile_word (hw : ∀ c ∈ w, Text.isBlank c = false)
    (hs : ∀ c ∈ s.head?, Text.isAsciiBlank c) :
    (w ++ s).takeWhile (!Text.isAsciiBlank ·) = w := by
  have hink : ∀ c ∈ w, !Text.isAsciiBlank c := fun c hc => by
    rw [Text.isAsciiBlank_of_isBlank_eq_false (hw c hc), Bool.not_false]
  rw [List.takeWhile_append_of_pos hink]
  cases s with
  | nil => rw [List.takeWhile_nil, List.append_nil]
  | cons c s => rw [List.takeWhile_cons_of_neg (by simp [hs c rfl]), List.append_nil]

theorem dropWhile_word (hw : ∀ c ∈ w, Text.isBlank c = false)
    (hs : ∀ c ∈ s.head?, Text.isAsciiBlank c) :
    (w ++ s).dropWhile (!Text.isAsciiBlank ·) = s :=
  Text.dropWhile_append_of_head
    (fun c hc => by rw [Text.isAsciiBlank_of_isBlank_eq_false (hw c hc), Bool.not_false])
    (fun c hc => by rw [hs c hc, Bool.not_true])

theorem head_space (s : List Char) : ∀ c ∈ (' ' :: s).head?, Text.isAsciiBlank c := by
  intro c hc
  obtain rfl := Option.some.inj hc
  rfl

theorem head_word {word : String} (hne : word ≠ "")
    (hword : ∀ c ∈ word.toList, Text.isBlank c = false) (s : List Char) :
    ∀ c ∈ (word.toList ++ s).head?, Text.isBlank c = false := by
  obtain ⟨d, w, hdw⟩ := List.exists_cons_of_ne_nil (String.toList_eq_nil_iff.not.mpr hne)
  rw [hdw]
  intro c hc
  obtain rfl := Option.some.inj hc
  exact hword d (hdw ▸ List.mem_cons_self)

/-- A space is all that is dropped before a text that does not begin with a blank. -/
theorem dropWhile_space (h : ∀ c ∈ s.head?, Text.isBlank c = false) :
    (' ' :: s).dropWhile Text.isAsciiBlank = s :=
  Text.dropWhile_append_of_head (s := [' ']) (List.forall_mem_singleton.mpr rfl)
    fun c hc => Text.isAsciiBlank_of_isBlank_eq_false (h c hc)

/-- A trimmed reason is read whole. -/
theorem reasonAfter?_of_trimmed (h : Text.Trimmed s) (hline : '\n' ∉ s) :
    reasonAfter? ('/' :: '/' :: ' ' :: s) = some s := by
  rw [reasonAfter?, dropWhile_space h.head]
  exact if_neg fun hmem => hline (List.contains_iff_mem.mp hmem)

end Words

section Spellable

variable {r : Suppression}

theorem head_reasonText : ∀ c ∈ (reasonText r.reason).toList.head?, Text.isAsciiBlank c := by
  by_cases hreason : r.reason = ""
  · simp [reasonText, hreason]
  · rw [toList_reasonText hreason]
    exact head_space _

theorem head_memberText : ∀ c ∈ ((memberText r.member).toList ++
    (reasonText r.reason).toList).head?, Text.isAsciiBlank c := by
  by_cases hmember : r.member = ""
  · rw [hmember]
    exact head_reasonText
  · rw [toList_memberText hmember]
    exact head_space _

theorem reasonAfter?_reasonText (h : r.Spellable) (hreason : r.reason ≠ "") :
    reasonAfter? ((reasonText r.reason).toList.dropWhile Text.isAsciiBlank) =
      some r.reason.toList := by
  rw [toList_reasonText hreason]
  exact reasonAfter?_of_trimmed h.reason_trimmed h.reason_line

/-- The member and the reason are read back. -/
theorem memberPart?_memberText (h : r.Spellable) (hmember : r.member ≠ "") :
    memberPart? ((memberText r.member).toList ++ (reasonText r.reason).toList) =
      some (r.member.toList, r.reason.toList) := by
  obtain ⟨c, w, hcw⟩ := List.exists_cons_of_ne_nil (String.toList_eq_nil_iff.not.mpr hmember)
  rw [memberPart?, toList_memberText hmember, List.cons_append,
    dropWhile_space (head_word hmember h.member_ink _)]
  split
  · rename_i hnil
    rw [hcw] at hnil
    cases hnil
  · rename_i hslash
    rw [hcw] at hslash
    obtain ⟨rfl, -⟩ := List.cons.inj hslash
    exact absurd (congrArg List.head? hcw) h.member_head
  · rw [takeWhile_word h.member_ink head_reasonText, dropWhile_word h.member_ink head_reasonText]
    by_cases hreason : r.reason = ""
    · rw [hreason]
      rfl
    · have hread := reasonAfter?_reasonText h hreason
      rw [toList_reasonText hreason] at hread ⊢
      simp only [hread, List.isEmpty_cons, Bool.false_eq_true, if_false]

/-- The class, the member and the reason are read back. -/
theorem directiveParts?_spelled (h : r.Spellable) :
    directiveParts? (r.className.toList ++
      ((memberText r.member).toList ++ (reasonText r.reason).toList)) =
        some (r.className.toList, r.member.toList, r.reason.toList) := by
  have hword : r.className.toList.isEmpty = false :=
    List.isEmpty_eq_false_iff.mpr (String.toList_eq_nil_iff.not.mpr h.className_ne)
  rw [directiveParts?, takeWhile_word h.className_ink head_memberText,
    dropWhile_word h.className_ink head_memberText]
  simp only [hword, Bool.false_eq_true, if_false]
  by_cases hmember : r.member = ""
  · by_cases hreason : r.reason = ""
    · rw [hmember, hreason]
      rfl
    · -- A member cannot begin with the slashes of a reason.
      have hread := reasonAfter?_reasonText h hreason
      rw [toList_reasonText hreason] at hread
      have hnone : memberPart? (' ' :: '/' :: '/' :: ' ' :: r.reason.toList) = none := rfl
      have hempty : (memberText r.member).toList = [] := by rw [hmember]; rfl
      simp only [hempty, List.nil_append, toList_reasonText hreason, hnone, hread,
        List.isEmpty_cons, Bool.false_eq_true, if_false]
      rw [hmember]
      rfl
  · rw [memberPart?_memberText h hmember, toList_memberText hmember]
    rfl

/-- A directive ends with its last part. -/
theorem Spellable.exists_directive_eq (h : r.Spellable) :
    ∃ s t : String, r.directive = s ++ t ∧ t ≠ "" ∧ Text.Trimmed t.toList := by
  by_cases hreason : r.reason = ""
  · by_cases hmember : r.member = ""
    · refine ⟨"nolint:" ++ r.linter ++ " ", r.className, ?_, h.className_ne,
        .of_forall h.className_ink⟩
      simp [directive, hmember, hreason, memberText, reasonText]
    · refine ⟨"nolint:" ++ r.linter ++ " " ++ r.className ++ " ", r.member, ?_, hmember,
        .of_forall h.member_ink⟩
      simp [directive, hmember, hreason, memberText, reasonText, String.append_assoc]
  · refine ⟨"nolint:" ++ r.linter ++ " " ++ r.className ++ memberText r.member ++ " // ", r.reason,
      ?_, hreason, h.reason_trimmed⟩
    simp [directive, hreason, reasonText, String.append_assoc]

theorem Spellable.trimmed_directive (h : r.Spellable) : Text.Trimmed r.directive.toList where
  head c hc := by
    rw [toList_directive] at hc
    obtain rfl := Option.some.inj hc
    rfl
  last := by
    obtain ⟨s, t, hst, hne, ht⟩ := h.exists_directive_eq
    rw [hst, String.toList_append,
      List.getLast?_append_of_ne_nil _ (String.toList_eq_nil_iff.not.mpr hne)]
    exact ht.last

/-- The fields of a directive are the parts of its rule. -/
theorem fields?_directive (h : r.Spellable) : Pattern.directive.fields? r.directive.toList =
    some [r.linter.toList, r.className.toList, r.member.toList, r.reason.toList] := by
  have hstart (s : List Char) : "nolint:".toList.isPrefixOf ("nolint:".toList ++ s) = true :=
    List.isPrefixOf_iff_prefix.mpr (List.prefix_append _ s)
  have hword : r.linter.toList.isEmpty = false :=
    List.isEmpty_eq_false_iff.mpr (String.toList_eq_nil_iff.not.mpr h.linter_ne)
  rw [Pattern.fields?, Pattern.directive, Pattern.first_seq_atEnd, toList_directive,
    Pattern.first_text (hstart _), List.drop_left, Pattern.andThen, Pattern.first_linter,
    takeWhile_word h.linter_ink (head_space _), dropWhile_word h.linter_ink (head_space _), hword,
    dropWhile_space (head_word h.className_ne h.className_ink _), directiveParts?_spelled h]
  rfl

/-- **A directive is read back to its rule**, whatever blanks stand around it. -/
theorem directive_read_back (h : r.Spellable) (before after : String)
    (hbefore : ∀ c ∈ before.toList, Text.isBlank c) (hafter : ∀ c ∈ after.toList, Text.isBlank c) :
    ofDirective? (before ++ r.directive ++ after) = some r := by
  have htrim : Text.trimEnds Text.isBlank (before ++ r.directive ++ after).toList =
      r.directive.toList := by
    rw [String.toList_append, String.toList_append, List.append_assoc,
      Text.trimEnds_append hbefore hafter h.trimmed_directive]
  rw [ofDirective?_eq, htrim, fields?_directive h, Option.bind_some, ofFields?,
    String.ofList_toList, String.ofList_toList, String.ofList_toList, String.ofList_toList,
    Text.trim_of_trimmed h.reason_trimmed]

/-- Every part of this rule holds slashes. -/
theorem directive_read_back_slashes :
    Spellable ⟨"Feature//Envy:", "com/example//*", "a//b/", "/x // y"⟩ ∧
      ofDirective? "\tnolint:Feature//Envy: com/example//* a//b/ // /x // y \u00a0" =
        some ⟨"Feature//Envy:", "com/example//*", "a//b/", "/x // y"⟩ := by
  have h : Spellable ⟨"Feature//Envy:", "com/example//*", "a//b/", "/x // y"⟩ :=
    ⟨by decide, by simp [Text.isBlank], by decide, by simp [Text.isBlank], by simp [Text.isBlank],
      by decide, ⟨by simp [Text.isBlank], by simp [Text.isBlank]⟩, by decide⟩
  exact ⟨h, directive_read_back h "\t" " \u00a0" (by simp [Text.isBlank]) (by simp [Text.isBlank])⟩

end Spellable

end Suppression

end ClassAudit
