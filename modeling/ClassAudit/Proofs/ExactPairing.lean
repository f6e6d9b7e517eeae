import ClassAudit.Golden.Pairing
import ClassAudit.Proofs.Ordering
import ClassAudit.Proofs.Reading
import Mathlib.Data.List.Perm.Basic
import Mathlib.Data.Multiset.AddSub
import Std.Data.String.ToInt

/-!
# Passing cases

A case passes if its comparison tells nothing. Findings are compared key by key, and under each key
in two rounds: at first every expected finding takes one that fits it, then those left over take
what is left, fitting or not. A comparison that tells nothing has found a partner for every expected
finding and has none left, so each finding is accounted for exactly once. A key keeps findings of
different linters, classes, members and lines apart as long as no linter has a space and no class a
`#` in its name.

## Main definitions

* `ExpectedFinding.Meets` - a finding is one that was expected.

## Main statements

* `findingKey_inj`, `ExpectedFinding.Meets.same_place` - which findings a key keeps apart.
* `exists_rel_of_pairFitting` - the first round takes pairs that fit out of both lists.
* `Comparison.ofLeft_eq_empty_iff` - the second round tells nothing if all pairs fit.
* `perm_flatMap_filter` - the findings under all keys are the findings.
* `Comparison.bijective_of_isEmpty` - **a passing case pairs expected and actual findings one to
  one**.
-/

namespace ClassAudit

/-! ### Texts in texts -/

theorem Text.containsList_iff {α : Type} [BEq α] [LawfulBEq α] {t s : List α} :
    Text.containsList t s = true ↔ t <:+: s := by
  induction s with
  | nil => rw [containsList, List.isEmpty_iff, List.infix_nil]
  | cons a s ih =>
      rw [containsList, Bool.or_eq_true, List.isPrefixOf_iff_prefix, ih, List.infix_cons_iff]

/-- A text contains another one if it is that text with something before and behind it. -/
theorem Text.contains_iff {s t : String} :
    Text.contains s t = true ↔ ∃ before after, s = before ++ t ++ after := by
  rw [contains, containsList_iff]
  constructor
  · rintro ⟨before, after, h⟩
    refine ⟨String.ofList before, String.ofList after, ?_⟩
    rw [← String.toList_inj, String.toList_append, String.toList_append, String.toList_ofList,
      String.toList_ofList, h]
  · rintro ⟨before, after, rfl⟩
    exact ⟨before.toList, after.toList, by rw [String.toList_append, String.toList_append]⟩

theorem Text.sorted_eq_nil_iff {texts : List String} : Text.sorted texts = [] ↔ texts = [] := by
  rw [← List.length_eq_zero_iff, sorted, List.length_mergeSort, List.length_eq_zero_iff]

/-! ### Keys -/

/-- The first place of a mark tells what stands before it and behind it. -/
theorem append_cons_inj_of_not_mem {α : Type} {a : α} {s s' t t' : List α} (hs : a ∉ s)
    (hs' : a ∉ s') (h : s ++ a :: t = s' ++ a :: t') : s = s' ∧ t = t' := by
  induction s generalizing s' with
  | nil =>
      cases s' with
      | nil => exact ⟨rfl, (List.cons.inj h).2⟩
      | cons b s' => exact absurd (List.mem_cons.mpr (.inl (List.cons.inj h).1)) hs'
  | cons b s ih =>
      cases s' with
      | nil => exact absurd (List.mem_cons.mpr (.inl (List.cons.inj h).1.symm)) hs
      | cons b' s' =>
          obtain ⟨rfl, hrest⟩ := List.cons.inj h
          obtain ⟨rfl, rfl⟩ := ih (List.not_mem_of_not_mem_cons hs)
            (List.not_mem_of_not_mem_cons hs') hrest
          exact ⟨rfl, rfl⟩

theorem colon_not_mem_toString (n : Int) : ':' ∉ (toString n).toList := by
  have hdigits (k : Nat) : ':' ∉ Nat.toDigits 10 k := fun h =>
    absurd (Nat.isDigit_of_mem_toDigits (by decide) (by decide) h) (by decide)
  cases n with
  | ofNat k =>
      show ':' ∉ k.repr.toList
      simpa [Nat.repr] using hdigits k
  | negSucc k =>
      show ':' ∉ ("-" ++ (k + 1).repr).toList
      simpa [Nat.repr] using hdigits (k + 1)

/-- A key tells the linter up to its first space, the class from there up to the first `#`, the line
behind the last colon, and the member between them. -/
theorem findingKey_inj {linter linter' className className' member member' : String}
    {line line' : Int} (hlinter : ' ' ∉ linter.toList) (hlinter' : ' ' ∉ linter'.toList)
    (hclass : '#' ∉ className.toList) (hclass' : '#' ∉ className'.toList) :
    findingKey linter className member line = findingKey linter' className' member' line' ↔
      linter = linter' ∧ className = className' ∧ member = member' ∧ line = line' := by
  constructor
  · intro h
    rw [findingKey, findingKey, ← String.toList_inj] at h
    simp only [String.toList_append, List.append_assoc] at h
    obtain ⟨hl, h⟩ := append_cons_inj_of_not_mem hlinter hlinter' h
    obtain ⟨hc, h⟩ := append_cons_inj_of_not_mem hclass hclass' h
    -- the last colon is the first one from behind
    have hback : (toString line).toList.reverse ++ ':' :: member.toList.reverse =
        (toString line').toList.reverse ++ ':' :: member'.toList.reverse := by
      simpa using congrArg List.reverse h
    obtain ⟨hline, hmember⟩ := append_cons_inj_of_not_mem
      (mt List.mem_reverse.mp (colon_not_mem_toString line))
      (mt List.mem_reverse.mp (colon_not_mem_toString line')) hback
    refine ⟨String.toList_inj.mp hl, String.toList_inj.mp hc,
      String.toList_inj.mp (List.reverse_injective hmember), Int.repr_injective ?_⟩
    exact String.toList_inj.mp (List.reverse_injective hline)
  · rintro ⟨rfl, rfl, rfl, rfl⟩
    rfl

/-- With a `#` in the name of a class, two findings may share a key. -/
example : findingKey "DeadCode" "p/X#y" "z" 1 = findingKey "DeadCode" "p/X" "y#z" 1 := by decide

namespace ExpectedFinding

/-- The finding has the key, a message with the expected part and the suppression that were
expected. -/
structure Meets (e : ExpectedFinding) (f : Finding) : Prop where
  key : f.key = e.key
  message : ∃ before after, f.message = before ++ e.message ++ after
  suppressed : f.suppressed = e.suppressed

theorem messageFits_iff {e : ExpectedFinding} {f : Finding} :
    e.messageFits f = true ↔ ∃ before after, f.message = before ++ e.message ++ after := by
  rw [messageFits, Bool.or_eq_true, beq_iff_eq, Text.contains_iff, or_iff_right_iff_imp]
  intro hempty
  exact ⟨f.message, "", by simp [hempty]⟩

/-- Under one key, the findings that fit are those that were expected. -/
theorem meets_of_fits {e : ExpectedFinding} {f : Finding} (h : e.fits f = true)
    (hkey : f.key = e.key) : e.Meets f := by
  rw [fits, Bool.and_eq_true, beq_iff_eq] at h
  exact ⟨hkey, messageFits_iff.mp h.1, h.2.symm⟩

/-- A finding that was expected has the linter, the class, the member and the line that were
expected. -/
theorem Meets.same_place {e : ExpectedFinding} {f : Finding} (h : e.Meets f)
    (hlinter : ' ' ∉ e.linter.toList) (hlinter' : ' ' ∉ f.linter.toList)
    (hclass : '#' ∉ (internalName e.className).toList) (hclass' : '#' ∉ f.className.toList) :
    f.linter = e.linter ∧ f.className = internalName e.className ∧ f.member = e.member ∧
      f.line = e.line :=
  (findingKey_inj hlinter' hlinter hclass' hclass).mp h.key

end ExpectedFinding

/-! ### Lists without their order -/

section Rel

variable {α β κ : Type} {R : α → β → Prop}

theorem rel_of_forall₂ {as : List α} {bs : List β} (h : List.Forall₂ R as bs) :
    Multiset.Rel R ↑as ↑bs := by
  induction h with
  | nil => exact .zero
  | cons hab _ ih => exact .cons hab ih

theorem exists_perm_of_rel {as : List α} {bs : List β} (h : Multiset.Rel R ↑as ↑bs) :
    ∃ bs', bs'.Perm bs ∧ List.Forall₂ R as bs' := by
  induction as generalizing bs with
  | nil =>
      rw [Multiset.coe_nil, Multiset.rel_zero_left, Multiset.coe_eq_zero] at h
      exact ⟨[], by rw [h], .nil⟩
  | cons a as ih =>
      rw [← Multiset.cons_coe, Multiset.rel_cons_left] at h
      obtain ⟨b, rest, hab, hrest, hbs⟩ := h
      induction rest using Quotient.inductionOn with | _ rest
      obtain ⟨bs', hperm, hforall⟩ := ih hrest
      have hbs' : bs.Perm (b :: rest) := Multiset.coe_eq_coe.mp hbs
      exact ⟨b :: bs', (hperm.cons b).trans hbs'.symm, .cons hab hforall⟩

/-- The permuted list has the same elements, each at a place of its own. -/
theorem exists_equiv_of_perm [DecidableEq β] {bs bs' : List β} (h : bs'.Perm bs) :
    ∃ place : Fin bs'.length ≃ Fin bs.length, ∀ n, bs[place n] = bs'[n] :=
  ⟨⟨h.idxBij, h.symm.idxBij, h.idxBij_symm_leftInverse_idxBij, h.idxBij_symm_rightInverse_idxBij⟩,
    h.getElem_idxBij_eq_getElem⟩

/-- Lists that are related element by element in some order are related place by place. -/
theorem exists_equiv_of_rel [DecidableEq β] {as : List α} {bs : List β}
    (h : Multiset.Rel R ↑as ↑bs) :
    ∃ place : Fin as.length ≃ Fin bs.length, ∀ n, R as[n] bs[place n] := by
  obtain ⟨bs', hperm, hforall⟩ := exists_perm_of_rel h
  obtain ⟨place, hplace⟩ := exists_equiv_of_perm hperm
  refine ⟨(finCongr hforall.length_eq).trans place, fun n => ?_⟩
  have hn := hforall.get n.isLt (hforall.length_eq ▸ n.isLt)
  exact (hplace (n.cast hforall.length_eq)) ▸ hn

/-- The elements under different keys, taken together, are the elements under all of them. -/
theorem perm_flatMap_filter [DecidableEq κ] (key : α → κ) {keys : List κ} (hnodup : keys.Nodup)
    (as : List α) :
    (keys.flatMap fun k => as.filter (key · == k)).Perm (as.filter (key · ∈ keys)) := by
  induction keys with
  | nil => simp
  | cons k keys ih =>
      obtain ⟨hk, hkeys⟩ := List.nodup_cons.mp hnodup
      -- What has a key of `k :: keys` has the key `k` or another one.
      have hsplit := List.filter_append_perm (key · == k) (as.filter (key · ∈ k :: keys))
      have hfirst : (as.filter (key · ∈ k :: keys)).filter (key · == k) =
          as.filter (key · == k) := by
        rw [List.filter_filter]
        refine List.filter_congr fun a _ => ?_
        grind
      have hothers : (as.filter (key · ∈ k :: keys)).filter (fun a => !(key a == k)) =
          as.filter (key · ∈ keys) := by
        rw [List.filter_filter]
        refine List.filter_congr fun a _ => ?_
        grind
      rw [hfirst, hothers] at hsplit
      exact ((ih hkeys).append_left _).trans hsplit

/-- Lists that are related key by key are related as a whole. -/
theorem rel_of_keys [DecidableEq κ] {key : α → κ} {key' : β → κ} {keys : List κ}
    (hnodup : keys.Nodup) {as : List α} {bs : List β} (has : ∀ a ∈ as, key a ∈ keys)
    (hbs : ∀ b ∈ bs, key' b ∈ keys)
    (h : ∀ k ∈ keys, Multiset.Rel R ↑(as.filter (key · == k)) ↑(bs.filter (key' · == k))) :
    Multiset.Rel R ↑as ↑bs := by
  have hall (ks : List κ)
      (hks : ∀ k ∈ ks, Multiset.Rel R ↑(as.filter (key · == k)) ↑(bs.filter (key' · == k))) :
      Multiset.Rel R ↑(ks.flatMap fun k => as.filter (key · == k))
        ↑(ks.flatMap fun k => bs.filter (key' · == k)) := by
    induction ks with
    | nil => exact .zero
    | cons k ks ih =>
        obtain ⟨hk, hks⟩ := List.forall_mem_cons.mp hks
        rw [List.flatMap_cons, List.flatMap_cons, ← Multiset.coe_add, ← Multiset.coe_add]
        exact hk.add (ih hks)
  have has' := perm_flatMap_filter key hnodup as
  have hbs' := perm_flatMap_filter key' hnodup bs
  rw [List.filter_eq_self.mpr (by simpa using has)] at has'
  rw [List.filter_eq_self.mpr (by simpa using hbs)] at hbs'
  rw [← Multiset.coe_eq_coe.mpr has', ← Multiset.coe_eq_coe.mpr hbs']
  exact hall keys h

end Rel

/-! ### Findings with one key -/

theorem takeFirst_eq_some {α : Type} {p : α → Bool} {as rest : List α} {a : α}
    (h : takeFirst p as = some (a, rest)) : p a = true ∧ as.Perm (a :: rest) := by
  induction as generalizing rest with
  | nil => exact nomatch h
  | cons b as ih =>
      rw [takeFirst] at h
      split at h
      · rename_i hb
        obtain ⟨rfl, rfl⟩ := Prod.mk.inj (Option.some.inj h)
        exact ⟨hb, .refl _⟩
      · obtain ⟨⟨c, rest'⟩, htake, heq⟩ := Option.map_eq_some_iff.mp h
        obtain ⟨rfl, rfl⟩ := Prod.mk.inj heq
        obtain ⟨hc, hperm⟩ := ih htake
        exact ⟨hc, (hperm.cons b).trans (.swap c b rest')⟩

/-- The first round takes pairs that fit out of both lists, and nothing else. -/
theorem exists_rel_of_pairFitting (es : List ExpectedFinding) (fs : List Finding) :
    ∃ (paired : Multiset ExpectedFinding) (taken : Multiset Finding),
      Multiset.Rel (fun e f => e.fits f = true) paired taken ∧
      paired + (pairFitting es fs).1 = es ∧ taken + (pairFitting es fs).2 = fs := by
  induction es generalizing fs with
  | nil => exact ⟨0, 0, .zero, Multiset.zero_add _, Multiset.zero_add _⟩
  | cons e es ih =>
      rw [pairFitting]
      split
      · rename_i f rest htake
        obtain ⟨hfits, hperm⟩ := takeFirst_eq_some htake
        obtain ⟨paired, taken, hrel, hes, hfs⟩ := ih rest
        refine ⟨e ::ₘ paired, f ::ₘ taken, .cons hfits hrel, ?_, ?_⟩
        · rw [Multiset.cons_add, hes, Multiset.cons_coe]
        · rw [Multiset.cons_add, hfs, Multiset.cons_coe, Multiset.coe_eq_coe.mpr hperm]
      · obtain ⟨paired, taken, hrel, hes, hfs⟩ := ih fs
        refine ⟨paired, taken, hrel, ?_, hfs⟩
        rw [← Multiset.cons_coe, Multiset.add_cons, hes, Multiset.cons_coe]

theorem differences_eq_nil_iff (key : String) {e : ExpectedFinding} {f : Finding} :
    differences key e f = [] ↔ e.fits f = true := by
  rw [differences, List.append_eq_nil_iff, ExpectedFinding.fits, Bool.and_eq_true]
  simp

namespace Comparison

theorem append_eq_empty_iff {a b : Comparison} : append a b = {} ↔ a = {} ∧ b = {} := by
  cases a
  cases b
  simp only [append, mk.injEq, List.append_eq_nil_iff]
  tauto

/-- The second round tells nothing exactly if there are as many findings left as were expected, and
they fit one by one. -/
theorem ofLeft_eq_empty_iff {key : String} {es : List ExpectedFinding} {fs : List Finding} :
    ofLeft key es fs = {} ↔ List.Forall₂ (fun e f => e.fits f = true) es fs := by
  induction es generalizing fs with
  | nil => simp [ofLeft]
  | cons e es ih =>
      cases fs with
      | nil => simp [ofLeft, append_eq_empty_iff]
      | cons f fs =>
          rw [ofLeft, append_eq_empty_iff, ih, List.forall₂_cons, ← differences_eq_nil_iff key]
          simp

/-- A comparison that tells nothing has paired all findings. -/
theorem rel_of_ofKey {key : String} {es : List ExpectedFinding} {fs : List Finding}
    (h : ofKey key es fs = {}) :
    Multiset.Rel (fun (e : ExpectedFinding) (f : Finding) => e.fits f = true) ↑es ↑fs := by
  have hleft : ofLeft key (pairFitting es fs).1 (pairFitting es fs).2 = {} := h
  obtain ⟨paired, taken, hrel, hes, hfs⟩ := exists_rel_of_pairFitting es fs
  rw [← hes, ← hfs]
  exact hrel.add (rel_of_forall₂ (ofLeft_eq_empty_iff.mp hleft))

/-! ### All findings -/

theorem foldl_append_eq_empty_iff {α : Type} {compare : α → Comparison} {as : List α}
    {c : Comparison} :
    as.foldl (fun all a => append all (compare a)) c = {} ↔ c = {} ∧ ∀ a ∈ as, compare a = {} := by
  induction as generalizing c with
  | nil => simp
  | cons a as ih =>
      rw [List.foldl_cons, ih, append_eq_empty_iff, List.forall_mem_cons, and_assoc]

/-- Only the empty comparison has nothing to tell. -/
theorem isEmpty_iff {c : Comparison} : c.isEmpty = true ↔ c = {} := by
  cases c
  simp [isEmpty, details, Text.sorted_eq_nil_iff]

theorem nodup_keys (es : List ExpectedFinding) (fs : List Finding) : (keys es fs).Nodup :=
  (Text.pairwise_sortedDistinct _).nodup

theorem mem_keys {es : List ExpectedFinding} {fs : List Finding} {key : String} :
    key ∈ keys es fs ↔ key ∈ es.map (·.key) ++ fs.map (·.key) := by
  rw [keys, Text.sortedDistinct, Text.sorted, mem_eraseReps, List.mem_mergeSort]

/-- A comparison tells nothing exactly if it tells nothing under any key. -/
theorem isEmpty_ofFindings_iff {es : List ExpectedFinding} {fs : List Finding} :
    (ofFindings es fs).isEmpty = true ↔ ∀ key ∈ es.map (·.key) ++ fs.map (·.key),
      ofKey key (es.filter (·.key == key)) (fs.filter (·.key == key)) = {} := by
  rw [isEmpty_iff, ofFindings, foldl_append_eq_empty_iff]
  simp only [mem_keys, true_and]

/-- **A passing case pairs expected and actual findings one to one.** If the comparison tells
nothing, every expected finding has a place among the actual ones, no two share a place and none is
left over; and the finding at that place is one that was expected. -/
theorem bijective_of_isEmpty {es : List ExpectedFinding} {fs : List Finding}
    (h : (ofFindings es fs).isEmpty = true) :
    ∃ place : Fin es.length ≃ Fin fs.length,
      ∀ n : Fin es.length, es[n].Meets fs[place n] := by
  have hkeys := isEmpty_ofFindings_iff.mp h
  refine exists_equiv_of_rel (rel_of_keys (nodup_keys es fs)
    (fun e he => mem_keys.mpr (List.mem_append_left _ (List.mem_map_of_mem he)))
    (fun f hf => mem_keys.mpr (List.mem_append_right _ (List.mem_map_of_mem hf)))
    fun key hkey => ?_)
  refine (rel_of_ofKey (hkeys key (mem_keys.mp hkey))).mono fun e he f hf hfits => ?_
  have hekey : e.key = key := by simpa using (List.mem_filter.mp (Multiset.mem_coe.mp he)).2
  have hfkey : f.key = key := by simpa using (List.mem_filter.mp (Multiset.mem_coe.mp hf)).2
  exact ExpectedFinding.meets_of_fits hfits (hfkey.trans hekey.symm)

/-- Two findings with one key are expected, the second with any message, and one with another. -/
def sharedExpected : List ExpectedFinding :=
  [{ linter := "DeadCode", className := "p.Half", line := 3, message := "unreachable" },
    { linter := "UnusedVariables", className := "p/Half", member := "x", suppressed := true },
    { linter := "DeadCode", className := "p.Half", line := 3 }]

/-- What is found, in an order of its own. -/
def sharedFound : List Finding :=
  [{ linter := "DeadCode", category := .style, className := "p/Half", line := 3
     severity := .warning, message := "code after goto" },
    { linter := "DeadCode", category := .style, className := "p/Half", line := 3
      severity := .warning, message := "unreachable code" },
    { linter := "UnusedVariables", category := .style, className := "p/Half", member := "x"
      severity := .info, message := "never read", suppressed := true }]

/-- Findings that share a key are paired with those that were expected under it. -/
theorem bijective_shared :
    (ofFindings sharedExpected sharedFound).isEmpty = true ∧
      ∃ place : Fin sharedExpected.length ≃ Fin sharedFound.length,
        ∀ n : Fin sharedExpected.length, sharedExpected[n].Meets sharedFound[place n] := by
  have hpassed : (ofFindings sharedExpected sharedFound).isEmpty = true :=
    isEmpty_ofFindings_iff.mpr (by decide +kernel)
  exact ⟨hpassed, bijective_of_isEmpty hpassed⟩

end Comparison

end ClassAudit
