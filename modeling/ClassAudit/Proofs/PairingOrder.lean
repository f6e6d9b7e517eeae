import ClassAudit.Proofs.ExactPairing

/-!
# Pairing in another order

Under one key, each expected finding in turn takes the first finding that fits it and that is left.
Such a first choice is never taken back, so an expected finding that fits many findings can take the
only one that another fits. Whether a case passes can thus depend on the order of its lists. This
module tells exactly when it does not: if no order pairs the findings, or if expected findings that
compete for one finding compete for all of them.

## Main definitions

* `pairsOff` - both rounds of the comparison in one, for any relation between two lists.
* `Interchangeable` - what competes for one thing competes for the same things.
* `Comparison.Pairable` - expected and actual findings can be paired one to one.
* `Comparison.OrderFree` - the verdict is the same in every order of both lists.

## Main statements

* `pairsOff_of_rel` - first choices pair off what can be paired, if it is interchangeable.
* `interchangeable_of_pairsOff` - if not, some order gets stuck.
* `Comparison.isEmpty_ofFindings_iff_pairsOff` - the verdict is that of one round over all findings.
* `Comparison.orderFree_iff` - **when the order of the lists does not matter**.
-/

namespace ClassAudit

/-! ### First choices -/

section FirstChoices

variable {α : Type} {p q : α → Bool} {as rest : List α} {a : α}

theorem takeFirst_eq_none_iff : takeFirst p as = none ↔ ∀ a ∈ as, p a = false := by
  induction as with
  | nil => simp [takeFirst]
  | cons a as ih =>
      rw [takeFirst, List.forall_mem_cons, ← ih]
      cases p a with
      | true => simp
      | false => simp

/-- A choice among the elements that satisfy `q` is a choice among all elements. -/
theorem takeFirst_filter : takeFirst p (as.filter q) =
    (takeFirst (fun a => p a && q a) as).map fun (a, rest) => (a, rest.filter q) := by
  induction as with
  | nil => rfl
  | cons a as ih =>
      rw [takeFirst]
      cases hq : q a with
      | true =>
          rw [List.filter_cons_of_pos hq, takeFirst, Bool.and_true, ih, Option.map_map]
          cases p a with
          | true => rfl
          | false => simp [Function.comp_def, hq]
      | false =>
          rw [List.filter_cons_of_neg (by simp [hq]), ih, Bool.and_false, if_neg Bool.false_ne_true,
            Option.map_map]
          simp [Function.comp_def, hq]

/-- A choice leaves everything of another sort. -/
theorem filter_of_takeFirst (h : takeFirst p as = some (a, rest)) (ha : q a = false) :
    rest.filter q = as.filter q := by
  induction as generalizing rest with
  | nil => exact nomatch h
  | cons b as ih =>
      rw [takeFirst] at h
      split at h
      · obtain ⟨rfl, rfl⟩ := Prod.mk.inj (Option.some.inj h)
        rw [List.filter_cons_of_neg (by simp [ha])]
      · obtain ⟨⟨c, rest'⟩, htake, heq⟩ := Option.map_eq_some_iff.mp h
        obtain ⟨rfl, rfl⟩ := Prod.mk.inj heq
        rw [List.filter_cons, List.filter_cons, ih htake]

end FirstChoices

/-! ### Pairing off -/

/-- Does each element of the first list in turn take an element of the second, the first that `r`
relates it to and that is left, and is nothing left at the end? -/
def pairsOff {α β : Type} (r : α → β → Bool) : List α → List β → Bool
  | [], bs => bs.isEmpty
  | a :: as, bs =>
    match takeFirst (r a) bs with
    | some (_, rest) => pairsOff r as rest
    | none => false

/-- Elements of the first list that are related to a common element of the second are related to the
same elements of it. -/
def Interchangeable {α β : Type} (R : α → β → Prop) (as : List α) (bs : List β) : Prop :=
  ∀ a ∈ as, ∀ a' ∈ as, ∀ b ∈ bs, R a b → R a' b → ∀ b' ∈ bs, R a b' → R a' b'

section PairsOff

variable {α β : Type} {r : α → β → Bool} {as : List α} {bs : List β} {a : α}

theorem pairsOff_cons_iff : pairsOff r (a :: as) bs = true ↔
    ∃ b rest, takeFirst (r a) bs = some (b, rest) ∧ pairsOff r as rest = true := by
  rw [pairsOff]
  cases takeFirst (r a) bs with
  | none => simp
  | some taken => simp [Prod.ext_iff]

/-- Lists whose elements are related one by one are paired off in their order. -/
theorem pairsOff_of_forall₂ (h : List.Forall₂ (r · ·) as bs) : pairsOff r as bs = true := by
  induction h with
  | nil => rfl
  | @cons a b as bs hab _ ih => exact pairsOff_cons_iff.mpr ⟨b, bs, by simp [takeFirst, hab], ih⟩

/-- What is paired off is related one to one. -/
theorem rel_of_pairsOff (h : pairsOff r as bs = true) : Multiset.Rel (r · ·) ↑as ↑bs := by
  induction as generalizing bs with
  | nil =>
      rw [pairsOff, List.isEmpty_iff] at h
      exact h ▸ .zero
  | cons a as ih =>
      obtain ⟨b, rest, htake, hrest⟩ := pairsOff_cons_iff.mp h
      obtain ⟨hab, hperm⟩ := takeFirst_eq_some htake
      rw [← Multiset.cons_coe, Multiset.coe_eq_coe.mpr hperm, ← Multiset.cons_coe]
      exact .cons hab (ih hrest)

/-- First choices pair off what can be paired, if it is interchangeable: the partner that a choice
takes away from another element is made up for by the one that it leaves. -/
theorem pairsOff_of_rel (h : Interchangeable (r · ·) as bs)
    (hrel : Multiset.Rel (r · ·) ↑as ↑bs) : pairsOff r as bs = true := by
  induction as generalizing bs with
  | nil =>
      rw [Multiset.coe_nil, Multiset.rel_zero_left, Multiset.coe_eq_zero] at hrel
      rw [hrel]
      rfl
  | cons a as ih =>
      rw [← Multiset.cons_coe, Multiset.rel_cons_left] at hrel
      obtain ⟨partner, others, hpartner, hothers, hbs⟩ := hrel
      have hmem : partner ∈ bs := by
        rw [← Multiset.mem_coe, hbs]
        exact Multiset.mem_cons_self _ _
      cases htake : takeFirst (r a) bs with
      | none => exact absurd hpartner (by simp [takeFirst_eq_none_iff.mp htake partner hmem])
      | some taken =>
          obtain ⟨b, rest⟩ := taken
          obtain ⟨hab, hperm⟩ := takeFirst_eq_some htake
          have hrest : rest ⊆ bs := fun x hx => hperm.mem_iff.mpr (List.mem_cons_of_mem b hx)
          have hb : b ∈ bs := hperm.mem_iff.mpr List.mem_cons_self
          have hfree : Interchangeable (r · ·) as rest := fun x hx x' hx' y hy hxy hxy' z hz =>
            h x (List.mem_cons_of_mem a hx) x' (List.mem_cons_of_mem a hx') y (hrest hy) hxy hxy'
              z (hrest hz)
          refine pairsOff_cons_iff.mpr ⟨b, rest, htake, ih hfree ?_⟩
          rw [Multiset.coe_eq_coe.mpr hperm, ← Multiset.cons_coe, Multiset.cons_eq_cons] at hbs
          obtain ⟨-, heq⟩ | ⟨-, common, heq, hothers'⟩ := hbs
          · rwa [heq]
          · -- the element whose partner was taken gets the partner of the one that took it
            rw [hothers', Multiset.rel_cons_right] at hothers
            obtain ⟨a', as', hab', hcommon, has⟩ := hothers
            have ha' : a' ∈ as := by
              rw [← Multiset.mem_coe, has]
              exact Multiset.mem_cons_self _ _
            have hswap : r a' partner = true :=
              h a List.mem_cons_self a' (List.mem_cons_of_mem a ha') b hb hab hab' partner hmem
                hpartner
            rw [heq, has]
            exact .cons hswap hcommon

/-- After elements that are paired off in their order, two unrelated ones are left. -/
theorem pairsOff_append_of_not {a : α} {b : β} (h : List.Forall₂ (r · ·) as bs)
    (hab : r a b = false) : pairsOff r (as ++ [a]) (bs ++ [b]) = false := by
  induction h with
  | nil => simp [pairsOff, takeFirst, hab]
  | @cons x y as bs hxy _ ih => simpa [pairsOff, takeFirst, hxy] using ih

/-- If everything can be paired but two unrelated elements, some order gets stuck with them. -/
theorem exists_order_stuck {a : α} {b : β} {as' : Multiset α} {bs' : Multiset β}
    (has : (as : Multiset α) = a ::ₘ as') (hbs : (bs : Multiset β) = b ::ₘ bs')
    (h : Multiset.Rel (r · ·) as' bs') (hab : r a b = false) :
    ∃ xs ys, xs.Perm as ∧ ys.Perm bs ∧ pairsOff r xs ys = false := by
  induction as' using Quotient.inductionOn with | _ as'
  induction bs' using Quotient.inductionOn with | _ bs'
  obtain ⟨ys, hys, hforall⟩ := exists_perm_of_rel h
  have has' : as.Perm (a :: as') := Multiset.coe_eq_coe.mp has
  have hbs' : bs.Perm (b :: bs') := Multiset.coe_eq_coe.mp hbs
  refine ⟨as' ++ [a], ys ++ [b], ?_, ?_, pairsOff_append_of_not hforall hab⟩
  · exact (List.perm_append_singleton a as').trans has'.symm
  · exact (List.perm_append_singleton b ys).trans ((hys.cons b).trans hbs'.symm)

theorem exists_perm_cons_cons {α : Type} {as : List α} {a a' : α} (ha : a ∈ as) (ha' : a' ∈ as)
    (hne : a' ≠ a) : ∃ rest, as.Perm (a :: a' :: rest) := by
  obtain ⟨before, after, rfl⟩ := List.append_of_mem ha
  have hmem : a' ∈ before ++ after := by simpa [hne] using ha'
  obtain ⟨before', after', heq⟩ := List.append_of_mem hmem
  refine ⟨before' ++ after', List.perm_middle.trans ?_⟩
  rw [heq]
  exact List.perm_middle.cons a

/-- If every order pairs the lists off, whatever is left when all else is paired is related. -/
theorem related_of_pairsOff (h : ∀ xs ys, xs.Perm as → ys.Perm bs → pairsOff r xs ys = true)
    {a : α} {b : β} (as' : Multiset α) (bs' : Multiset β) (has : (as : Multiset α) = a ::ₘ as')
    (hbs : (bs : Multiset β) = b ::ₘ bs') (hrel : Multiset.Rel (r · ·) as' bs') :
    r a b = true := by
  by_contra hab
  obtain ⟨xs, ys, hxs, hys, hfails⟩ := exists_order_stuck has hbs hrel (by simpa using hab)
  exact absurd (h xs ys hxs hys) (by simp [hfails])

/-- If every order pairs the lists off, they are interchangeable. -/
theorem interchangeable_of_pairsOff
    (h : ∀ xs ys, xs.Perm as → ys.Perm bs → pairsOff r xs ys = true) :
    Interchangeable (r · ·) as bs := by
  -- `a` and `a'` compete for `b`, and it is to be shown that `a'` can have `b'`, as `a` can
  intro a ha a' ha' b hb hab hab' b' hb' hab''
  by_contra hnot
  have hne : a' ≠ a := fun heq => hnot (heq ▸ hab'')
  have hne' : b' ≠ b := fun heq => hnot (heq ▸ hab')
  obtain ⟨as₂, has₁⟩ := exists_perm_cons_cons ha ha' hne
  obtain ⟨bs₂, hbs₁⟩ := exists_perm_cons_cons hb hb' hne'
  -- the order in which `a` takes `b` at first pairs the rest: `a'` with `c'`, and `c` with `b'`
  have hrest : Multiset.Rel (r · ·) (a' ::ₘ (as₂ : Multiset α)) (b' ::ₘ (bs₂ : Multiset β)) := by
    have hpaired := h (a :: a' :: as₂) (b :: b' :: bs₂) has₁.symm hbs₁.symm
    obtain ⟨_, rest, htake, hpaired⟩ := pairsOff_cons_iff.mp hpaired
    rw [takeFirst, if_pos hab] at htake
    obtain ⟨rfl, rfl⟩ := Prod.mk.inj (Option.some.inj htake)
    exact rel_of_pairsOff hpaired
  obtain ⟨c', cs', hac', hcs', heq'⟩ := Multiset.rel_cons_left.mp hrest
  have hne'' : b' ≠ c' := fun heq => hnot (heq ▸ hac')
  obtain ⟨bs₃, hbs₃, rfl⟩ := ((Multiset.cons_eq_cons.mp heq').resolve_left
    fun heq => hne'' heq.1).2
  obtain ⟨c, as₃, hcb', hthird, has₃⟩ := Multiset.rel_cons_right.mp hcs'
  have has : (as : Multiset α) = a ::ₘ a' ::ₘ c ::ₘ as₃ := by
    rw [Multiset.coe_eq_coe.mpr has₁, ← Multiset.cons_coe, ← Multiset.cons_coe, has₃]
  have hbs : (bs : Multiset β) = b ::ₘ b' ::ₘ c' ::ₘ bs₃ := by
    rw [Multiset.coe_eq_coe.mpr hbs₁, ← Multiset.cons_coe, ← Multiset.cons_coe, hbs₃]
  by_cases hcc' : r c c' = true
  · -- `a` takes `b` and `c` takes `c'`, and `a'` and `b'` are left
    refine hnot (related_of_pairsOff h (a ::ₘ c ::ₘ as₃) (b ::ₘ c' ::ₘ bs₃) ?_ ?_
      (.cons hab (.cons hcc' hthird)))
    · rw [has, Multiset.cons_swap]
    · rw [hbs, Multiset.cons_swap]
  · -- `a` takes `b'` and `a'` takes `b`, and `c` and `c'` are left
    refine hcc' (related_of_pairsOff h (a ::ₘ a' ::ₘ as₃) (b' ::ₘ b ::ₘ bs₃) ?_ ?_
      (.cons hab'' (.cons hab' hthird)))
    · rw [has, Multiset.cons_swap a' c, Multiset.cons_swap a c]
    · rw [hbs, Multiset.cons_swap b' c', Multiset.cons_swap b c', Multiset.cons_swap b b']

end PairsOff

/-! ### Both rounds as one -/

namespace Comparison

/-- What the first round leaves over does not fit. -/
theorem not_fits_of_pairFitting (es : List ExpectedFinding) (fs : List Finding) :
    ∀ e ∈ (pairFitting es fs).1, ∀ f ∈ (pairFitting es fs).2, e.fits f = false := by
  induction es generalizing fs with
  | nil => simp [pairFitting]
  | cons e es ih =>
      rw [pairFitting]
      split
      · exact ih _
      · rename_i hnone
        intro e' he' f hf
        obtain rfl | he' := List.mem_cons.mp he'
        · obtain ⟨_, taken, _, _, hfs⟩ := exists_rel_of_pairFitting es fs
          have hmem : f ∈ taken + ((pairFitting es fs).2 : Multiset Finding) :=
            Multiset.mem_add.mpr (.inr hf)
          rw [hfs] at hmem
          exact takeFirst_eq_none_iff.mp hnone f hmem
        · exact ih fs e' he' f hf

/-- Nothing is left over exactly if the lists are paired off. -/
theorem pairFitting_eq_nil_iff {es : List ExpectedFinding} {fs : List Finding} :
    pairFitting es fs = ([], []) ↔ pairsOff ExpectedFinding.fits es fs = true := by
  induction es generalizing fs with
  | nil => simp [pairFitting, pairsOff]
  | cons e es ih =>
      rw [pairFitting, pairsOff]
      cases takeFirst e.fits fs with
      | none => simp
      | some taken => exact ih

/-- The comparison under one key tells nothing exactly if the lists are paired off. -/
theorem ofKey_eq_empty_iff {key : String} {es : List ExpectedFinding} {fs : List Finding} :
    ofKey key es fs = {} ↔ pairsOff ExpectedFinding.fits es fs = true := by
  have hleft : ofKey key es fs = ofLeft key (pairFitting es fs).1 (pairFitting es fs).2 := rfl
  rw [hleft, ofLeft_eq_empty_iff, ← pairFitting_eq_nil_iff, Prod.ext_iff]
  constructor
  · intro h
    have hnot := not_fits_of_pairFitting es fs
    cases hes : (pairFitting es fs).1 with
    | nil =>
        rw [hes, List.forall₂_nil_left_iff] at h
        exact ⟨rfl, h⟩
    | cons e left =>
        -- a pair that is left over fits, which the first round would have seen
        rw [hes] at h hnot
        obtain ⟨f, rest, hfits, -, hfs⟩ := List.forall₂_cons_left_iff.mp h
        have := hnot e List.mem_cons_self f (hfs ▸ List.mem_cons_self)
        exact absurd hfits (by simp [this])
  · rintro ⟨hes, hfs⟩
    rw [hes, hfs]
    exact .nil

/-! ### All keys as one -/

/-- Is the finding one that was expected? -/
def meets (e : ExpectedFinding) (f : Finding) : Bool := e.fits f && f.key == e.key

theorem meets_iff {e : ExpectedFinding} {f : Finding} : meets e f = true ↔ e.Meets f := by
  rw [meets, Bool.and_eq_true, beq_iff_eq]
  refine ⟨fun h => ExpectedFinding.meets_of_fits h.1 h.2, fun h => ⟨?_, h.key⟩⟩
  rw [ExpectedFinding.fits, Bool.and_eq_true, beq_iff_eq]
  exact ⟨ExpectedFinding.messageFits_iff.mpr h.message, h.suppressed.symm⟩

/-- Pairing off under each key is pairing off all findings. -/
theorem pairsOff_meets_iff {es : List ExpectedFinding} {fs : List Finding} :
    pairsOff meets es fs = true ↔ ∀ key, pairsOff ExpectedFinding.fits
      (es.filter (·.key == key)) (fs.filter (·.key == key)) = true := by
  induction es generalizing fs with
  | nil =>
      simp only [List.filter_nil, pairsOff, List.isEmpty_iff, List.filter_eq_nil_iff, beq_iff_eq]
      constructor
      · rintro rfl key f hf
        exact absurd hf List.not_mem_nil
      · intro h
        exact List.eq_nil_iff_forall_not_mem.mpr fun f hf => h f.key f hf rfl
  | cons e es ih =>
      have hhere : (e :: es).filter (·.key == e.key) = e :: es.filter (·.key == e.key) :=
        List.filter_cons_of_pos (by simp)
      have hchoice : takeFirst e.fits (fs.filter (·.key == e.key)) =
          (takeFirst (meets e) fs).map fun (f, rest) => (f, rest.filter (·.key == e.key)) :=
        takeFirst_filter
      rw [pairsOff_cons_iff]
      constructor
      · rintro ⟨f, rest, htake, hrest⟩ key
        have hf : f.key = e.key := (meets_iff.mp (takeFirst_eq_some htake).1).key
        by_cases hkey : e.key = key
        · subst hkey
          rw [hhere, pairsOff_cons_iff]
          exact ⟨f, _, by rw [hchoice, htake]; rfl, ih.mp hrest e.key⟩
        · rw [List.filter_cons_of_neg (by simpa using hkey),
            ← filter_of_takeFirst htake (by simpa [hf] using hkey)]
          exact ih.mp hrest key
      · intro h
        have hfirst := h e.key
        rw [hhere, pairsOff_cons_iff, hchoice] at hfirst
        obtain ⟨f, _, hmap, hrest⟩ := hfirst
        obtain ⟨⟨f', rest⟩, htake, heq⟩ := Option.map_eq_some_iff.mp hmap
        obtain ⟨rfl, rfl⟩ := Prod.mk.inj heq
        have hf : f'.key = e.key := (meets_iff.mp (takeFirst_eq_some htake).1).key
        refine ⟨f', rest, htake, ih.mpr fun key => ?_⟩
        by_cases hkey : e.key = key
        · exact hkey ▸ hrest
        · have hother := h key
          rwa [List.filter_cons_of_neg (by simpa using hkey),
            ← filter_of_takeFirst htake (by simpa [hf] using hkey)] at hother

/-- The verdict is that of one round over all findings. -/
theorem isEmpty_ofFindings_iff_pairsOff {es : List ExpectedFinding} {fs : List Finding} :
    (ofFindings es fs).isEmpty = true ↔ pairsOff meets es fs = true := by
  rw [isEmpty_ofFindings_iff, pairsOff_meets_iff]
  refine ⟨fun h key => ?_, fun h key _ => ofKey_eq_empty_iff.mpr (h key)⟩
  by_cases hkey : key ∈ es.map (·.key) ++ fs.map (·.key)
  · exact ofKey_eq_empty_iff.mp (h key hkey)
  · rw [List.mem_append, not_or, List.mem_map, List.mem_map] at hkey
    have hes : es.filter (·.key == key) = [] :=
      List.filter_eq_nil_iff.mpr fun e he heq => hkey.1 ⟨e, he, by simpa using heq⟩
    have hfs : fs.filter (·.key == key) = [] :=
      List.filter_eq_nil_iff.mpr fun f hf heq => hkey.2 ⟨f, hf, by simpa using heq⟩
    rw [hes, hfs]
    rfl

/-! ### Orders -/

/-- The findings can be listed so that each is the one that was expected at its place. -/
def Pairable (es : List ExpectedFinding) (fs : List Finding) : Prop :=
  ∃ fs', fs'.Perm fs ∧ List.Forall₂ ExpectedFinding.Meets es fs'

/-- The verdict is the same in every order of the expected and of the actual findings. -/
def OrderFree (es : List ExpectedFinding) (fs : List Finding) : Prop :=
  ∀ es' fs', es'.Perm es → fs'.Perm fs → (ofFindings es' fs').isEmpty = (ofFindings es fs).isEmpty

section Orders

variable {es es' : List ExpectedFinding} {fs fs' : List Finding}

theorem pairable_iff : Pairable es fs ↔ Multiset.Rel ExpectedFinding.Meets ↑es ↑fs := by
  refine ⟨?_, exists_perm_of_rel⟩
  rintro ⟨fs', hperm, hforall⟩
  rw [← Multiset.coe_eq_coe.mpr hperm]
  exact rel_of_forall₂ hforall

theorem Pairable.perm (h : Pairable es fs) (hes : es'.Perm es) (hfs : fs'.Perm fs) :
    Pairable es' fs' := by
  rw [pairable_iff] at h ⊢
  rwa [Multiset.coe_eq_coe.mpr hes, Multiset.coe_eq_coe.mpr hfs]

theorem meets_eq : (meets · · = true) = ExpectedFinding.Meets := by
  funext e f
  exact propext meets_iff

/-- A case that passes can be paired. -/
theorem pairable_of_isEmpty (h : (ofFindings es fs).isEmpty = true) : Pairable es fs := by
  rw [pairable_iff, ← meets_eq]
  exact rel_of_pairsOff (isEmpty_ofFindings_iff_pairsOff.mp h)

/-- A case that can be paired passes in some order. -/
theorem Pairable.exists_order (h : Pairable es fs) :
    ∃ fs', fs'.Perm fs ∧ (ofFindings es fs').isEmpty = true := by
  obtain ⟨fs', hperm, hforall⟩ := h
  rw [← meets_eq] at hforall
  exact ⟨fs', hperm, isEmpty_ofFindings_iff_pairsOff.mpr (pairsOff_of_forall₂ hforall)⟩

/-- What can be paired and is interchangeable passes in every order. -/
theorem Pairable.isEmpty (h : Pairable es fs)
    (hfree : Interchangeable ExpectedFinding.Meets es fs) : (ofFindings es fs).isEmpty = true := by
  rw [pairable_iff] at h
  rw [← meets_eq] at h hfree
  exact isEmpty_ofFindings_iff_pairsOff.mpr (pairsOff_of_rel hfree h)

theorem orderFree_of_interchangeable (hfree : Interchangeable ExpectedFinding.Meets es fs) :
    OrderFree es fs := by
  intro es' fs' hes hfs
  have hfree' : Interchangeable ExpectedFinding.Meets es' fs' := fun e he e' he' f hf h h' g hg =>
    hfree e (hes.mem_iff.mp he) e' (hes.mem_iff.mp he') f (hfs.mem_iff.mp hf) h h' g
      (hfs.mem_iff.mp hg)
  rw [Bool.eq_iff_iff]
  constructor
  · intro h
    exact ((pairable_of_isEmpty h).perm hes.symm hfs.symm).isEmpty hfree
  · intro h
    exact ((pairable_of_isEmpty h).perm hes hfs).isEmpty hfree'

theorem OrderFree.interchangeable (h : OrderFree es fs) (hpair : Pairable es fs) :
    Interchangeable ExpectedFinding.Meets es fs := by
  obtain ⟨found, hperm, hpass⟩ := hpair.exists_order
  rw [← meets_eq]
  refine interchangeable_of_pairsOff fun xs ys hxs hys => ?_
  rw [← isEmpty_ofFindings_iff_pairsOff, h xs ys hxs hys, ← h es found (.refl es) hperm]
  exact hpass

/-- **When the order of the lists does not matter.** A new order of the lists that keeps the order
under each key keeps the verdict. All orders have the same verdict exactly if no order pairs
expected and actual findings one to one, or if expected findings that one finding meets are met by
the same findings. -/
theorem orderFree_iff (es : List ExpectedFinding) (fs : List Finding) :
    (∀ es' fs', (∀ key, es'.filter (·.key == key) = es.filter (·.key == key)) →
      (∀ key, fs'.filter (·.key == key) = fs.filter (·.key == key)) →
      (ofFindings es' fs').isEmpty = (ofFindings es fs).isEmpty) ∧
    (OrderFree es fs ↔ ¬Pairable es fs ∨ Interchangeable ExpectedFinding.Meets es fs) := by
  refine ⟨fun es' fs' hes hfs => ?_, ?_, ?_⟩
  · rw [Bool.eq_iff_iff, isEmpty_ofFindings_iff_pairsOff, isEmpty_ofFindings_iff_pairsOff,
      pairsOff_meets_iff, pairsOff_meets_iff]
    simp only [hes, hfs]
  · intro h
    by_cases hpair : Pairable es fs
    · exact .inr (h.interchangeable hpair)
    · exact .inl hpair
  · rintro (hnone | hfree)
    · intro es' fs' hes hfs
      have hfails {xs ys} (hxs : xs.Perm es) (hys : ys.Perm fs) :
          (ofFindings xs ys).isEmpty = false := by
        rw [← Bool.not_eq_true]
        intro hpass
        exact hnone ((pairable_of_isEmpty hpass).perm hxs.symm hys.symm)
      rw [hfails hes hfs, hfails (.refl es) (.refl fs)]
    · exact orderFree_of_interchangeable hfree

end Orders

/-- What is said about the last of a row of calls, in a method without source lines. -/
def chainFinding (message : String) : Finding where
  linter := "DemeterPrinciple"
  category := .principle
  className := "p/Chain"
  member := "run()V"
  severity := .warning
  message := message

/-- A finding that is expected about a row of calls. -/
def chainExpected (message : String) : ExpectedFinding where
  linter := "DemeterPrinciple"
  className := "p.Chain"
  member := "run()V"
  message := message

/-- The findings about three calls in a row. -/
def chainFindings : List Finding :=
  [chainFinding "call chain of depth 2 reaches p.B.c",
    chainFinding "call chain of depth 3 reaches p.C.d"]

/-- Messages that tell the findings apart do so in every order. -/
theorem exact_messages_orderFree :
    Interchangeable ExpectedFinding.Meets [chainExpected "depth 2", chainExpected "depth 3"]
        chainFindings ∧
      OrderFree [chainExpected "depth 2", chainExpected "depth 3"] chainFindings := by
  have hfree : Interchangeable ExpectedFinding.Meets
      [chainExpected "depth 2", chainExpected "depth 3"] chainFindings := by
    rw [← meets_eq, Interchangeable]
    decide +kernel
  exact ⟨hfree, (orderFree_iff _ _).2.mpr (.inr hfree)⟩

/-- If the finding that is expected with any message comes first, it takes the only one that the
other expected finding fits. -/
theorem any_message_first_fails :
    [chainExpected "", chainExpected "depth 2"].Perm [chainExpected "depth 2", chainExpected ""] ∧
      (ofFindings [chainExpected "depth 2", chainExpected ""] chainFindings).isEmpty = true ∧
      (ofFindings [chainExpected "", chainExpected "depth 2"] chainFindings).isEmpty = false := by
  refine ⟨.swap _ _ _, ?_, ?_⟩
  · rw [isEmpty_ofFindings_iff_pairsOff]
    decide +kernel
  · rw [← Bool.not_eq_true, isEmpty_ofFindings_iff_pairsOff]
    decide +kernel

end Comparison

end ClassAudit
