import ClassAudit.Detectors.MissingImplementation
import Mathlib.Data.List.Basic

/-!
# Inherited methods

A class inherits from its superclass, from the superclass of that one, and so on, as far as its
package holds them. Superclasses come from class files and may lead back to a class that was met
before, so the way up ends there as well. A method that a direct supertype leaves open is reported
exactly if the first class on the way up that declares it, if any, leaves it open too.

## Main definitions

* `Lineage` - the way up from a class.
* `Demands`, `DemandedFirstBy` - a direct supertype leaves a method open, and is the first to do so.
* `Unanswered` - no class of a lineage implements a method before it is declared abstract.
* `lacking` - what the class does not implement of what its supertypes demand.

## Main statements

* `Lineage.exists_le`, `Lineage.unique` - every class has exactly one lineage, which is no longer
  than its package and the class itself.
* `resolve_of_lineage` - the walk up the superclasses is a search through the lineage.
* `mem_distinct`, `demandedFirstBy_iff` - which of several demands for a method is told.
* `reports_unanswered` - **exactly the methods without an implementation are reported**.
-/

namespace ClassAudit

/-- The class declares a method of this name and descriptor. -/
def ClassModel.Declares (c : ClassModel) (name desc : String) : Prop :=
  ∃ m ∈ c.methods, m.name = name ∧ m.desc = desc

theorem ClassModel.method?_eq_none_iff {c : ClassModel} {name desc : String} :
    c.method? name desc = none ↔ ¬c.Declares name desc := by
  simp [method?, Declares]

theorem PackageContext.mem_of_lookup? {ctx : PackageContext} {name : String} {c : ClassModel}
    (h : ctx.lookup? name = some c) : c ∈ ctx.classes :=
  List.mem_of_find?_eq_some h

namespace MissingImplementation

variable {ctx : PackageContext} {c : ClassModel} {name desc : String}

/-! ### The way up -/

/-- The classes on the way up from a class, when those of the names `seen` were met before: the
class, its superclass in the package, the superclass of that one, and so on. It ends where a
superclass is missing from the package or was met before. -/
inductive Lineage (ctx : PackageContext) : List String → ClassModel → List ClassModel → Prop
  | missing {seen c} (hsuper : ctx.lookup? c.superName = none) : Lineage ctx seen c [c]
  | met {seen c s} (hsuper : ctx.lookup? c.superName = some s) (hmet : s.name ∈ c.name :: seen) :
      Lineage ctx seen c [c]
  | up {seen c s line} (hsuper : ctx.lookup? c.superName = some s) (hnew : s.name ∉ c.name :: seen)
      (rest : Lineage ctx (c.name :: seen) s line) : Lineage ctx seen c (c :: line)

/-- A class has one lineage only. -/
theorem Lineage.unique {seen : List String} {line line' : List ClassModel}
    (h : Lineage ctx seen c line) (h' : Lineage ctx seen c line') : line = line' := by
  induction h generalizing line' with
  | missing hsuper =>
      cases h' with
      | missing => rfl
      | met => rfl
      | up hsuper' => exact absurd (hsuper.symm.trans hsuper') (by simp)
  | met hsuper hmet =>
      cases h' with
      | missing => rfl
      | met => rfl
      | up hsuper' hnew =>
          obtain rfl := Option.some.inj (hsuper.symm.trans hsuper')
          exact absurd hmet hnew
  | up hsuper hnew _ ih =>
      cases h' with
      | missing hsuper' => exact absurd (hsuper.symm.trans hsuper') (by simp)
      | met hsuper' hmet =>
          obtain rfl := Option.some.inj (hsuper.symm.trans hsuper')
          exact absurd hmet hnew
      | up hsuper' _ rest' =>
          obtain rfl := Option.some.inj (hsuper.symm.trans hsuper')
          rw [ih rest']

/-- How many classes of the package have none of the names. -/
def unmet (ctx : PackageContext) (seen : List String) : Nat :=
  ctx.classes.countP fun d => d.name ∉ seen

theorem unmet_cons_lt {seen : List String} {s : ClassModel} (hs : s ∈ ctx.classes)
    (hnew : s.name ∉ seen) : unmet ctx (s.name :: seen) < unmet ctx seen := by
  have hsub : (ctx.classes.filter fun d => d.name ∉ s.name :: seen) =
      (ctx.classes.filter fun d => d.name ∉ seen).filter fun d => d.name ≠ s.name := by
    rw [List.filter_filter]
    refine List.filter_congr fun d _ => ?_
    simp
  rw [unmet, unmet, List.countP_eq_length_filter, List.countP_eq_length_filter, hsub]
  exact List.length_filter_lt_length_iff_exists.mpr ⟨s, by simp [hs, hnew], by simp⟩

/-- Every class has a lineage, because every step up meets a class of the package for the first
time. -/
theorem Lineage.exists_le (ctx : PackageContext) (seen : List String) (c : ClassModel) :
    ∃ line, Lineage ctx seen c line ∧ line.length ≤ unmet ctx (c.name :: seen) + 1 := by
  induction hn : unmet ctx (c.name :: seen) using Nat.strongRecOn generalizing seen c with
  | ind n ih =>
      cases hsuper : ctx.lookup? c.superName with
      | none => exact ⟨[c], .missing hsuper, by simp⟩
      | some s =>
          by_cases hmet : s.name ∈ c.name :: seen
          · exact ⟨[c], .met hsuper hmet, by simp⟩
          · have hlt := unmet_cons_lt (PackageContext.mem_of_lookup? hsuper) hmet
            obtain ⟨line, hline, hlength⟩ := ih _ (hn ▸ hlt) (c.name :: seen) s rfl
            refine ⟨c :: line, .up hsuper hmet hline, ?_⟩
            rw [List.length_cons]
            omega

/-- A class that was met before implements nothing. -/
theorem resolve_of_mem {seen : List String} (hmet : c.name ∈ seen) (fuel : Nat) :
    resolve ctx name desc fuel seen c = false := by
  cases fuel with
  | zero => rfl
  | succ fuel => simp [resolve, hmet]

/-- A class that is met for the first time implements what it declares, and inherits the rest. -/
theorem resolve_succ {seen : List String} (hnew : c.name ∉ seen) (fuel : Nat) :
    resolve ctx name desc (fuel + 1) seen c =
      match c.method? name desc with
      | some m => !m.access.isAbstract
      | none =>
        match ctx.lookup? c.superName with
        | some s => resolve ctx name desc fuel (c.name :: seen) s
        | none => false := by
  rw [resolve]
  exact if_neg (by simpa using hnew)

/-- The walk up the superclasses is a search through the lineage: the first class that declares the
method decides. -/
theorem resolve_of_lineage {seen : List String} {line : List ClassModel}
    (h : Lineage ctx seen c line) (hnew : c.name ∉ seen) {fuel : Nat} (hfuel : line.length ≤ fuel) :
    resolve ctx name desc fuel seen c =
      (line.findSome? (·.method? name desc)).any (!·.access.isAbstract) := by
  induction h generalizing fuel with
  | @missing seen c hsuper =>
      obtain ⟨fuel, rfl⟩ := Nat.exists_eq_succ_of_ne_zero (Nat.ne_of_gt hfuel)
      rw [resolve_succ hnew, hsuper]
      cases hmethod : c.method? name desc <;> simp [hmethod]
  | @met seen c s hsuper hmet =>
      obtain ⟨fuel, rfl⟩ := Nat.exists_eq_succ_of_ne_zero (Nat.ne_of_gt hfuel)
      rw [resolve_succ hnew, hsuper]
      cases hmethod : c.method? name desc <;> simp [hmethod, resolve_of_mem hmet]
  | @up seen c s line hsuper hnew' _ ih =>
      obtain ⟨fuel, rfl⟩ := Nat.exists_eq_succ_of_ne_zero (Nat.ne_of_gt (Nat.zero_lt_of_lt hfuel))
      rw [resolve_succ hnew, hsuper]
      cases hmethod : c.method? name desc with
      | some m => simp [hmethod]
      | none => simpa [hmethod] using ih hnew' (Nat.le_of_succ_le_succ hfuel)

/-- No class of the lineage declares the method, or the first one that does declares it abstract. -/
def Unanswered (line : List ClassModel) (name desc : String) : Prop :=
  (∀ d ∈ line, ¬d.Declares name desc) ∨
  ∃ below d above m, line = below ++ d :: above ∧ (∀ b ∈ below, ¬b.Declares name desc) ∧
    d.method? name desc = some m ∧ m.access.isAbstract

theorem unanswered_iff {line : List ClassModel} : Unanswered line name desc ↔
    (line.findSome? (·.method? name desc)).any (!·.access.isAbstract) = false := by
  cases hfirst : line.findSome? (·.method? name desc) with
  | none =>
      rw [List.findSome?_eq_none_iff] at hfirst
      simp only [ClassModel.method?_eq_none_iff] at hfirst
      exact iff_of_true (.inl hfirst) rfl
  | some m =>
      obtain ⟨below, d, above, rfl, hd, hbelow⟩ := List.findSome?_eq_some_iff.mp hfirst
      simp only [ClassModel.method?_eq_none_iff] at hbelow
      simp only [Option.any_some, Bool.not_eq_false']
      constructor
      · rintro (hnone | ⟨below', d', above', m', heq, hbelow', hd', habstract⟩)
        · have hnot := hnone d (by simp)
          rw [← ClassModel.method?_eq_none_iff, hd] at hnot
          cases hnot
        · rw [heq, List.findSome?_append, List.findSome?_cons, hd'] at hfirst
          have hskip : below'.findSome? (·.method? name desc) = none := by
            rw [List.findSome?_eq_none_iff]
            exact fun b hb => ClassModel.method?_eq_none_iff.mpr (hbelow' b hb)
          rw [hskip] at hfirst
          obtain rfl : m' = m := by simpa using hfirst
          exact habstract
      · exact fun habstract => .inr ⟨below, d, above, m, rfl, hbelow, hd, habstract⟩

/-- A method is implemented unless the lineage leaves it unanswered. -/
theorem implemented_eq_false_iff {line : List ClassModel} (h : Lineage ctx [] c line) :
    implemented c ctx name desc = false ↔ Unanswered line name desc := by
  obtain ⟨line', hline', hlength⟩ := Lineage.exists_le ctx [] c
  obtain rfl := h.unique hline'
  have hsize : unmet ctx [c.name] ≤ ctx.size := List.countP_le_length
  rw [implemented, resolve_of_lineage h List.not_mem_nil (by omega), unanswered_iff]

/-! ### What the supertypes leave open -/

/-- The class is a direct interface or the direct superclass, and the package holds it. -/
def DirectSupertype (ctx : PackageContext) (c t : ClassModel) : Prop :=
  (∃ i ∈ c.interfaces, ctx.lookup? i = some t) ∨ ctx.lookup? c.superName = some t

/-- Methods of the direct supertypes that differ in name or descriptor differ in their signature. -/
def SignaturesTell (ctx : PackageContext) (c : ClassModel) : Prop :=
  ∀ t t', DirectSupertype ctx c t → DirectSupertype ctx c t' → ∀ m ∈ t.methods, ∀ m' ∈ t'.methods,
    m.name ++ m.desc = m'.name ++ m'.desc → m.name = m'.name ∧ m.desc = m'.desc

/-- The `k`-th direct supertype leaves a method open. The interfaces come first, and the superclass
after them. -/
inductive Demands (ctx : PackageContext) (c : ClassModel) : Nat → ClassModel → MethodModel → Prop
  | interface {k i t m} (hi : c.interfaces[k]? = some i) (ht : ctx.lookup? i = some t)
      (hm : m ∈ t.methods) (habstract : m.access.isAbstract) (hstatic : m.access.isStatic = false)
      (hordinary : m.name ≠ "<init>" ∧ m.name ≠ "<clinit>") : Demands ctx c k t m
  | superclass {t m} (ht : ctx.lookup? c.superName = some t) (hm : m ∈ t.methods)
      (habstract : m.access.isAbstract) : Demands ctx c c.interfaces.length t m

/-- The first direct supertype that leaves the method open is called `owner`. -/
def DemandedFirstBy (ctx : PackageContext) (c : ClassModel) (name desc owner : String) : Prop :=
  ∃ k t, t.name = owner ∧ (∃ m, Demands ctx c k t m ∧ m.name = name ∧ m.desc = desc) ∧
    ∀ j < k, ∀ u m, Demands ctx c j u m → ¬(m.name = name ∧ m.desc = desc)

theorem Demands.directSupertype {k : Nat} {t : ClassModel} {m : MethodModel}
    (h : Demands ctx c k t m) : DirectSupertype ctx c t ∧ m ∈ t.methods := by
  cases h with
  | interface hi ht hm => exact ⟨.inl ⟨_, List.mem_of_getElem? hi, ht⟩, hm⟩
  | superclass ht hm => exact ⟨.inr ht, hm⟩

/-- The supertype at a place is told by its place. -/
theorem Demands.supertype_eq {k : Nat} {t t' : ClassModel} {m m' : MethodModel}
    (h : Demands ctx c k t m) (h' : Demands ctx c k t' m') : t = t' := by
  have hnone : c.interfaces[c.interfaces.length]? = none := by simp
  cases h with
  | interface hi ht =>
      cases h' with
      | interface hi' ht' =>
          obtain rfl := Option.some.inj (hi.symm.trans hi')
          exact Option.some.inj (ht.symm.trans ht')
      | superclass => exact absurd (hi.symm.trans hnone) (by simp)
  | superclass ht =>
      cases h' with
      | interface hi' => exact absurd (hi'.symm.trans hnone) (by simp)
      | superclass ht' => exact Option.some.inj (ht.symm.trans ht')

/-- What each direct supertype leaves open, in the order of the supertypes. -/
def demandLists (ctx : PackageContext) (c : ClassModel) : List (List (String × MethodModel)) :=
  (c.interfaces.map fun i => (ctx.lookup? i).toList.flatMap fun t =>
    (t.methods.filter fun m =>
      m.access.isAbstract && !m.access.isStatic && !m.isInitializer).map (t.name, ·)) ++
  [(ctx.lookup? c.superName).toList.flatMap fun t =>
    (t.methods.filter (·.access.isAbstract)).map (t.name, ·)]

theorem required_eq (c : ClassModel) (ctx : PackageContext) :
    required c ctx = (demandLists ctx c).flatten := by
  rw [demandLists, List.flatten_append, List.flatten_singleton, ← List.flatMap_def,
    ← List.flatMap_assoc, ← List.filterMap_eq_flatMap_toList, required]
  cases ctx.lookup? c.superName <;> simp

/-- An interface leaves open what has no body and is called on objects. -/
theorem isOpen_iff {m : MethodModel} :
    (m.access.isAbstract && !m.access.isStatic && !m.isInitializer) = true ↔
      m.access.isAbstract ∧ m.access.isStatic = false ∧
        m.name ≠ "<init>" ∧ m.name ≠ "<clinit>" := by
  simp [MethodModel.isInitializer_eq_false_iff, and_assoc]

theorem mem_demandLists {k : Nat} {owner : String} {m : MethodModel} :
    (∃ l, (demandLists ctx c)[k]? = some l ∧ (owner, m) ∈ l) ↔
      ∃ t, Demands ctx c k t m ∧ t.name = owner := by
  have hmethods (t : ClassModel) (p : MethodModel → Bool) :
      (owner, m) ∈ (t.methods.filter p).map (t.name, ·) ↔ t.name = owner ∧ m ∈ t.methods ∧ p m := by
    simp only [List.mem_map, List.mem_filter, Prod.mk.injEq]
    exact ⟨fun ⟨_, hm, howner, heq⟩ => heq ▸ ⟨howner, hm⟩, fun ⟨howner, hm⟩ => ⟨m, hm, howner, rfl⟩⟩
  constructor
  · rintro ⟨l, hl, hmem⟩
    rw [demandLists, List.getElem?_append, List.length_map] at hl
    split at hl
    · rw [List.getElem?_map, Option.map_eq_some_iff] at hl
      obtain ⟨i, hi, rfl⟩ := hl
      simp only [List.mem_flatMap, Option.mem_toList, hmethods, isOpen_iff] at hmem
      obtain ⟨t, ht, howner, hm, habstract, hstatic, hordinary⟩ := hmem
      exact ⟨t, .interface hi ht hm habstract hstatic hordinary, howner⟩
    · rename_i hk
      rw [List.getElem?_singleton, Option.ite_none_right_eq_some, Option.some.injEq] at hl
      obtain ⟨hzero, rfl⟩ := hl
      simp only [List.mem_flatMap, Option.mem_toList, hmethods] at hmem
      obtain ⟨t, ht, howner, hm, habstract⟩ := hmem
      obtain rfl : k = c.interfaces.length := by omega
      exact ⟨t, .superclass ht hm habstract, howner⟩
  · rintro ⟨t, h, howner⟩
    cases h with
    | interface hi ht hm habstract hstatic hordinary =>
        have hk := (List.getElem?_eq_some_iff.mp hi).1
        refine ⟨_, by rw [demandLists, List.getElem?_append_left (by simpa using hk),
          List.getElem?_map, hi, Option.map_some], ?_⟩
        simp only [List.mem_flatMap, Option.mem_toList, hmethods, isOpen_iff]
        exact ⟨t, ht, howner, hm, habstract, hstatic, hordinary⟩
    | superclass ht hm habstract =>
        refine ⟨_, by rw [demandLists, List.getElem?_append_right (by simp), List.length_map,
          Nat.sub_self, List.getElem?_cons_zero], ?_⟩
        simp only [List.mem_flatMap, Option.mem_toList, hmethods]
        exact ⟨t, ht, howner, hm, habstract⟩

/-- Among what is left open, the first method of a signature is the one that the first supertype
leaves open. -/
theorem find?_required {owner : String} {m : MethodModel}
    (h : (required c ctx).find? (·.2.signature == m.signature) = some (owner, m)) :
    ∃ k t, t.name = owner ∧ Demands ctx c k t m ∧
      ∀ j < k, ∀ u m', Demands ctx c j u m' → m'.signature ≠ m.signature := by
  rw [required_eq, List.find?_flatten_eq_some_iff] at h
  obtain ⟨-, before, earlier, later, after, hlists, hbefore, -⟩ := h
  have hat : (demandLists ctx c)[before.length]? = some (earlier ++ (owner, m) :: later) := by
    rw [hlists, List.getElem?_append_right (Nat.le_refl _), Nat.sub_self, List.getElem?_cons_zero]
  have hmem : (owner, m) ∈ earlier ++ (owner, m) :: later :=
    List.mem_append_right _ List.mem_cons_self
  obtain ⟨t, hdemands, howner⟩ := mem_demandLists.mp ⟨_, hat, hmem⟩
  refine ⟨before.length, t, howner, hdemands, fun j hj u m' hdemands' hsame => ?_⟩
  obtain ⟨l, hl, hmem⟩ := mem_demandLists.mpr ⟨u, hdemands', rfl⟩
  rw [hlists, List.getElem?_append_left hj] at hl
  simpa [hsame] using hbefore l (List.mem_of_getElem? hl) _ hmem

theorem mem_required {x : String × MethodModel} :
    x ∈ required c ctx ↔ ∃ k t, Demands ctx c k t x.2 ∧ t.name = x.1 := by
  rw [required_eq, List.mem_flatten]
  constructor
  · rintro ⟨l, hl, hmem⟩
    obtain ⟨k, hk⟩ := List.getElem?_of_mem hl
    exact ⟨k, mem_demandLists.mp ⟨l, hk, hmem⟩⟩
  · rintro ⟨k, hdemands⟩
    obtain ⟨l, hl, hmem⟩ := mem_demandLists.mpr hdemands
    exact ⟨l, List.mem_of_getElem? hl, hmem⟩

/-- Of the methods of one signature the first one is kept. -/
theorem mem_distinct {seen : List String} {l : List (String × MethodModel)} {owner : String}
    {m : MethodModel} : (owner, m) ∈ distinct seen l ↔
      m.signature ∉ seen ∧ l.find? (·.2.signature == m.signature) = some (owner, m) := by
  induction l generalizing seen with
  | nil => simp [distinct]
  | cons x l ih =>
      obtain ⟨owner', m'⟩ := x
      rw [distinct, List.find?_cons]
      by_cases hseen : m'.signature ∈ seen
      · rw [if_pos (List.contains_iff_mem.mpr hseen), ih]
        refine and_congr_right fun hnew => ?_
        have hne : m'.signature ≠ m.signature := fun heq => hnew (heq ▸ hseen)
        rw [beq_false_of_ne hne]
      · rw [if_neg (mt List.contains_iff_mem.mp hseen), List.mem_cons, ih, List.mem_cons, not_or,
          Prod.mk.injEq]
        by_cases hsame : m'.signature = m.signature
        · -- the first method of the signature hides the others
          rw [beq_iff_eq.mpr hsame]
          constructor
          · rintro (⟨rfl, rfl⟩ | ⟨⟨hne, -⟩, -⟩)
            · exact ⟨hseen, rfl⟩
            · exact absurd hsame.symm hne
          · rintro ⟨-, heq⟩
            cases heq
            exact .inl ⟨rfl, rfl⟩
        · rw [beq_false_of_ne hsame]
          constructor
          · rintro (⟨rfl, rfl⟩ | ⟨⟨-, hnew⟩, hfind⟩)
            · exact absurd rfl hsame
            · exact ⟨hnew, hfind⟩
          · rintro ⟨hnew, hfind⟩
            exact .inr ⟨⟨Ne.symm hsame, hnew⟩, hfind⟩

/-- No signature is kept twice. -/
theorem pairwise_distinct (seen : List String) (l : List (String × MethodModel)) :
    (distinct seen l).Pairwise fun x y => x.2.signature ≠ y.2.signature := by
  induction l generalizing seen with
  | nil => exact .nil
  | cons x l ih =>
      obtain ⟨owner, m⟩ := x
      rw [distinct]
      split
      · exact ih seen
      · refine .cons ?_ (ih _)
        rintro ⟨owner', m'⟩ hmem heq
        exact (mem_distinct.mp hmem).1 (heq ▸ List.mem_cons_self)

/-- The demand that is told is that of the first supertype. -/
theorem demandedFirstBy_iff (hsig : SignaturesTell ctx c) {owner : String} :
    DemandedFirstBy ctx c name desc owner ↔
      ∃ m, (owner, m) ∈ distinct [] (required c ctx) ∧ m.name = name ∧ m.desc = desc := by
  have htell {k k' t t' m m'} (h : Demands ctx c k t m) (h' : Demands ctx c k' t' m')
      (hsame : m.signature = m'.signature) : m.name = m'.name ∧ m.desc = m'.desc :=
    hsig t t' h.directSupertype.1 h'.directSupertype.1 m h.directSupertype.2 m'
      h'.directSupertype.2 hsame
  constructor
  · rintro ⟨k, t, rfl, ⟨m, hdemands, rfl, rfl⟩, hfirst⟩
    have hmem : (t.name, m) ∈ required c ctx := mem_required.mpr ⟨k, t, hdemands, rfl⟩
    have hsome : ((required c ctx).find? (·.2.signature == m.signature)).isSome :=
      List.find?_isSome.mpr ⟨_, hmem, beq_self_eq_true _⟩
    obtain ⟨⟨owner', m'⟩, hfind⟩ := Option.isSome_iff_exists.mp hsome
    have hfound := List.find?_some hfind
    have hsame : m'.signature = m.signature := eq_of_beq hfound
    rw [← hsame] at hfind
    obtain ⟨k', t', rfl, hdemands', hfirst'⟩ := find?_required hfind
    obtain ⟨hname, hdesc⟩ := htell hdemands' hdemands hsame
    -- the two supertypes are both the first one
    have hk : k = k' := by
      refine Nat.le_antisymm (Nat.le_of_not_lt fun hlt => ?_) (Nat.le_of_not_lt fun hlt => ?_)
      · exact hfirst k' hlt t' m' hdemands' ⟨hname, hdesc⟩
      · exact hfirst' k hlt t m hdemands hsame.symm
    subst hk
    obtain rfl := hdemands.supertype_eq hdemands'
    exact ⟨m', mem_distinct.mpr ⟨List.not_mem_nil, hfind⟩, hname, hdesc⟩
  · rintro ⟨m, hmem, rfl, rfl⟩
    obtain ⟨k, t, howner, hdemands, hfirst⟩ := find?_required (mem_distinct.mp hmem).2
    refine ⟨k, t, howner, ⟨m, hdemands, rfl, rfl⟩, fun j hj u m' hdemands' hsame => ?_⟩
    exact hfirst j hj u m' hdemands' (congrArg₂ (· ++ ·) hsame.1 hsame.2)

/-! ### Findings -/

/-- What is said about a class that lacks an implementation of a method. -/
def lack (c : ClassModel) (m : MemberRef) : Finding where
  linter := "MissingImplementation"
  category := .style
  className := c.name
  member := m.name ++ m.desc
  severity := .error
  message := "missing implementation: " ++ (m.name ++ m.desc) ++ " declared by " ++
    dottedName m.owner

/-- The demanded methods that the class does not implement, each with the first supertype that
demands it. -/
def lacking (c : ClassModel) (ctx : PackageContext) : List MemberRef :=
  ((distinct [] (required c ctx)).filter fun x => !implemented c ctx x.2.name x.2.desc).map
    fun x => ⟨x.1, x.2.name, x.2.desc⟩

theorem findings_eq (hconcrete : c.isConcrete) :
    (linter c ctx).findings = (lacking c ctx).map (lack c) := by
  rw [linter, if_pos hconcrete, lacking, List.map_map]
  rfl

theorem nodup_lacking : ((lacking c ctx).map fun m => (m.name, m.desc)).Nodup := by
  rw [lacking, List.map_map, List.Nodup, List.pairwise_map]
  refine ((pairwise_distinct [] _).filter _).imp fun hne heq => hne ?_
  obtain ⟨hname, hdesc⟩ := Prod.mk.inj heq
  exact congrArg₂ (· ++ ·) hname hdesc

theorem mem_lacking {line : List ClassModel} (hline : Lineage ctx [] c line)
    (hsig : SignaturesTell ctx c) {owner name desc : String} :
    ⟨owner, name, desc⟩ ∈ lacking c ctx ↔
      DemandedFirstBy ctx c name desc owner ∧ Unanswered line name desc := by
  rw [demandedFirstBy_iff hsig, ← implemented_eq_false_iff hline, lacking, List.mem_map]
  simp only [List.mem_filter, Bool.not_eq_true', Prod.exists, MemberRef.mk.injEq]
  constructor
  · rintro ⟨_, m, ⟨hmem, hlacks⟩, rfl, rfl, rfl⟩
    exact ⟨⟨m, hmem, rfl, rfl⟩, hlacks⟩
  · rintro ⟨⟨m, hmem, rfl, rfl⟩, hlacks⟩
    exact ⟨owner, m, ⟨hmem, hlacks⟩, rfl, rfl, rfl⟩

/-- **Exactly the methods without an implementation are reported.** Every class has a lineage, even
if its superclasses run in a circle, and a method is reported, once and as that of the first direct
supertype that leaves it open, exactly if the lineage leaves it open too. -/
theorem reports_unanswered (hconcrete : c.isConcrete) (hsig : SignaturesTell ctx c) :
    ∃ line, Lineage ctx [] c line ∧ line.length ≤ ctx.size + 1 ∧
      ∃ reported : List MemberRef, (linter c ctx).findings = reported.map (lack c) ∧
        (reported.map fun m => (m.name, m.desc)).Nodup ∧
        ∀ owner name desc, ⟨owner, name, desc⟩ ∈ reported ↔
          DemandedFirstBy ctx c name desc owner ∧ Unanswered line name desc := by
  obtain ⟨line, hline, hlength⟩ := Lineage.exists_le ctx [] c
  have hsize : unmet ctx [c.name] ≤ ctx.size := List.countP_le_length
  exact ⟨line, hline, by omega, lacking c ctx, findings_eq hconcrete, nodup_lacking,
    fun _ _ _ => mem_lacking hline hsig⟩

/-- An interface with two methods. -/
def twofold : ClassModel :=
  { name := "I", access := ⟨0x601⟩
    methods := [⟨"f", "()V", ⟨0x401⟩, {}, []⟩, ⟨"g", "()V", ⟨0x401⟩, {}, []⟩] }

/-- A class that declares nothing and extends `A`. -/
def knot : ClassModel := { name := "B", superName := "A" }

/-- The class `A`, which extends `B` and declares one of the two methods. -/
def looped : ClassModel :=
  { name := "A", superName := "B", interfaces := ["I"]
    methods := [⟨"f", "()V", ⟨1⟩, ⟨[⟨.return .void, 0⟩]⟩, []⟩] }

/-- A package in which two classes extend each other. -/
def circle : PackageContext := ⟨[looped, knot, twofold]⟩

/-- Around the circle, only the method that neither of the two classes declares is reported. -/
theorem looped_reports :
    looped.isConcrete ∧ SignaturesTell circle looped ∧
      ∃ reported : List MemberRef, (linter looped circle).findings = reported.map (lack looped) ∧
        ⟨"I", "g", "()V"⟩ ∈ reported ∧ ∀ owner, ⟨owner, "f", "()V"⟩ ∉ reported := by
  have hconcrete : looped.isConcrete := by decide
  have hdirect (t : ClassModel) (ht : DirectSupertype circle looped t) : t ∈ [twofold, knot] := by
    obtain ⟨i, hi, ht⟩ | ht := ht
    · obtain rfl := List.mem_singleton.mp hi
      obtain rfl : twofold = t := Option.some.inj ht
      exact List.mem_cons_self
    · obtain rfl : knot = t := Option.some.inj ht
      exact List.mem_cons_of_mem _ List.mem_cons_self
  have hsig : SignaturesTell circle looped := by
    have htell : ∀ t ∈ [twofold, knot], ∀ t' ∈ [twofold, knot], ∀ m ∈ t.methods, ∀ m' ∈ t'.methods,
        m.name ++ m.desc = m'.name ++ m'.desc → m.name = m'.name ∧ m.desc = m'.desc := by decide
    exact fun t t' ht ht' => htell t (hdirect t ht) t' (hdirect t' ht')
  have hline : Lineage circle [] looped [looped, knot] :=
    .up rfl (by decide) (.met rfl (by decide))
  obtain ⟨line, hline', -, reported, hfindings, -, hreported⟩ := reports_unanswered hconcrete hsig
  obtain rfl := hline.unique hline'
  refine ⟨hconcrete, hsig, reported, hfindings, (hreported _ _ _).mpr ⟨?_, ?_⟩,
    fun owner hmem => ?_⟩
  · refine ⟨0, twofold, rfl, ⟨⟨"g", "()V", ⟨0x401⟩, {}, []⟩, ?_, rfl, rfl⟩, by simp⟩
    exact .interface rfl rfl (by decide) (by decide) (by decide) (by decide)
  · exact unanswered_iff.mpr (by decide)
  · exact absurd (unanswered_iff.mp ((hreported _ _ _).mp hmem).2) (by decide)

end MissingImplementation

end ClassAudit
