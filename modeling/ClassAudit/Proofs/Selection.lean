import ClassAudit.Config.Plan
import ClassAudit.Proofs.Ordering

/-!
# What rules select

The rules of a configuration select linters for the classes of a batch: by the name of a linter or
for every linter, and by the names of classes, by packages or for every class. Rules may overlap,
but each linter looks only once at a class or, if it reports on whole packages, at a package.

## Main definitions

* `Batch.Ascending` - the classes are in ascending order of names, and no two have the same name.
* `Config.Selects` - some rule has a linter run on a class.

## Main statements

* `Config.mem_selections` - planning starts from exactly what the rules select.
* `exists_mem_firstByKey` - nothing is dropped without something of the same key being kept.
-/

namespace ClassAudit

namespace Batch

/-- The classes are in ascending order of names, and no two have the same name. -/
def Ascending (b : Batch) : Prop := b.classes.Pairwise fun c d => c.name < d.name

instance : DecidablePred Ascending := fun _ => inferInstanceAs (Decidable (List.Pairwise _ _))

variable {b : Batch} {c d : ClassModel}

theorem mem_members {package : String} :
    c ∈ b.members package ↔ c ∈ b.classes ∧ c.package = package := by
  rw [members, List.mem_filter, beq_iff_eq]

theorem Ascending.eq_of_name_eq (h : b.Ascending) (hc : c ∈ b.classes) (hd : d ∈ b.classes)
    (hname : c.name = d.name) : c = d := by
  have hnodup : (b.classes.map (·.name)).Nodup :=
    List.pairwise_map.mpr (List.Pairwise.imp String.ne_of_lt h)
  exact List.inj_on_of_nodup_map hnodup hc hd hname

/-- Looking a name up gives the class with this name. -/
theorem Ascending.lookup?_eq_some_iff (h : b.Ascending) {name : String} :
    b.lookup? name = some c ↔ c ∈ b.classes ∧ internalName name = c.name := by
  have hfound {d : ClassModel} (hd : b.lookup? name = some d) :
      d ∈ b.classes ∧ internalName name = d.name := by
    have hname := List.find?_some (p := fun d : ClassModel => d.name == internalName name) hd
    exact ⟨List.mem_of_find?_eq_some hd, (eq_of_beq hname).symm⟩
  refine ⟨hfound, fun ⟨hc, hname⟩ => ?_⟩
  cases hd : b.lookup? name with
  | none => exact absurd (beq_iff_eq.mpr hname.symm) (List.find?_eq_none.mp hd c hc)
  | some d =>
      obtain ⟨hmem, hname'⟩ := hfound hd
      rw [h.eq_of_name_eq hmem hc (hname'.symm.trans hname)]

end Batch

/-! ### Rules -/

namespace Registry

theorem mem_names {r : Registry} {name : String} : name ∈ r.names ↔ r.has name := by
  have hkeys {β : Type} (l : List (String × β)) :
      name ∈ l.map (·.1) ↔ (l.lookup name).isSome := by
    rw [List.lookup_isSome_iff, List.mem_map]
    exact exists_congr fun e => and_congr_right fun _ => by rw [beq_iff_eq, eq_comm]
  rw [names, Text.sortedDistinct, Text.sorted, mem_eraseReps, List.mem_mergeSort,
    List.mem_append, hkeys, hkeys, has, Bool.or_eq_true]
  rfl

end Registry

namespace LinterRule

/-- The rule is for the linter. -/
def ExpandsTo (r : LinterRule) (reg : Registry) (linter : String) : Prop :=
  if r.name = allLinters then reg.has linter = true else r.name = linter

instance {r : LinterRule} {reg : Registry} {linter : String} :
    Decidable (r.ExpandsTo reg linter) :=
  inferInstanceAs (Decidable (if r.name = allLinters then reg.has linter = true else _ = _))

/-- The rule is for the class: for every class, or by its name or its package. -/
def Targets (r : LinterRule) (c : ClassModel) : Prop :=
  r.all ∨ (∃ name ∈ r.classes, internalName name = c.name) ∨
    ∃ package ∈ r.packages, internalName package = c.package

variable {r : LinterRule}

theorem mem_linterNames {reg : Registry} {linter : String} :
    linter ∈ r.linterNames reg ↔ r.ExpandsTo reg linter := by
  rw [linterNames, ExpandsTo]
  by_cases h : r.name = allLinters
  · rw [if_pos (beq_iff_eq.mpr h), if_pos h, Registry.mem_names]
  · rw [if_neg (mt beq_iff_eq.mp h), if_neg h, List.mem_singleton, eq_comm]

theorem mem_selected {b : Batch} (hb : b.Ascending) {c : ClassModel} :
    c ∈ r.selected b ↔ c ∈ b.classes ∧ r.Targets c := by
  rw [selected, Targets]
  split
  · rename_i hall
    exact ⟨fun h => ⟨h, .inl hall⟩, And.left⟩
  rename_i hall
  simp only [List.mem_append, List.mem_filterMap, List.mem_flatMap, hb.lookup?_eq_some_iff,
    Batch.mem_members]
  constructor
  · rintro (⟨name, hname, hc, heq⟩ | ⟨package, hpackage, hc, heq⟩)
    · exact ⟨hc, .inr (.inl ⟨name, hname, heq⟩)⟩
    · exact ⟨hc, .inr (.inr ⟨package, hpackage, heq.symm⟩)⟩
  · rintro ⟨hc, h | ⟨name, hname, heq⟩ | ⟨package, hpackage, heq⟩⟩
    · exact absurd h hall
    · exact .inl ⟨name, hname, hc, heq⟩
    · exact .inr ⟨package, hpackage, hc, heq.symm⟩

end LinterRule

/-- Some rule has the linter run on the class. -/
def Config.Selects (c : Config) (reg : Registry) (b : Batch) (linter : String)
    (cls : ClassModel) : Prop :=
  cls ∈ b.classes ∧ ∃ r ∈ c.linters, r.ExpandsTo reg linter ∧ r.Targets cls

/-- Planning starts from exactly what the rules select. -/
theorem Config.mem_selections {c : Config} {reg : Registry} {b : Batch} (hb : b.Ascending)
    {linter : String} {cls : ClassModel} :
    (linter, cls) ∈ c.selections reg b ↔ c.Selects reg b linter cls := by
  simp only [selections, List.mem_flatMap, List.mem_map, Prod.mk.injEq, Selects,
    LinterRule.mem_linterNames, LinterRule.mem_selected hb]
  constructor
  · rintro ⟨r, hr, _, hlinter, _, ⟨hcls, htargets⟩, rfl, rfl⟩
    exact ⟨hcls, r, hr, hlinter, htargets⟩
  · rintro ⟨hcls, r, hr, hlinter, htargets⟩
    exact ⟨r, hr, linter, hlinter, cls, ⟨hcls, htargets⟩, rfl, rfl⟩

/-! ### Keys -/

section Keys

variable {α κ : Type} [BEq κ]

theorem firstByKey_subset (key : α → κ) (seen : List κ) (as : List α) :
    firstByKey key seen as ⊆ as := by
  induction as generalizing seen with
  | nil => exact List.nil_subset _
  | cons a as ih =>
      rw [firstByKey]
      split
      · exact List.subset_cons_of_subset a (ih seen)
      · exact List.cons_subset_cons a (ih (key a :: seen))

/-- Nothing is dropped without something of the same key being kept. -/
theorem exists_mem_firstByKey [LawfulBEq κ] (key : α → κ) (seen : List κ) {as : List α} {a : α}
    (ha : a ∈ as) : key a ∈ seen ∨ ∃ b ∈ firstByKey key seen as, key b = key a := by
  induction as generalizing seen with
  | nil => exact absurd ha List.not_mem_nil
  | cons x as ih =>
      rw [firstByKey]
      obtain rfl | ha := List.mem_cons.mp ha
      · split
        · rename_i h
          exact .inl (List.contains_iff_mem.mp h)
        · exact .inr ⟨a, List.mem_cons_self, rfl⟩
      · split
        · exact ih seen ha
        · obtain hseen | ⟨b, hb, hkey⟩ := ih (key x :: seen) ha
          · obtain hkey | hseen := List.mem_cons.mp hseen
            · exact .inr ⟨x, List.mem_cons_self, hkey.symm⟩
            · exact .inl hseen
          · exact .inr ⟨b, List.mem_cons_of_mem x hb, hkey⟩

end Keys

end ClassAudit
