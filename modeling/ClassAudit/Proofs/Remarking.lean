import ClassAudit.Detectors.StrategyPattern
import ClassAudit.Proofs.Sites

/-!
# Remarking

Inserting and deleting markers changes where an instruction stands and which source line it belongs
to, but not what the code does. This module says when two classes differ only in their markers, and
when two findings differ only in their lines.

## Main definitions

* `Body.Remarked`, `MethodModel.Remarked`, `ClassModel.Remarked`, `PackageContext.Remarked` - the
  same code with other markers.
* `Finding.Alike`, `Linter.Alike` - the same reports with other source lines.

## Main statements

* `Body.Remarked.any_indexed_eq`, `Body.Remarked.rel_filterMap_indexed` - what a walk over a body
  finds depends on its sites only.
* `PackageContext.Remarked.rel_lookup?` - classes are found under the same names.
-/

/-! ### Choices, options and lists that are related element by element -/

theorem Relator.rel_ite {α β : Type} {R : α → β → Prop} {a b : α} {a' b' : β} {p : Prop}
    [Decidable p] (ha : R a a') (hb : R b b') : R (if p then a else b) (if p then a' else b') := by
  split
  · exact ha
  · exact hb

namespace Option.Rel

variable {α β γ δ : Type} {R : α → β → Prop} {P : γ → δ → Prop} {o : Option α} {o' : Option β}

theorem map {f : α → γ} {g : β → δ} (h : Option.Rel R o o') (hfg : ∀ a b, R a b → P (f a) (g b)) :
    Option.Rel P (o.map f) (o'.map g) := by
  cases h with
  | some hab => exact .some (hfg _ _ hab)
  | none => exact .none

theorem isSome_eq (h : Option.Rel R o o') : o.isSome = o'.isSome := by
  cases h with
  | some | none => rfl

end Option.Rel

namespace List.Forall₂

variable {α β γ : Type} {R : α → β → Prop} {l : List α} {l' : List β}

theorem map_eq {f : α → γ} {g : β → γ} (h : Forall₂ R l l') (hfg : ∀ a b, R a b → f a = g b) :
    l.map f = l'.map g := by
  have hmap : Forall₂ Eq (l.map f) (l'.map g) := rel_map (fun a b hab => hfg a b hab) h
  rwa [forall₂_eq_eq_eq] at hmap

theorem any_eq {p : α → Bool} {q : β → Bool} (h : Forall₂ R l l')
    (hpq : ∀ a b, R a b → p a = q b) : l.any p = l'.any q := by
  rw [← Function.id_comp p, ← Function.id_comp q, ← any_map, ← any_map, h.map_eq hpq]

theorem countP_eq {p : α → Bool} {q : β → Bool} (h : Forall₂ R l l')
    (hpq : ∀ a b, R a b → p a = q b) : l.countP p = l'.countP q := by
  rw [← Function.id_comp p, ← Function.id_comp q, ← countP_map, ← countP_map, h.map_eq hpq]

theorem flatMap_eq {f : α → List γ} {g : β → List γ} (h : Forall₂ R l l')
    (hfg : ∀ a b, R a b → f a = g b) : l.flatMap f = l'.flatMap g := by
  rw [flatMap_def, flatMap_def, h.map_eq hfg]

theorem filter {p : α → Bool} {q : β → Bool} (h : Forall₂ R l l')
    (hpq : ∀ a b, R a b → p a = q b) : Forall₂ R (l.filter p) (l'.filter q) :=
  rel_filter (fun a b hab => Bool.eq_iff_iff.mp (hpq a b hab)) h

theorem rel_find? {p : α → Bool} {q : β → Bool} (h : Forall₂ R l l')
    (hpq : ∀ a b, R a b → p a = q b) : Option.Rel R (l.find? p) (l'.find? q) := by
  induction h with
  | nil => exact .none
  | @cons a b l l' hab _ ih =>
      rw [find?_cons, find?_cons, hpq a b hab]
      cases q b with
      | true => exact .some hab
      | false => exact ih

theorem rel_findSome? {δ : Type} {P : γ → δ → Prop} {f : α → Option γ} {g : β → Option δ}
    (h : Forall₂ R l l') (hfg : ∀ a b, R a b → Option.Rel P (f a) (g b)) :
    Option.Rel P (l.findSome? f) (l'.findSome? g) := by
  induction h with
  | nil => exact .none
  | @cons a b l l' hab _ ih =>
      rw [findSome?_cons, findSome?_cons]
      have hfound := hfg a b hab
      generalize f a = o, g b = o' at hfound
      cases hfound with
      | some hcd => exact .some hcd
      | none => exact ih

end List.Forall₂

namespace ClassAudit

/-! ### The same code with other markers -/

/-- The bodies have the same instructions; one without instructions is left as it is. -/
structure Body.Remarked (b b' : Body) : Prop where
  instructions_eq : b.instructions = b'.instructions
  untouched : b.instructions = [] → b = b'

/-- The methods are the same but for the markers in their bodies. -/
inductive MethodModel.Remarked (m : MethodModel) : MethodModel → Prop
  | code {b : Body} (h : m.code.Remarked b) : m.Remarked { m with code := b }

/-- The classes are the same but for the markers in the bodies of their methods. -/
inductive ClassModel.Remarked (c : ClassModel) : ClassModel → Prop
  | methods {ms : List MethodModel} (h : List.Forall₂ MethodModel.Remarked c.methods ms) :
      c.Remarked { c with methods := ms }

/-- The packages have the same classes but for the markers in their methods. -/
def PackageContext.Remarked (ctx ctx' : PackageContext) : Prop :=
  List.Forall₂ ClassModel.Remarked ctx.classes ctx'.classes

namespace Body.Remarked

variable {b b' : Body}

theorem isEmpty_eq (h : b.Remarked b') : b.isEmpty = b'.isEmpty := by
  have hsome (b : Body) (hb : b.instructions ≠ []) : b.isEmpty = false := by
    cases helements : b.elements with
    | nil => exact absurd (by rw [instructions, helements, unmarked_nil]) hb
    | cons i rest => rw [isEmpty, helements, List.isEmpty_cons]
  by_cases hnone : b.instructions = []
  · rw [h.untouched hnone]
  · rw [hsome b hnone, hsome b' (h.instructions_eq ▸ hnone)]

theorem any_elements_eq (h : b.Remarked b') {p : Instruction → Bool}
    (hp : ∀ pc, IgnoresMarkers (p ⟨·, pc⟩) false) : b.elements.any p = b'.elements.any p := by
  rw [any_elements b hp, any_elements b' hp, h.instructions_eq]

theorem countP_elements_eq (h : b.Remarked b') {p : Instruction → Bool}
    (hp : ∀ pc, IgnoresMarkers (p ⟨·, pc⟩) false) :
    b.elements.countP p = b'.elements.countP p := by
  rw [countP_elements b hp, countP_elements b' hp, h.instructions_eq]

theorem filterMap_elements_eq {β : Type} (h : b.Remarked b') {f : Instruction → Option β}
    (hf : ∀ pc, IgnoresMarkers (f ⟨·, pc⟩) none) :
    b.elements.filterMap f = b'.elements.filterMap f := by
  rw [filterMap_elements b hf, filterMap_elements b' hf, h.instructions_eq]

theorem any_indexed_eq (h : b.Remarked b') {p p' : Nat × Action → Bool}
    (hp : ∀ n, IgnoresMarkers (p ⟨n, ·⟩) false) (hp' : ∀ n, IgnoresMarkers (p' ⟨n, ·⟩) false)
    (hpp' : ∀ n n' a, Corresponds b b' (n, a) (n', a) → p (n, a) = p' (n', a)) :
    b.indexed.any p = b'.indexed.any p' := by
  rw [any_indexed b hp, any_indexed b' hp']
  refine (forall₂_semantic h.instructions_eq).any_eq ?_
  rintro ⟨n, a⟩ ⟨n', a'⟩ hxy
  obtain rfl : a = a' := hxy.action_eq
  exact hpp' n n' a hxy

theorem rel_find?_indexed (h : b.Remarked b') {p : Action → Bool} (hp : IgnoresMarkers p false) :
    Option.Rel (Corresponds b b') (b.indexed.find? (p ·.2)) (b'.indexed.find? (p ·.2)) := by
  rw [find?_indexed b fun _ => hp, find?_indexed b' fun _ => hp]
  exact (forall₂_semantic h.instructions_eq).rel_find? fun x y hxy => by rw [hxy.action_eq]

theorem rel_filterMap_indexed {β β' : Type} {P : β → β' → Prop} (h : b.Remarked b')
    {f : Nat × Action → Option β} {f' : Nat × Action → Option β'}
    (hf : ∀ n, IgnoresMarkers (f ⟨n, ·⟩) none) (hf' : ∀ n, IgnoresMarkers (f' ⟨n, ·⟩) none)
    (hff' : ∀ n n' a, Corresponds b b' (n, a) (n', a) → Option.Rel P (f (n, a)) (f' (n', a))) :
    List.Forall₂ P (b.indexed.filterMap f) (b'.indexed.filterMap f') := by
  rw [filterMap_indexed b hf, filterMap_indexed b' hf']
  refine List.rel_filterMap ?_ (forall₂_semantic h.instructions_eq)
  rintro ⟨n, a⟩ ⟨n', a'⟩ hxy
  obtain rfl : a = a' := hxy.action_eq
  exact hff' n n' a hxy

end Body.Remarked

/-- Classes are found under the same names. -/
theorem PackageContext.Remarked.rel_lookup? {ctx ctx' : PackageContext} (h : ctx.Remarked ctx')
    (name : String) : Option.Rel ClassModel.Remarked (ctx.lookup? name) (ctx'.lookup? name) :=
  h.rel_find? fun _ _ ⟨_⟩ => rfl

/-! ### The same reports with other lines -/

/-- The texts differ only in the lines of the delegations that they quote. -/
def StrategyPattern.Requoted (text text' : String) : Prop :=
  ∃ (start rest : String) (quoted quoted' : List Delegation),
    quoted.map (·.target) = quoted'.map (·.target) ∧
    text = start ++ Text.joinWith ", " (quoted.map Delegation.text) ++ rest ∧
    text' = start ++ Text.joinWith ", " (quoted'.map Delegation.text) ++ rest

/-- The findings differ only in their lines, and in the lines that a strategy quotes. -/
structure Finding.Alike (f f' : Finding) : Prop where
  rest_eq : f' = { f with line := f'.line, message := f'.message }
  message : f.message = f'.message ∨
    f.linter = StrategyPattern.name ∧ StrategyPattern.Requoted f.message f'.message

/-- The linters are called the same and report alike in the same order. -/
structure Linter.Alike (l l' : Linter) : Prop where
  name_eq : l.name = l'.name
  category_eq : l.category = l'.category
  findings : List.Forall₂ Finding.Alike l.findings l'.findings

theorem Origin.alike (o : Origin) (severity : Severity) (member : String) (line line' : Int)
    (message : String) :
    (o.finding severity member line message).Alike (o.finding severity member line' message) :=
  ⟨rfl, .inl rfl⟩

theorem Finding.forall₂_alike_of_eq {fs fs' : List Finding} (h : fs = fs') :
    List.Forall₂ Alike fs fs' := by
  subst h
  exact List.forall₂_same.mpr fun f _ => ⟨rfl, .inl rfl⟩

end ClassAudit
