import ClassAudit.Bytecode.Body
import Mathlib.Data.List.Forall2

/-!
# Sites

Markers carry no meaning, so what matters about an instruction of a body is the instruction itself
and which instructions stand before and after it. This is its site. Bodies with the same
instructions have the same sites, wherever their markers are, and the bounded searches see nothing
but sites.

## Main definitions

* `Body.instructions` - the elements that are no markers.
* `Site`, `Body.siteAt` - an instruction and the instructions around it.
* `IgnoresMarkers` - a function of actions that says nothing about markers.
* `nearest` - the search among the nearest instructions.
* `Body.windowBefore` - what a bounded search backward may see.

## Main statements

* `Body.map_siteAt_semantic` - the sites of a body are those of its instructions.
* `Body.forall₂_semantic` - bodies with the same instructions have the same sites in the same order.
* `Body.map_lookBack`, `Body.isSome_lookOn` - the bounded searches are searches among the nearest
  instructions.
* `Body.isSome_lookBack_iff` - a bounded search backward succeeds exactly on what its window has.
-/

/-! ### Searches that see nothing in what is dropped -/

namespace List

variable {α β : Type} {l : List α} {drop p : α → Bool}

theorem filter_filter_not (h : ∀ x, drop x → p x = false) :
    (l.filter (!drop ·)).filter p = l.filter p := by
  rw [filter_filter]
  refine filter_congr fun x _ => ?_
  cases hx : drop x with
  | true => simp [h x hx]
  | false => simp

theorem countP_filter_not (h : ∀ x, drop x → p x = false) :
    (l.filter (!drop ·)).countP p = l.countP p := by
  rw [countP_eq_length_filter, countP_eq_length_filter, filter_filter_not h]

theorem find?_filter_not (h : ∀ x, drop x → p x = false) :
    (l.filter (!drop ·)).find? p = l.find? p := by
  rw [← head?_filter, ← head?_filter, filter_filter_not h]

theorem any_filter_not (h : ∀ x, drop x → p x = false) : (l.filter (!drop ·)).any p = l.any p := by
  rw [← isSome_find?, ← isSome_find?, find?_filter_not h]

theorem filterMap_filter_not {f : α → Option β} (h : ∀ x, drop x → f x = none) :
    (l.filter (!drop ·)).filterMap f = l.filterMap f := by
  rw [filterMap_filter]
  congr 1
  funext x
  cases hx : drop x with
  | true => simp [h x hx]
  | false => simp

end List

namespace ClassAudit

/-- The elements of a list that are no markers. -/
def unmarked (l : List Instruction) : List Instruction := l.filter (!·.isMarker)

theorem unmarked_nil : unmarked [] = [] := rfl

theorem unmarked_append (l l' : List Instruction) :
    unmarked (l ++ l') = unmarked l ++ unmarked l' := List.filter_append l l'

theorem unmarked_cons_of_marker {i : Instruction} (h : i.isMarker = true) (l : List Instruction) :
    unmarked (i :: l) = unmarked l := by
  simp [unmarked, h]

theorem unmarked_cons {i : Instruction} (h : i.isMarker = false) (l : List Instruction) :
    unmarked (i :: l) = i :: unmarked l := by
  simp [unmarked, h]

theorem unmarked_reverse (l : List Instruction) : unmarked l.reverse = (unmarked l).reverse :=
  List.filter_reverse

/-- The actions of a body stand at the positions of its elements. -/
theorem Body.mem_indexed {b : Body} {n : Nat} {a : Action} :
    (n, a) ∈ b.indexed ↔ ∃ i, b.elements[n]? = some i ∧ i.action = a := by
  simp only [Body.indexed, List.mem_map, Prod.exists, Prod.mk.injEq, List.mem_zipIdx_iff_getElem?]
  constructor
  · rintro ⟨i, _, hi, rfl, rfl⟩
    exact ⟨i, hi, rfl⟩
  · rintro ⟨i, hi, rfl⟩
    exact ⟨i, n, hi, rfl, rfl⟩

/-- Actions are listed in program order. -/
theorem Body.pairwise_indexed (b : Body) : b.indexed.Pairwise (·.1 < ·.1) := by
  have hpositions : (b.elements.zipIdx.map (·.2)).Pairwise (· < ·) := by
    rw [List.zipIdx_map_snd]
    exact List.pairwise_lt_range'
  exact List.pairwise_map.mpr (List.pairwise_map.mp hpositions)

theorem Body.map_action_indexed (b : Body) : b.indexed.map (·.2) = b.elements.map (·.action) := by
  conv_rhs => rw [← List.zipIdx_map_fst 0 b.elements, List.map_map]
  rw [Body.indexed, List.map_map]
  rfl

/-- The elements of a body that are no markers. -/
def Body.instructions (b : Body) : List Instruction := unmarked b.elements

/-! ### Sites -/

/-- An action and the instructions before and after it. -/
structure Site where
  before : List Instruction
  action : Action
  after : List Instruction

/-- The sites of a list of instructions that comes after others. -/
def sitesFrom : List Instruction → List Instruction → List Site
  | _, [] => []
  | before, i :: after => ⟨before, i.action, after⟩ :: sitesFrom (before ++ [i]) after

/-- The site of the action `a` at position `n` of a body. -/
def Body.siteAt (b : Body) (n : Nat) (a : Action) : Site where
  before := unmarked (b.elements.take n)
  action := a
  after := unmarked (b.elements.drop (n + 1))

/-- The sites of a body are those of its instructions. -/
theorem Body.map_siteAt_semantic (b : Body) :
    b.semantic.map (fun x => b.siteAt x.1 x.2) = sitesFrom [] b.instructions := by
  -- the elements from a position on, with what stands before them generalized
  have hfrom (before after : List Instruction) (hb : b.elements = before ++ after) :
      (((after.zipIdx before.length).map fun x => (x.2, x.1.action)).filter
          (!·.2.isMarker)).map (fun x => b.siteAt x.1 x.2) =
        sitesFrom (unmarked before) (unmarked after) := by
    induction after generalizing before with
    | nil => rfl
    | cons i after ih =>
        have hsplit : b.elements = (before ++ [i]) ++ after := by rw [hb, List.append_cons]
        have ih := ih (before ++ [i]) hsplit
        rw [List.length_append, List.length_singleton, unmarked_append] at ih
        simp only [List.zipIdx_cons, List.map_cons, List.filter_cons]
        cases hi : i.isMarker with
        | true =>
            have hskip : i.action.isMarker = true := hi
            rw [unmarked_cons_of_marker hi, unmarked_nil, List.append_nil] at ih
            simpa [hskip, unmarked_cons_of_marker hi] using ih
        | false =>
            have hkeep : i.action.isMarker = false := hi
            rw [unmarked_cons hi, unmarked_nil] at ih
            have hsite : b.siteAt before.length i.action =
                ⟨unmarked before, i.action, unmarked after⟩ := by
              simp [siteAt, hb]
            simpa [hkeep, unmarked_cons hi, sitesFrom, hsite] using ih
  exact hfrom [] b.elements rfl

/-- Positions of two bodies that have the same site. -/
def Body.Corresponds (b b' : Body) (x y : Nat × Action) : Prop :=
  b.siteAt x.1 x.2 = b'.siteAt y.1 y.2

/-- Bodies with the same instructions have the same sites in the same order. -/
theorem Body.forall₂_semantic {b b' : Body} (h : b.instructions = b'.instructions) :
    List.Forall₂ (Corresponds b b') b.semantic b'.semantic := by
  have hmap : List.Forall₂ Eq (b.semantic.map fun x => b.siteAt x.1 x.2)
      (b'.semantic.map fun x => b'.siteAt x.1 x.2) := by
    rw [List.forall₂_eq_eq_eq, map_siteAt_semantic, map_siteAt_semantic, h]
  rwa [List.forall₂_map_left_iff, List.forall₂_map_right_iff] at hmap

/-! ### Functions that say nothing about markers -/

/-- The function has the value `silent` for every marker. -/
structure IgnoresMarkers {β : Type} (f : Action → β) (silent : β) : Prop where
  label : ∀ id, f (.label id) = silent
  line : ∀ number, f (.line number) = silent
  frame : f .frame = silent

namespace IgnoresMarkers

variable {β : Type} {f : Action → β} {silent : β} {a : Action}

theorem eq_silent (h : IgnoresMarkers f silent) (ha : a.isMarker = true) : f a = silent := by
  cases a with
  | label id => exact h.label id
  | line number => exact h.line number
  | frame => exact h.frame
  | _ => exact absurd ha Bool.false_ne_true

end IgnoresMarkers

namespace Body

variable (b : Body)

theorem any_elements {p : Instruction → Bool} (hp : ∀ pc, IgnoresMarkers (p ⟨·, pc⟩) false) :
    b.elements.any p = b.instructions.any p :=
  (List.any_filter_not fun i hi => (hp i.pc).eq_silent hi).symm

theorem countP_elements {p : Instruction → Bool} (hp : ∀ pc, IgnoresMarkers (p ⟨·, pc⟩) false) :
    b.elements.countP p = b.instructions.countP p :=
  (List.countP_filter_not fun i hi => (hp i.pc).eq_silent hi).symm

theorem filterMap_elements {β : Type} {f : Instruction → Option β}
    (hf : ∀ pc, IgnoresMarkers (f ⟨·, pc⟩) none) :
    b.elements.filterMap f = b.instructions.filterMap f :=
  (List.filterMap_filter_not fun i hi => (hf i.pc).eq_silent hi).symm

theorem any_indexed {p : Nat × Action → Bool} (hp : ∀ n, IgnoresMarkers (p ⟨n, ·⟩) false) :
    b.indexed.any p = b.semantic.any p := by
  have hsilent (x : Nat × Action) (hx : x.2.isMarker) := (hp x.1).eq_silent hx
  exact (List.any_filter_not hsilent).symm

theorem find?_indexed {p : Nat × Action → Bool} (hp : ∀ n, IgnoresMarkers (p ⟨n, ·⟩) false) :
    b.indexed.find? p = b.semantic.find? p := by
  have hsilent (x : Nat × Action) (hx : x.2.isMarker) := (hp x.1).eq_silent hx
  exact (List.find?_filter_not hsilent).symm

theorem filterMap_indexed {β : Type} {f : Nat × Action → Option β}
    (hf : ∀ n, IgnoresMarkers (f ⟨n, ·⟩) none) :
    b.indexed.filterMap f = b.semantic.filterMap f := by
  have hsilent (x : Nat × Action) (hx : x.2.isMarker) := (hf x.1).eq_silent hx
  exact (List.filterMap_filter_not hsilent).symm

end Body

/-! ### Searches -/

/-- The first of the nearest `steps` instructions that satisfies `found`, unless one that satisfies
`stop` is met before or at it. -/
def nearest (found stop : Action → Bool) : Nat → List Instruction → Option Instruction
  | 0, _ => none
  | _, [] => none
  | steps + 1, i :: rest =>
    if stop i.action then none
    else if found i.action then some i
    else nearest found stop steps rest

/-- What the search may see ends before the first instruction that satisfies `stop`. -/
theorem nearest_eq_find? (found stop : Action → Bool) (steps : Nat) (l : List Instruction) :
    nearest found stop steps l =
      ((l.take steps).takeWhile (!stop ·.action)).find? (found ·.action) := by
  induction l generalizing steps with
  | nil =>
      cases steps with
      | zero | succ steps => rfl
  | cons i l ih =>
      cases steps with
      | zero => rfl
      | succ steps =>
          rw [nearest, List.take_succ_cons, List.takeWhile_cons, ih]
          cases hstop : stop i.action with
          | true => rfl
          | false =>
              simp only [Bool.false_eq_true, if_false, Bool.not_false, if_true, List.find?_cons]
              cases found i.action with
              | true | false => rfl

/-- The nearest `steps` instructions before position `n`, back to the nearest one that satisfies
`stop`, which is left out. -/
def Body.windowBefore (b : Body) (n steps : Nat) (stop : Action → Bool) : List Instruction :=
  ((unmarked (b.elements.take n)).reverse.take steps).takeWhile (!stop ·.action)

namespace Body

variable (found stop : Action → Bool)

/-- The search backward finds the position of the nearest instruction. -/
theorem map_searchBack (steps : Nat) (before after : List Instruction) :
    (searchBack found stop steps before).map ((before.reverse ++ after)[·]?) =
      (nearest found stop steps (unmarked before)).map some := by
  induction before generalizing steps after with
  | nil =>
      cases steps with
      | zero | succ steps => rfl
  | cons i before ih =>
      cases steps with
      | zero => simp [searchBack, nearest]
      | succ steps =>
          rw [searchBack, List.reverse_cons, List.append_assoc, List.singleton_append]
          cases hi : i.isMarker with
          | true =>
              rw [unmarked_cons_of_marker hi, if_pos rfl]
              exact ih (steps + 1) (i :: after)
          | false =>
              rw [unmarked_cons hi, nearest, if_neg Bool.false_ne_true]
              split
              · rfl
              split
              · simp
              · exact ih steps (i :: after)

/-- The bounded search backward is a search among the nearest instructions before the position. -/
theorem map_lookBack (b : Body) (n steps : Nat) :
    (b.lookBack n found stop steps).map (b.elements[·]?) =
      (nearest found stop steps (unmarked (b.elements.take n)).reverse).map some := by
  have h := map_searchBack found stop steps (b.elements.take n).reverse (b.elements.drop n)
  rwa [List.reverse_reverse, List.take_append_drop, unmarked_reverse] at h

theorem isSome_lookBack (b : Body) (n steps : Nat) :
    (b.lookBack n found stop steps).isSome =
      (nearest found stop steps (unmarked (b.elements.take n)).reverse).isSome := by
  have h := congrArg Option.isSome (map_lookBack found stop b n steps)
  rwa [Option.isSome_map, Option.isSome_map] at h

/-- The bounded search backward finds something exactly if the window before the position has it. -/
theorem isSome_lookBack_iff {found stop : Action → Bool} {b : Body} {n steps : Nat} :
    (b.lookBack n found stop steps).isSome ↔
      ∃ i ∈ b.windowBefore n steps stop, found i.action := by
  rw [isSome_lookBack, nearest_eq_find?, List.find?_isSome]
  rfl

theorem isSome_searchOn (steps n : Nat) (after : List Instruction) :
    (searchOn found stop steps n after).isSome =
      (nearest found stop steps (unmarked after)).isSome := by
  induction after generalizing steps n with
  | nil =>
      cases steps with
      | zero | succ steps => rfl
  | cons i after ih =>
      cases steps with
      | zero => simp [searchOn, nearest]
      | succ steps =>
          rw [searchOn]
          cases hi : i.isMarker with
          | true =>
              rw [unmarked_cons_of_marker hi, if_pos rfl]
              exact ih (steps + 1) (n + 1)
          | false =>
              rw [unmarked_cons hi, nearest, if_neg Bool.false_ne_true]
              split
              · rfl
              split
              · rfl
              · exact ih steps (n + 1)

/-- The bounded search forward is a search among the nearest instructions from the position on. -/
theorem isSome_lookOn (b : Body) (n steps : Nat) :
    (b.lookOn n found stop steps).isSome =
      (nearest found stop steps (unmarked (b.elements.drop n))).isSome :=
  isSome_searchOn found stop steps n (b.elements.drop n)

namespace Corresponds

variable {b b' : Body} {x y : Nat × Action}

theorem action_eq (h : Corresponds b b' x y) : x.2 = y.2 := congrArg Site.action h

theorem before_eq (h : Corresponds b b' x y) :
    unmarked (b.elements.take x.1) = unmarked (b'.elements.take y.1) := congrArg Site.before h

theorem after_eq (h : Corresponds b b' x y) :
    unmarked (b.elements.drop (x.1 + 1)) = unmarked (b'.elements.drop (y.1 + 1)) :=
  congrArg Site.after h

theorem isSome_lookBack_eq (h : Corresponds b b' x y) (steps : Nat) :
    (b.lookBack x.1 found stop steps).isSome = (b'.lookBack y.1 found stop steps).isSome := by
  rw [isSome_lookBack, isSome_lookBack, h.before_eq]

theorem isSome_lookOn_eq (h : Corresponds b b' x y) (steps : Nat) :
    (b.lookOn (x.1 + 1) found stop steps).isSome =
      (b'.lookOn (y.1 + 1) found stop steps).isSome := by
  rw [isSome_lookOn, isSome_lookOn, h.after_eq]

end Corresponds

end Body

end ClassAudit
