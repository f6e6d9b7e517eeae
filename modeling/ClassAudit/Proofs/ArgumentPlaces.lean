import ClassAudit.Assembly.Layout
import ClassAudit.Proofs.ParameterSlots

/-!
# Argument places

How many places the arguments of a call take is counted in two ways. Where interface calls are
written, the descriptor is scanned from left to right without being checked; where local variables are
named, it is taken apart first. The scan may lose its way in a text that is no descriptor. On the
descriptors of methods both agree, whatever stands in the names of classes.

## Main definitions

* `FillPlaces` - parameters take consecutive places, with none left out.

## Main statements

* `FieldDescriptor.countSlots_append` - the scan counts one parameter and goes on behind it.
* `fillPlaces_slotsFrom` - the local variables that are listed are consecutive.
* `argSlots_fills_paramSlots` - **the scan counts exactly the places that the parameters fill**.
-/

namespace ClassAudit

/-! ### Scanning a descriptor -/

section Scan

variable {element field : List Char}

theorem countSlots_close (tail : List Char) : countSlots (')' :: tail) = some 0 := by
  rw [countSlots]
  rfl

theorem countSlots_class (rest : List Char) :
    countSlots ('L' :: rest) =
      (countSlots ((rest.dropWhile (· != ';')).drop 1)).map (· + 1) := by
  rw [countSlots]
  rfl

/-- A class takes one place, whatever its name holds. -/
theorem countSlots_object {name : List Char} (hname : ';' ∉ name) (rest : List Char) :
    countSlots ('L' :: (name ++ ';' :: rest)) = (countSlots rest).map (· + 1) := by
  have hinside : ∀ c ∈ name, (c != ';') = true := fun c hc =>
    bne_iff_ne.mpr fun hsemi => hname (hsemi ▸ hc)
  rw [countSlots_class, List.dropWhile_append_of_pos hinside,
    List.dropWhile_cons_of_neg (by decide), List.drop_one, List.tail_cons]

/-- A type that is no array takes the places that a value of it does. -/
theorem ElementDescriptor.countSlots_append (h : ElementDescriptor element) (rest : List Char) :
    countSlots (element ++ rest) =
      (countSlots rest).map (· + typeSize (String.ofList element)) := by
  cases h with
  | @primitive c hc =>
      rw [List.singleton_append, countSlots]
      simp only [List.mem_cons, List.not_mem_nil, or_false] at hc
      rcases hc with rfl | rfl | rfl | rfl | rfl | rfl | rfl | rfl <;> rfl
  | @object name hne hname =>
      have hsize : typeSize (String.ofList ('L' :: (name ++ [';']))) = 1 := by
        rw [typeSize, if_neg]
        simp [← String.toList_inj]
      rw [hsize, List.cons_append, List.append_assoc, List.singleton_append,
        countSlots_object hname]

/-- Behind the brackets of an array the scan looks at one character only. -/
theorem countSlots_bracket {s inner : List Char} {d : Char}
    (h : s.dropWhile (· == '[') = d :: inner) :
    countSlots ('[' :: s) =
      if d == 'L' then countSlots ('L' :: inner) else (countSlots inner).map (· + d.utf8Size) := by
  rw [countSlots_class, countSlots]
  simp only [Char.reduceBEq, Bool.false_eq_true, if_false, Bool.or_self, if_true]
  split
  · rename_i hnil
    exact absurd (h.symm.trans hnil) (List.cons_ne_nil d inner)
  · rename_i hcons
    obtain ⟨rfl, rfl⟩ := List.cons.inj (hcons.symm.trans h)
    rfl

/-- An array takes one place, whatever its elements take. -/
theorem ElementDescriptor.countSlots_array (h : ElementDescriptor element) (dims : Nat)
    (rest : List Char) :
    countSlots ('[' :: (List.replicate dims '[' ++ (element ++ rest))) =
      (countSlots rest).map (· + 1) := by
  obtain ⟨-, hdrop⟩ := span_brackets h dims rest
  cases h with
  | @primitive c hc =>
      rw [countSlots_bracket hdrop]
      simp only [List.mem_cons, List.not_mem_nil, or_false] at hc
      rcases hc with rfl | rfl | rfl | rfl | rfl | rfl | rfl | rfl <;> rfl
  | @object name hne hname =>
      rw [List.cons_append, List.append_assoc, List.singleton_append] at hdrop ⊢
      rw [countSlots_bracket hdrop, if_pos (beq_self_eq_true _), countSlots_object hname]

theorem typeSize_array (s : List Char) : typeSize (String.ofList ('[' :: s)) = 1 := by
  rw [typeSize, if_neg]
  simp [← String.toList_inj]

/-- One parameter is counted, and the scan goes on behind it. -/
theorem FieldDescriptor.countSlots_append (h : FieldDescriptor field) (rest : List Char) :
    countSlots (field ++ rest) = (countSlots rest).map (· + typeSize (String.ofList field)) := by
  obtain ⟨dims, element, -, helement, rfl⟩ := h
  cases dims with
  | zero => exact helement.countSlots_append rest
  | succ dims =>
      rw [List.replicate_succ, List.cons_append, List.cons_append, List.append_assoc,
        helement.countSlots_array, typeSize_array]

/-- The parameters are counted up to the closing parenthesis. -/
theorem countSlots_params {params : List String} (h : ∀ p ∈ params, FieldDescriptor p.toList)
    (tail : List Char) :
    countSlots (params.flatMap String.toList ++ ')' :: tail) =
      some (params.map typeSize).sum := by
  induction params with
  | nil => exact countSlots_close tail
  | cons p params ih =>
      obtain ⟨hp, hparams⟩ := List.forall_mem_cons.mp h
      rw [List.flatMap_cons, List.append_assoc, hp.countSlots_append, ih hparams,
        String.ofList_toList, Option.map_some, List.map_cons, List.sum_cons, Nat.add_comm]

/-- On the descriptor of a method the scan does not break off. -/
theorem argSlots_of_parse {desc : String} {d : MethodDescriptor}
    (h : MethodDescriptor.parse desc = .ok d) : argSlots desc = some (d.params.map typeSize).sum := by
  obtain ⟨hproper, rfl⟩ := MethodDescriptor.parse_eq_ok_iff.mp h
  rw [argSlots, MethodDescriptor.toList_text]
  simp only [countSlots_params hproper.params, Option.map_some]
  rfl

end Scan

/-! ### Consecutive places -/

/-- The parameters begin in the listed places, one behind the other, and fill all places from `first`
up to `stop`. -/
structure FillPlaces (first stop : Nat) (params : List String) (slots : List Nat) : Prop where
  length : slots.length = params.length
  ascending : slots.Pairwise (· < ·)
  begins : ∀ slot ∈ slots.head?, slot = first
  /-- A parameter begins where the one before it ends. -/
  next : ∀ n p slot slot', params[n]? = some p → slots[n]? = some slot →
    slots[n + 1]? = some slot' → slot' = slot + typeSize p
  ends : ∀ p ∈ params.getLast?, ∀ slot ∈ slots.getLast?, slot + typeSize p = stop
  empty : params = [] → first = stop

/-- The local variables that are listed are consecutive. -/
theorem fillPlaces_slotsFrom (first : Nat) (params : List String) :
    FillPlaces first (first + (params.map typeSize).sum) params (slotsFrom first params) := by
  induction params generalizing first with
  | nil => exact ⟨rfl, .nil, by simp [slotsFrom], by simp, by simp, fun _ => rfl⟩
  | cons p params ih =>
      have hrest := ih (first + typeSize p)
      have hpos := typeSize_pos p
      rw [List.map_cons, List.sum_cons, ← Nat.add_assoc, slotsFrom]
      refine ⟨congrArg (· + 1) hrest.length, .cons (fun slot hslot => ?_) hrest.ascending, by simp,
        fun n q slot slot' hq hslot hslot' => ?_, ?_, by simp⟩
      · obtain ⟨before, q, after, -, rfl⟩ := mem_slotsFrom.mp hslot
        omega
      · cases n with
        | zero =>
            obtain rfl := Option.some.inj hq
            obtain rfl := Option.some.inj hslot
            refine hrest.begins slot' ?_
            rwa [List.head?_eq_getElem?]
        | succ n => exact hrest.next n q slot slot' hq hslot hslot'
      · cases params with
        | nil => simp [slotsFrom]
        | cons q params =>
            intro p' hp' slot hslot
            exact hrest.ends p' hp' slot hslot

/-- **The scan counts exactly the places that the parameters fill.** On every valid descriptor of a
method it succeeds, with the sum of the sizes of the parameters; and the local variables that are
listed for them are as many consecutive places, from the first one on or behind the receiver. -/
theorem argSlots_fills_paramSlots {desc : String} {d : MethodDescriptor}
    (h : MethodDescriptor.parse desc = .ok d) :
    ∃ n, argSlots desc = some n ∧ n = (d.params.map typeSize).sum ∧
      ∀ static, ∃ slots, paramSlots? desc static = some slots ∧
        FillPlaces (if static then 0 else 1) (if static then n else n + 1) d.params slots := by
  refine ⟨_, argSlots_of_parse h, rfl, fun static => ?_⟩
  rw [paramSlots?, h]
  refine ⟨_, rfl, ?_⟩
  cases static with
  | false =>
      rw [if_neg Bool.false_ne_true, if_neg Bool.false_ne_true, Nat.add_comm]
      exact fillPlaces_slotsFrom 1 d.params
  | true =>
      rw [if_pos rfl, if_pos rfl]
      simpa using fillPlaces_slotsFrom 0 d.params

/-- Arrays of wide elements and a class whose name looks like the end of the list. -/
theorem argSlots_fills_arrays :
    MethodDescriptor.parse "([[JLa)J;JD)V" = .ok ⟨["[[J", "La)J;", "J", "D"], "V"⟩ ∧
      ∃ n, argSlots "([[JLa)J;JD)V" = some n ∧
        n = (["[[J", "La)J;", "J", "D"].map typeSize).sum ∧
        ∀ static, ∃ slots, paramSlots? "([[JLa)J;JD)V" static = some slots ∧
          FillPlaces (if static then 0 else 1) (if static then n else n + 1)
            ["[[J", "La)J;", "J", "D"] slots := by
  have hparse : MethodDescriptor.parse "([[JLa)J;JD)V" =
      .ok ⟨["[[J", "La)J;", "J", "D"], "V"⟩ := by decide +kernel
  exact ⟨hparse, argSlots_fills_paramSlots hparse⟩

end ClassAudit
