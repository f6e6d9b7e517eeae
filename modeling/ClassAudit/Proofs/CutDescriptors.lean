import ClassAudit.Proofs.ArgumentPlaces
import Mathlib.Data.List.Basic

/-!
# Descriptors that break off

Where interface calls are written, the descriptor of the call is scanned without having been
checked. The scan can cope with any text but one kind: behind the brackets of an array it looks
at the next character without asking whether there is one. So it runs past the end of exactly
the texts that end in an array's brackets, and it reaches the end only of texts that it can
divide into arguments up to there. Closing parentheses behind brackets are taken for elements.

## Main definitions

* `ScannedArgument` - a text that the scan steps over as one argument.
* `BreaksOff` - a descriptor that ends inside an array type.

## Main statements

* `countSlots_append_eq_none_iff` - the scan goes on behind an argument.
* `argSlots_eq_none_iff` - **the scan runs past the end of exactly the descriptors that break off**.
-/

namespace ClassAudit

/-! ### ScannedArgument arguments -/

/-- What the scan takes for the type of a value that is no array: any character but the beginnings
of classes and arrays, or a class whose name ends. -/
inductive ScannedElement : List Char → Prop
  | single {c : Char} (hclass : c ≠ 'L') (harray : c ≠ '[') : ScannedElement [c]
  | object {name : List Char} (hname : ';' ∉ name) : ScannedElement ('L' :: (name ++ [';']))

/-- What the scan steps over as one argument. A closing parenthesis ends the arguments, except
behind brackets. -/
def ScannedArgument (s : List Char) : Prop :=
  ∃ dims element, ScannedElement element ∧ (dims = 0 → element ≠ [')']) ∧
    s = List.replicate dims '[' ++ element

/-- The text consists of arguments, and of brackets that no element follows. -/
def EndsInArray (s : List Char) : Prop :=
  ∃ (arguments : List (List Char)) (dims : Nat), (∀ x ∈ arguments, ScannedArgument x) ∧
    s = arguments.flatten ++ List.replicate (dims + 1) '['

/-- The descriptor ends inside an array type. Its first character, normally a parenthesis, is not
looked at. -/
def BreaksOff (desc : String) : Prop :=
  ∃ first rest, desc.toList = first :: rest ∧ EndsInArray rest

variable {element s : List Char}

/-! ### Going on behind an argument -/

theorem dropWhile_bracket (dims : Nat) (rest : List Char) :
    (List.replicate dims '[' ++ rest).dropWhile (· == '[') = rest.dropWhile (· == '[') :=
  List.dropWhile_append_of_pos fun _ hc => beq_iff_eq.mpr (List.eq_of_mem_replicate hc)

theorem countSlots_single {c : Char} (hclose : c ≠ ')') (hclass : c ≠ 'L') (harray : c ≠ '[')
    (rest : List Char) : countSlots (c :: rest) = none ↔ countSlots rest = none := by
  rw [countSlots]
  simp only [beq_iff_eq, hclose, hclass, harray, if_false]
  split <;> exact Option.map_eq_none_iff

theorem ScannedElement.countSlots_array (h : ScannedElement element) (dims : Nat)
    (rest : List Char) :
    countSlots (List.replicate (dims + 1) '[' ++ (element ++ rest)) = none ↔
      countSlots rest = none := by
  rw [List.replicate_succ, List.cons_append]
  cases h with
  | @single c hclass harray =>
      have hdrop : (List.replicate dims '[' ++ ([c] ++ rest)).dropWhile (· == '[') = c :: rest := by
        rw [dropWhile_bracket, List.singleton_append,
          List.dropWhile_cons_of_neg (by simpa using harray)]
      rw [countSlots_bracket hdrop, if_neg (by simpa using hclass)]
      exact Option.map_eq_none_iff
  | @object name hname =>
      have hdrop : (List.replicate dims '[' ++ ('L' :: (name ++ [';']) ++ rest)).dropWhile
          (· == '[') = 'L' :: (name ++ ';' :: rest) := by
        rw [dropWhile_bracket, List.cons_append, List.append_assoc, List.singleton_append]
        rfl
      rw [countSlots_bracket hdrop, if_pos (beq_self_eq_true _), countSlots_object hname]
      exact Option.map_eq_none_iff

/-- The scan goes on behind an argument. -/
theorem countSlots_append_eq_none_iff (h : ScannedArgument s) (rest : List Char) :
    countSlots (s ++ rest) = none ↔ countSlots rest = none := by
  obtain ⟨dims, element, helement, hclose, rfl⟩ := h
  rw [List.append_assoc]
  cases dims with
  | zero =>
      cases helement with
      | single hclass harray =>
          exact countSlots_single (fun hc => hclose rfl (by rw [hc])) hclass harray rest
      | object hname =>
          rw [List.replicate_zero, List.nil_append, List.cons_append, List.append_assoc,
            List.singleton_append, countSlots_object hname]
          exact Option.map_eq_none_iff
  | succ dims => exact helement.countSlots_array dims rest

/-! ### Running past the end -/

theorem countSlots_brackets (dims : Nat) :
    countSlots (List.replicate (dims + 1) '[') = none := by
  have hnil : (List.replicate dims '[').dropWhile (· == '[') = [] := by
    have h := dropWhile_bracket dims []
    rwa [List.append_nil] at h
  rw [List.replicate_succ, countSlots]
  simp only [Char.reduceBEq, Bool.false_eq_true, if_false, Bool.or_self, if_true]
  split
  · rfl
  · rename_i hcons
    exact absurd (hnil.symm.trans hcons) (List.cons_ne_nil _ _).symm

/-- What is left behind the name of a class, if the scan fails there. -/
theorem exists_name {rest : List Char}
    (h : countSlots ((rest.dropWhile (· != ';')).drop 1) = none) :
    ∃ name after, ';' ∉ name ∧ rest = name ++ ';' :: after ∧
      (rest.dropWhile (· != ';')).drop 1 = after := by
  cases hdrop : rest.dropWhile (· != ';') with
  | nil =>
      rw [hdrop, List.drop_nil, countSlots] at h
      cases h
  | cons c after =>
      have hc : c = ';' := by
        have hhead := List.head_dropWhile_not (p := (· != ';')) (l := rest) (by simp [hdrop])
        simpa [hdrop] using hhead
      subst hc
      refine ⟨rest.takeWhile (· != ';'), after, fun hmem => ?_, ?_, rfl⟩
      · exact absurd (List.mem_takeWhile_imp hmem) (by decide)
      · rw [← hdrop, List.takeWhile_append_dropWhile]

theorem eq_replicate_append_of_dropWhile {s t : List Char}
    (h : s.dropWhile (· == '[') = t) :
    ∃ dims, s = List.replicate dims '[' ++ t := by
  have hbrackets : ∀ c ∈ s.takeWhile (· == '['), c = '[' := fun c hc => by
    simpa using List.mem_takeWhile_imp hc
  refine ⟨(s.takeWhile (· == '[')).length, ?_⟩
  rw [← List.eq_replicate_iff.mpr ⟨rfl, hbrackets⟩, ← h, List.takeWhile_append_dropWhile]

theorem endsInArray_append {x rest : List Char} (hx : ScannedArgument x) (h : EndsInArray rest) :
    EndsInArray (x ++ rest) := by
  obtain ⟨arguments, dims, harguments, rfl⟩ := h
  refine ⟨x :: arguments, dims, List.forall_mem_cons.mpr ⟨hx, harguments⟩, ?_⟩
  rw [List.flatten_cons, List.append_assoc]

/-- Where the scan runs past the end, it has divided what comes before into arguments. -/
theorem endsInArray_of_countSlots {s : List Char} (h : countSlots s = none) : EndsInArray s := by
  fun_induction countSlots s with
  | case1 => exact nomatch h
  | case2 => exact nomatch h
  | case3 c rest hclose hwide ih =>
      have hc : c = 'J' ∨ c = 'D' := by simpa using hwide
      have hne : c ≠ 'L' ∧ c ≠ '[' ∧ c ≠ ')' := by rcases hc with rfl | rfl <;> decide
      exact endsInArray_append ⟨0, [c], .single hne.1 hne.2.1, fun _ => by simpa using hne.2.2, rfl⟩
        (ih (Option.map_eq_none_iff.mp h))
  | case4 c rest hclose hwide hclass _ ih =>
      have hnone := Option.map_eq_none_iff.mp h
      obtain rfl : c = 'L' := beq_iff_eq.mp hclass
      obtain ⟨name, after, hname, rfl, hafter⟩ := exists_name hnone
      rw [hafter] at ih hnone
      have := endsInArray_append ⟨0, _, .object hname, fun _ => by simp, rfl⟩ (ih hnone)
      simpa using this
  | case5 c rest hclose hwide hclass harray hnil =>
      obtain rfl : c = '[' := beq_iff_eq.mp harray
      obtain ⟨dims, rfl⟩ := eq_replicate_append_of_dropWhile hnil
      exact ⟨[], dims, by simp, by simp [List.replicate_succ]⟩
  | case6 c rest hclose hwide hclass harray d inner hdrop _ hd _ ih =>
      have hnone := Option.map_eq_none_iff.mp h
      obtain rfl : c = '[' := beq_iff_eq.mp harray
      obtain rfl : d = 'L' := beq_iff_eq.mp hd
      obtain ⟨name, after, hname, rfl, hafter⟩ := exists_name hnone
      obtain ⟨dims, rfl⟩ := eq_replicate_append_of_dropWhile hdrop
      rw [hafter] at ih hnone
      have := endsInArray_append ⟨dims + 1, _, .object hname, (fun h => nomatch h), rfl⟩ (ih hnone)
      simpa [List.replicate_succ] using this
  | case7 c rest hclose hwide hclass harray d inner hdrop _ hd ih =>
      obtain rfl : c = '[' := beq_iff_eq.mp harray
      have hbracket : d ≠ '[' := by
        have hhead := List.head_dropWhile_not (p := (· == '[')) (l := rest) (by simp [hdrop])
        simpa [hdrop] using hhead
      obtain ⟨dims, rfl⟩ := eq_replicate_append_of_dropWhile hdrop
      have := endsInArray_append ⟨dims + 1, [d], .single (by simpa using hd) hbracket,
        (fun h => nomatch h), rfl⟩ (ih (Option.map_eq_none_iff.mp h))
      simpa [List.replicate_succ] using this
  | case8 c rest hclose hwide hclass harray ih =>
      exact endsInArray_append ⟨0, [c], .single (by simpa using hclass) (by simpa using harray),
        fun _ => by simpa using hclose, rfl⟩ (ih (Option.map_eq_none_iff.mp h))

theorem countSlots_eq_none_iff : countSlots s = none ↔ EndsInArray s := by
  refine ⟨endsInArray_of_countSlots, ?_⟩
  rintro ⟨arguments, dims, harguments, rfl⟩
  induction arguments with
  | nil => exact countSlots_brackets dims
  | cons x arguments ih =>
      obtain ⟨hx, harguments⟩ := List.forall_mem_cons.mp harguments
      rw [List.flatten_cons, List.append_assoc, countSlots_append_eq_none_iff hx]
      exact ih harguments

/-- **The scan runs past the end of exactly the descriptors that break off** inside an array. -/
theorem argSlots_eq_none_iff {desc : String} : argSlots desc = none ↔ BreaksOff desc := by
  rw [argSlots, BreaksOff]
  cases desc.toList with
  | nil => simp
  | cons first rest => simp [countSlots_eq_none_iff]

end ClassAudit
