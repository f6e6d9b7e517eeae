import ClassAudit.ClassFile.Descriptor
import ClassAudit.Proofs.Reading
import Mathlib.Data.List.TakeWhile

/-!
# The grammar of descriptors

A field descriptor is at most 255 opening brackets before a primitive letter or before a class name
between `L` and `;`. The name may hold anything but `;`, brackets, parentheses and primitive letters
included, so what a text is taken apart into depends on where its names end. It does not depend on
anything else: a field descriptor is read off the beginning of any text that begins with one,
whatever follows, and parameters are read up to the parenthesis that ends them. Descriptors are taken
apart here by their characters, one after the other.

## Main definitions

* `takeField`, `takeParams`, `MethodDescriptor.ofChars` - descriptors taken apart.
* `ElementDescriptor`, `FieldDescriptor` - the grammar of field descriptors.
* `MethodDescriptor.text` - the written form of a method descriptor.
* `MethodDescriptor.Proper` - the parts of a method descriptor belong to the grammar.

## Main statements

* `Text.cutAt_eq_some_iff` - a cut is made at the first separator.
* `takeField_eq_some_iff` - exactly the field descriptors are read off the beginning of a text.
* `objectType?_elementType_eq_some_iff` - the class that the elements of a type belong to.
* `takeParams_eq_ok_iff` - exactly the lists of field descriptors are read up to a parenthesis.
-/

namespace ClassAudit

/-! ### Taking descriptors apart -/

/-- Splits a text into the field descriptor that it begins with and the rest. -/
def takeField (s : List Char) : Option (List Char × List Char) :=
  let dims := s.takeWhile (· == '[')
  if dims.length > 255 then none
  else match s.dropWhile (· == '[') with
    | [] => none
    | c :: rest =>
      if primitiveLetters.contains c then some (dims ++ [c], rest)
      else if c == 'L' then
        match Text.cutAt (· == ';') rest with
        | some (name, rest) => if name.isEmpty then none else some (dims ++ 'L' :: name ++ [';'], rest)
        | none => none
      else none

/-- What follows a field descriptor is shorter than the whole text. -/
theorem takeField_length {s field rest : List Char} (h : takeField s = some (field, rest)) :
    rest.length < s.length := by
  unfold takeField at h
  simp only at h
  split at h
  · exact absurd h (by simp)
  · split at h
    · exact absurd h (by simp)
    · rename_i c tail hs
      have hdrop := Text.length_lt_of_dropWhile hs
      split at h
      · simp only [Option.some.injEq, Prod.mk.injEq] at h
        rw [← h.2]; omega
      · split at h
        · split at h
          · rename_i name tail' hcut
            split at h
            · exact absurd h (by simp)
            · simp only [Option.some.injEq, Prod.mk.injEq] at h
              have := Text.length_lt_of_cutAt hcut
              rw [← h.2]; omega
          · exact absurd h (by simp)
        · exact absurd h (by simp)

/-- Is the text exactly one field descriptor? -/
def isFieldDescriptor (s : List Char) : Bool :=
  match takeField s with
  | some (_, []) => true
  | _ => false

/-- Reads parameters up to the closing parenthesis; `offset` counts the bytes before `s`. -/
def takeParams (offset : Nat) (s : List Char) :
    Except DescriptorFault (List String × List Char) :=
  match s with
  | [] => .error .missingClose
  | c :: rest =>
    if c == ')' then .ok ([], rest)
    else match _h : takeField (c :: rest) with
      | none => .error (.badParameter offset)
      | some (field, rest') => do
        let (params, tail) ← takeParams (offset + Text.byteLength field) rest'
        return (String.ofList field :: params, tail)
termination_by s.length
decreasing_by exact takeField_length ‹_›

/-- Takes a method descriptor apart by characters. -/
def MethodDescriptor.ofChars (s : List Char) : Except DescriptorFault MethodDescriptor :=
  match s with
  | '(' :: rest => do
    let (params, tail) ← takeParams 1 rest
    let result := String.ofList tail
    if result == "V" || isFieldDescriptor tail then return ⟨params, result⟩
    else throw .badReturn
  | _ => .error .missingOpen

/-! ### The grammar -/

/-- A type that is no array: a primitive letter, or a class name between `L` and `;`. -/
inductive ElementDescriptor : List Char → Prop
  | primitive {c : Char} (hc : c ∈ ['B', 'C', 'D', 'F', 'I', 'J', 'S', 'Z']) :
      ElementDescriptor [c]
  | object {name : List Char} (hne : name ≠ []) (hname : ';' ∉ name) :
      ElementDescriptor ('L' :: (name ++ [';']))

/-- A type with at most 255 array dimensions. -/
def FieldDescriptor (s : List Char) : Prop :=
  ∃ dims element, dims ≤ 255 ∧ ElementDescriptor element ∧
    s = List.replicate dims '[' ++ element

/-- The written form of a method descriptor. -/
def MethodDescriptor.text (d : MethodDescriptor) : String :=
  "(" ++ String.join d.params ++ ")" ++ d.result

/-- The parts of a method descriptor belong to the grammar. -/
structure MethodDescriptor.Proper (d : MethodDescriptor) : Prop where
  params : ∀ p ∈ d.params, FieldDescriptor p.toList
  result : FieldDescriptor d.result.toList ∨ d.result = "V"

/-! ### Field descriptors -/

/-- A cut is made at the first element that satisfies `p`. -/
theorem Text.cutAt_eq_some_iff {α : Type} {p : α → Bool} {s l r : List α} :
    Text.cutAt p s = some (l, r) ↔ ∃ a, p a = true ∧ (∀ b ∈ l, p b = false) ∧ s = l ++ a :: r := by
  induction s generalizing l with
  | nil => simp [Text.cutAt]
  | cons x s ih =>
      rw [Text.cutAt]
      cases hx : p x with
      | true =>
          simp only [if_true, Option.some.injEq, Prod.mk.injEq]
          constructor
          · rintro ⟨rfl, rfl⟩
            exact ⟨x, hx, by simp, rfl⟩
          · rintro ⟨a, ha, hl, hs⟩
            -- A non-empty first part would begin with the separator `x`.
            cases l with
            | nil =>
                obtain ⟨-, rfl⟩ := List.cons.inj hs
                exact ⟨rfl, rfl⟩
            | cons b l =>
                obtain ⟨rfl, -⟩ := List.cons.inj hs
                exact absurd (hl x List.mem_cons_self) (by simp [hx])
      | false =>
          simp only [Bool.false_eq_true, if_false, Option.map_eq_some_iff, Prod.exists,
            Prod.mk.injEq]
          constructor
          · rintro ⟨l', r', hcut, rfl, rfl⟩
            obtain ⟨a, ha, hl, rfl⟩ := ih.mp hcut
            exact ⟨a, ha, List.forall_mem_cons.mpr ⟨hx, hl⟩, rfl⟩
          · rintro ⟨a, ha, hl, hs⟩
            cases l with
            | nil =>
                obtain ⟨rfl, -⟩ := List.cons.inj hs
                exact absurd ha (by simp [hx])
            | cons b l =>
                obtain ⟨rfl, htail⟩ := List.cons.inj hs
                exact ⟨l, r, ih.mpr ⟨a, ha, (List.forall_mem_cons.mp hl).2, htail⟩, rfl, rfl⟩

/-- A descriptor that is no array begins with neither a bracket nor a parenthesis. -/
theorem ElementDescriptor.exists_cons {element : List Char} (h : ElementDescriptor element) :
    ∃ c tail, element = c :: tail ∧ c ≠ '[' ∧ c ≠ ')' := by
  cases h with
  | @primitive c hc =>
      refine ⟨c, [], rfl, ?_, ?_⟩
      · rintro rfl
        exact absurd hc (by decide)
      · rintro rfl
        exact absurd hc (by decide)
  | object => exact ⟨_, _, rfl, by decide, by decide⟩

theorem takeWhile_bracket (s : List Char) :
    s.takeWhile (· == '[') = List.replicate (s.takeWhile (· == '[')).length '[' := by
  refine List.eq_replicate_iff.mpr ⟨rfl, fun b hb => ?_⟩
  have hb' := List.mem_takeWhile_imp hb
  exact eq_of_beq hb'

/-- The brackets before a descriptor that is no array are exactly its dimensions. -/
theorem span_brackets {element : List Char} (h : ElementDescriptor element) (dims : Nat)
    (rest : List Char) :
    (List.replicate dims '[' ++ (element ++ rest)).takeWhile (· == '[') =
        List.replicate dims '[' ∧
      (List.replicate dims '[' ++ (element ++ rest)).dropWhile (· == '[') = element ++ rest := by
  obtain ⟨c, tail, rfl, hc, -⟩ := h.exists_cons
  have hbrackets : ∀ a ∈ List.replicate dims '[', (a == '[') = true := by
    intro a ha
    rw [List.eq_of_mem_replicate ha]
    rfl
  rw [List.takeWhile_append_of_pos hbrackets, List.dropWhile_append_of_pos hbrackets,
    List.cons_append, List.takeWhile_cons_of_neg (by simpa using hc),
    List.dropWhile_cons_of_neg (by simpa using hc), List.append_nil]
  exact ⟨rfl, rfl⟩

/-- A field descriptor is read off the beginning of a text, whatever follows. -/
theorem FieldDescriptor.takeField_append {field : List Char} (h : FieldDescriptor field)
    (rest : List Char) : takeField (field ++ rest) = some (field, rest) := by
  obtain ⟨dims, element, hdims, helement, rfl⟩ := h
  obtain ⟨htake, hdrop⟩ := span_brackets helement dims rest
  rw [List.append_assoc, takeField, htake, hdrop, List.length_replicate]
  simp only [if_neg (Nat.not_lt.mpr hdims)]
  cases helement with
  | @primitive c hc =>
      have hletter : primitiveLetters.contains c = true := List.contains_iff_mem.mpr hc
      simp only [List.cons_append, List.nil_append, hletter, if_true]
  | @object name hne hname =>
      have hcut : Text.cutAt (· == ';') (name ++ ';' :: rest) = some (name, rest) := by
        refine Text.cutAt_eq_some_iff.mpr ⟨';', rfl, fun b hb => ?_, rfl⟩
        exact beq_eq_false_iff_ne.mpr fun hsemi => hname (hsemi ▸ hb)
      have hletter : primitiveLetters.contains 'L' = false := rfl
      have hempty : name.isEmpty = false := by simpa using hne
      simp only [List.cons_append, List.append_assoc, List.nil_append, hletter, hcut, hempty,
        Bool.false_eq_true, if_false, beq_self_eq_true, if_true]

/-- What is read off the beginning of a text is a field descriptor, and nothing is lost. -/
theorem fieldDescriptor_of_takeField {s field rest : List Char}
    (h : takeField s = some (field, rest)) : FieldDescriptor field ∧ s = field ++ rest := by
  have hsplit : s.takeWhile (· == '[') ++ s.dropWhile (· == '[') = s :=
    List.takeWhile_append_dropWhile
  have hbrackets := takeWhile_bracket s
  rw [takeField] at h
  generalize s.takeWhile (· == '[') = brackets at h hsplit hbrackets
  by_cases hdims : brackets.length > 255
  · simp only [if_pos hdims] at h
    cases h
  have hfield {element : List Char} (helement : ElementDescriptor element) :
      FieldDescriptor (brackets ++ element) :=
    ⟨brackets.length, element, Nat.not_lt.mp hdims, helement, by rw [← hbrackets]⟩
  simp only [if_neg hdims] at h
  cases hdrop : s.dropWhile (· == '[') with
  | nil =>
      rw [hdrop] at h
      cases h
  | cons c tail =>
      rw [hdrop] at h hsplit
      simp only at h
      split at h
      · rename_i hletter
        obtain ⟨rfl, rfl⟩ := Prod.mk.inj (Option.some.inj h)
        exact ⟨hfield (.primitive (List.contains_iff_mem.mp hletter)), by simp [← hsplit]⟩
      · split at h
        · rename_i hobject
          obtain rfl : c = 'L' := eq_of_beq hobject
          cases hcut : Text.cutAt (· == ';') tail with
          | none =>
              rw [hcut] at h
              cases h
          | some parts =>
              obtain ⟨name, rest'⟩ := parts
              rw [hcut] at h
              obtain ⟨a, ha, hname, rfl⟩ := Text.cutAt_eq_some_iff.mp hcut
              obtain rfl : a = ';' := eq_of_beq ha
              simp only at h
              split at h
              · cases h
              · rename_i hne
                obtain ⟨rfl, rfl⟩ := Prod.mk.inj (Option.some.inj h)
                have hsemi : ';' ∉ name := fun hmem => absurd (hname _ hmem) (by simp)
                have hobject := hfield (.object (by simpa using hne) hsemi)
                exact ⟨by simpa using hobject, by simp [← hsplit]⟩
        · cases h

/-- Exactly the field descriptors are read off the beginning of a text. -/
theorem takeField_eq_some_iff {s field rest : List Char} :
    takeField s = some (field, rest) ↔ FieldDescriptor field ∧ s = field ++ rest := by
  constructor
  · exact fieldDescriptor_of_takeField
  · rintro ⟨hfield, rfl⟩
    exact hfield.takeField_append rest

theorem isFieldDescriptor_iff {s : List Char} : isFieldDescriptor s = true ↔ FieldDescriptor s := by
  rw [isFieldDescriptor]
  constructor
  · intro h
    split at h
    · rename_i field htake
      obtain ⟨hfield, hs⟩ := takeField_eq_some_iff.mp htake
      rwa [hs, List.append_nil]
    · exact nomatch h
  · intro h
    have htake := h.takeField_append []
    rw [List.append_nil] at htake
    rw [htake]

/-! ### Classes -/

/-- The object types are the class descriptors of a name that is not empty. -/
theorem objectType?_eq_some_iff {desc name : String} :
    objectType? desc = some name ↔ name ≠ "" ∧ desc = "L" ++ name ++ ";" := by
  have hspelled : desc = "L" ++ name ++ ";" ↔ desc.toList = 'L' :: (name.toList ++ [';']) := by
    rw [← String.toList_inj]
    simp
  rw [hspelled, objectType?]
  split
  · rename_i rest hdesc
    simp only [hdesc, Option.ite_none_right_eq_some, Bool.and_eq_true, decide_eq_true_eq,
      beq_iff_eq, Option.some.injEq, List.cons.injEq, true_and]
    constructor
    · rintro ⟨⟨hlength, hlast⟩, rfl⟩
      obtain ⟨init, rfl⟩ := List.getLast?_eq_some_iff.mp hlast
      rw [List.dropLast_concat, String.toList_ofList]
      refine ⟨fun hempty => ?_, rfl⟩
      obtain rfl := String.ofList_eq_empty_iff.mp hempty
      exact absurd hlength (by decide)
    · rintro ⟨hne, rfl⟩
      have hpos : 1 ≤ name.toList.length :=
        List.length_pos_iff.mpr (mt String.toList_eq_nil_iff.mp hne)
      refine ⟨⟨?_, List.getLast?_concat⟩, ?_⟩
      · rw [List.length_append]
        exact Nat.succ_le_succ hpos
      · rw [List.dropLast_concat, String.ofList_toList]
  · rename_i hno
    refine iff_of_false (by simp) ?_
    rintro ⟨-, hdesc⟩
    exact hno _ hdesc

/-- The elements of a type belong to a class exactly if the type is written as brackets before the
class. -/
theorem objectType?_elementType_eq_some_iff {desc name : String} :
    objectType? (elementType desc) = some name ↔ name ≠ "" ∧
      ∃ dims, desc.toList = List.replicate dims '[' ++ ("L" ++ name ++ ";").toList := by
  rw [objectType?_eq_some_iff, elementType, and_congr_right_iff]
  intro _
  constructor
  · intro hdrop
    refine ⟨(desc.toList.takeWhile (· == '[')).length, ?_⟩
    rw [← takeWhile_bracket, ← hdrop, String.toList_ofList, List.takeWhile_append_dropWhile]
  · rintro ⟨dims, hdesc⟩
    have hbrackets : ∀ a ∈ List.replicate dims '[', (a == '[') = true :=
      fun a ha => beq_iff_eq.mpr (List.eq_of_mem_replicate ha)
    rw [hdesc, List.dropWhile_append_of_pos hbrackets, ← String.toList_inj, String.toList_ofList]
    simp

/-! ### Method descriptors -/

/-- A field descriptor is not empty and does not begin with a closing parenthesis. -/
theorem FieldDescriptor.exists_cons {field : List Char} (h : FieldDescriptor field) :
    ∃ c tail, field = c :: tail ∧ c ≠ ')' := by
  obtain ⟨dims, element, -, helement, rfl⟩ := h
  cases dims with
  | zero =>
      obtain ⟨c, tail, rfl, -, hc⟩ := helement.exists_cons
      exact ⟨c, tail, rfl, hc⟩
  | succ dims => exact ⟨'[', _, rfl, by decide⟩

/-- A parameter is read before those that follow it. -/
theorem FieldDescriptor.takeParams_append {field : List Char} (h : FieldDescriptor field)
    (offset : Nat) (s : List Char) :
    takeParams offset (field ++ s) =
      (takeParams (offset + Text.byteLength field) s >>= fun x =>
        pure (String.ofList field :: x.1, x.2)) := by
  obtain ⟨c, tail, rfl, hc⟩ := h.exists_cons
  have htake := h.takeField_append s
  rw [List.cons_append] at htake ⊢
  rw [takeParams, if_neg (by simpa using hc)]
  split
  · rename_i hnone
    rw [htake] at hnone
    cases hnone
  · rename_i field' rest' hsome
    rw [htake] at hsome
    obtain ⟨rfl, rfl⟩ := Prod.mk.inj (Option.some.inj hsome)
    rfl

/-- No parameter is read where no field descriptor begins. -/
theorem takeParams_of_takeField_eq_none {c : Char} {rest : List Char} (hc : c ≠ ')')
    (h : takeField (c :: rest) = none) (offset : Nat) :
    takeParams offset (c :: rest) = .error (.badParameter offset) := by
  rw [takeParams, if_neg (by simpa using hc)]
  split
  · rfl
  · rename_i hsome
    exact nomatch h.symm.trans hsome

theorem takeParams_ne_outside (offset : Nat) (s : List Char) (access : OutOfBounds) :
    takeParams offset s ≠ .error (.outside access) := by
  induction offset, s using takeParams.induct with
  | case1 offset =>
      rw [takeParams]
      exact nofun
  | case2 offset c rest hc =>
      rw [takeParams, if_pos hc]
      exact nofun
  | case3 offset c rest hc htake =>
      rw [takeParams_of_takeField_eq_none (by simpa using hc) htake]
      exact nofun
  | case4 offset c rest hc field rest' htake ih =>
      obtain ⟨hfield, hs⟩ := takeField_eq_some_iff.mp htake
      rw [hs, hfield.takeParams_append]
      intro h
      cases hrest : takeParams (offset + Text.byteLength field) rest' with
      | error fault =>
          rw [hrest] at h ih
          exact ih h
      | ok x =>
          rw [hrest] at h
          exact nomatch h

/-- Exactly the lists of field descriptors are read up to a parenthesis. -/
theorem takeParams_eq_ok_iff {offset : Nat} {s : List Char} {params : List String}
    {tail : List Char} :
    takeParams offset s = .ok (params, tail) ↔
      (∀ p ∈ params, FieldDescriptor p.toList) ∧
        s = params.flatMap String.toList ++ ')' :: tail := by
  constructor
  · intro h
    induction offset, s using takeParams.induct generalizing params with
    | case1 offset =>
        rw [takeParams] at h
        exact nomatch h
    | case2 offset c rest hc =>
        rw [takeParams, if_pos hc] at h
        obtain ⟨rfl, rfl⟩ := Prod.mk.inj (Except.ok.inj h)
        obtain rfl : c = ')' := eq_of_beq hc
        exact ⟨by simp, rfl⟩
    | case3 offset c rest hc htake =>
        rw [takeParams, if_neg hc] at h
        split at h
        · exact nomatch h
        · rename_i hsome
          exact nomatch htake.symm.trans hsome
    | case4 offset c rest hc field rest' htake ih =>
        obtain ⟨hfield, hs⟩ := takeField_eq_some_iff.mp htake
        rw [hs, hfield.takeParams_append, except_bind_eq_ok] at h
        obtain ⟨⟨params', tail'⟩, hrest, hpure⟩ := h
        obtain ⟨rfl, rfl⟩ := Prod.mk.inj (Except.ok.inj hpure)
        obtain ⟨hparams, rfl⟩ := ih hrest
        refine ⟨List.forall_mem_cons.mpr ⟨by rwa [String.toList_ofList], hparams⟩, ?_⟩
        rw [hs, List.flatMap_cons, String.toList_ofList, List.append_assoc]
  · rintro ⟨hparams, rfl⟩
    induction params generalizing offset with
    | nil =>
        rw [List.flatMap_nil, List.nil_append, takeParams]
        rfl
    | cons p params ih =>
        obtain ⟨hp, hrest⟩ := List.forall_mem_cons.mp hparams
        rw [List.flatMap_cons, List.append_assoc, hp.takeParams_append, ih hrest,
          String.ofList_toList]
        rfl

end ClassAudit
