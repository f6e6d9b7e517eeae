import ClassAudit.Proofs.DescriptorBytes

/-!
# The local variables of parameters

A method finds its parameters in its first local variables, one after another, behind the receiver
if it has one. Values of the types `long` and `double` take two local variables, the second of which is
never named. Where a parameter is passed therefore depends on all that comes before it.

## Main definitions

* `Declares` - a descriptor declares a parameter after certain others.
* `firstSlot` - the local variable of a parameter, told by the parameters before it.
* `PassedIn`, `IsSecondSlot` - a parameter begins, or a wide one ends, in a local variable.

## Main statements

* `Declares.disjoint` - parameters share no local variable.
* `mem_paramSlots_iff` - exactly the local variables in which parameters begin are listed.
* `PassedIn.ne_receiver`, `PassedIn.not_isSecondSlot` - none of them holds the receiver or the
  second half of a wide value.
-/

namespace ClassAudit

/-- The descriptor is a valid one that declares the parameter `p` after the parameters `before`. -/
def Declares (desc : String) (before : List String) (p : String) : Prop :=
  ∃ d : MethodDescriptor, d.Proper ∧ desc = d.text ∧ ∃ after, d.params = before ++ p :: after

/-- The first local variable of a parameter that is declared after others. -/
def firstSlot (static : Bool) (before : List String) : Nat :=
  (if static then 0 else 1) + (before.map typeSize).sum

/-- A parameter of the method begins in the local variable. -/
def PassedIn (desc : String) (static : Bool) (slot : Nat) : Prop :=
  ∃ before p, Declares desc before p ∧ slot = firstSlot static before

/-- The local variable holds the second half of a parameter that is a `long` or a `double`. -/
def IsSecondSlot (desc : String) (static : Bool) (slot : Nat) : Prop :=
  ∃ before p, Declares desc before p ∧ (p = "J" ∨ p = "D") ∧ slot = firstSlot static before + 1

theorem typeSize_of_wide {p : String} (h : p = "J" ∨ p = "D") : typeSize p = 2 := by
  rcases h with rfl | rfl <;> rfl

theorem typeSize_pos (p : String) : 0 < typeSize p := by
  rw [typeSize]
  split <;> decide

/-- What a parameter takes lies behind the parameters before it. -/
theorem firstSlot_append_cons (static : Bool) (before between : List String) (p : String) :
    firstSlot static (before ++ p :: between) =
      firstSlot static before + typeSize p + (between.map typeSize).sum := by
  simp only [firstSlot, List.map_append, List.sum_append, List.map_cons, List.sum_cons]
  omega

/-- Two parameters of a descriptor are the same, or one ends before the other begins. -/
theorem Declares.disjoint {desc p p' : String} {before before' : List String}
    (h : Declares desc before p) (h' : Declares desc before' p') (static : Bool) :
    (before = before' ∧ p = p') ∨
      firstSlot static before + typeSize p ≤ firstSlot static before' ∨
      firstSlot static before' + typeSize p' ≤ firstSlot static before := by
  obtain ⟨d, hproper, htext, after, hparams⟩ := h
  obtain ⟨d', hproper', htext', after', hparams'⟩ := h'
  have hparse := MethodDescriptor.parse_eq_ok_iff.mpr ⟨hproper, htext⟩
  have hparse' := MethodDescriptor.parse_eq_ok_iff.mpr ⟨hproper', htext'⟩
  obtain rfl : d = d' := Except.ok.inj (hparse.symm.trans hparse')
  rcases List.append_eq_append_iff.mp (hparams.symm.trans hparams') with
    ⟨between, rfl, hrest⟩ | ⟨between, rfl, hrest⟩
  · cases between with
    | nil => exact .inl ⟨(List.append_nil before).symm, (List.cons.inj hrest).1⟩
    | cons first between =>
        obtain ⟨rfl, -⟩ := List.cons.inj hrest
        exact .inr (.inl (by rw [firstSlot_append_cons]; omega))
  · cases between with
    | nil => exact .inl ⟨List.append_nil before', (List.cons.inj hrest).1.symm⟩
    | cons first between =>
        obtain ⟨rfl, -⟩ := List.cons.inj hrest
        exact .inr (.inr (by rw [firstSlot_append_cons]; omega))

/-- Slots are listed parameter by parameter, each behind the parameters before it. -/
theorem mem_slotsFrom {base slot : Nat} {params : List String} : slot ∈ slotsFrom base params ↔
    ∃ before p after, params = before ++ p :: after ∧ slot = base + (before.map typeSize).sum := by
  induction params generalizing base with
  | nil => simp [slotsFrom]
  | cons q params ih =>
      rw [slotsFrom, List.mem_cons, ih]
      constructor
      · rintro (rfl | ⟨before, p, after, rfl, rfl⟩)
        · exact ⟨[], q, params, rfl, rfl⟩
        · exact ⟨q :: before, p, after, rfl, by rw [List.map_cons, List.sum_cons, Nat.add_assoc]⟩
      · rintro ⟨before, p, after, hparams, rfl⟩
        cases before with
        | nil => exact .inl rfl
        | cons first before =>
            obtain ⟨rfl, rfl⟩ := List.cons.inj hparams
            exact .inr ⟨before, p, after, rfl, by rw [List.map_cons, List.sum_cons, Nat.add_assoc]⟩

/-- **Exactly the local variables in which parameters begin are listed.** -/
theorem mem_paramSlots_iff {desc : String} {static : Bool} {slot : Nat} :
    slot ∈ (paramSlots? desc static).getD [] ↔ PassedIn desc static slot := by
  simp only [PassedIn, Declares, ← MethodDescriptor.parse_eq_ok_iff, ← and_assoc]
  rw [paramSlots?]
  cases hparse : MethodDescriptor.parse desc with
  | error fault => simp
  | ok d =>
      rw [Option.getD_some, mem_slotsFrom]
      constructor
      · rintro ⟨before, p, after, hparams, hslot⟩
        exact ⟨before, p, ⟨d, rfl, after, hparams⟩, hslot⟩
      · rintro ⟨before, p, ⟨d', hd, after, hparams⟩, hslot⟩
        obtain rfl : d = d' := Except.ok.inj hd
        exact ⟨before, p, after, hparams, hslot⟩

/-- A `long` takes two local variables. -/
example : paramSlots? "(JLa;)V" false = some [1, 3] := by cbv

namespace PassedIn

variable {desc : String} {slot : Nat}

/-- No parameter of an instance method begins where its receiver is. -/
theorem ne_receiver (h : PassedIn desc false slot) : slot ≠ 0 := by
  obtain ⟨before, p, -, rfl⟩ := h
  rw [firstSlot, if_neg Bool.false_ne_true]
  omega

/-- No parameter begins in the second half of a wide one. -/
theorem not_isSecondSlot {static : Bool} (h : PassedIn desc static slot) :
    ¬IsSecondSlot desc static slot := by
  rintro ⟨before', wide, hwideDeclared, hwide, hslot⟩
  obtain ⟨before, p, hdeclared, rfl⟩ := h
  have hsize := typeSize_of_wide hwide
  have hpos := typeSize_pos p
  rcases hdeclared.disjoint hwideDeclared static with ⟨rfl, -⟩ | hbefore | hafter
  · omega
  · omega
  · omega

end PassedIn

end ClassAudit
