import ClassAudit.Detectors.StrategyPattern
import ClassAudit.Proofs.ParameterSlots
import ClassAudit.Proofs.Sites

/-!
# Injected fields and the calls through them

A field holds a strategy if a parameter is stored into it and methods are called on what is read
from it. The linter follows neither values nor the stack: it looks at the instructions shortly before
a store or a call, as far back as the call before. What it reports is said here by these windows, by
the local variables that parameters begin in, and by the owner, name and descriptor of the field.

## Main definitions

* `StrategyPattern.Candidate` - an instance field whose type is outside the platform.
* `StrategyPattern.StoresParameter`, `Injected` - a parameter is loaded shortly before a store into
  the field, and some method of the class does so.
* `StrategyPattern.ReadBefore`, `uses` - the field is read shortly before a position, and how many
  calls stand at such positions.

## Main statements

* `StrategyPattern.isCandidate_iff`, `isInjected_iff`, `length_delegations` - what the three tests
  of the linter find.
* `StrategyPattern.findings_windows` - **exactly the injected candidates with calls are reported**.
-/

namespace ClassAudit

/-! ### Accesses to a field -/

theorem readsField_iff {owner : String} {f : FieldModel} {a : Action} :
    readsField owner f a = true ↔ a = .field .getField ⟨owner, f.name, f.desc⟩ := by
  cases a with
  | field access target =>
      cases access with
      | getField =>
          obtain ⟨owner', name, desc⟩ := target
          simp [readsField, and_assoc]
      | putField | getStatic | putStatic => simp [readsField]
  | _ => simp [readsField]

theorem writesField_iff {owner : String} {f : FieldModel} {a : Action} :
    writesField owner f a = true ↔ a = .field .putField ⟨owner, f.name, f.desc⟩ := by
  cases a with
  | field access target =>
      cases access with
      | putField =>
          obtain ⟨owner', name, desc⟩ := target
          simp [writesField, and_assoc]
      | getField | getStatic | putStatic => simp [writesField]
  | _ => simp [writesField]

namespace StrategyPattern

variable {ns : Namespaces} {c : ClassModel} {f : FieldModel} {b : Body} {n : Nat}

/-! ### Candidates -/

/-- An instance field that holds objects or arrays, whose elements belong to no platform class. -/
structure Candidate (ns : Namespaces) (f : FieldModel) : Prop where
  nonstatic : f.access.isStatic = false
  reference : f.desc.toList.head? = some 'L' ∨ f.desc.toList.head? = some '['
  foreign : ∀ name ≠ "", ∀ dims,
    f.desc.toList = List.replicate dims '[' ++ ("L" ++ name ++ ";").toList → ns.holds name = false

theorem isReferenceType_iff {desc : String} : isReferenceType desc = true ↔
    desc.toList.head? = some 'L' ∨ desc.toList.head? = some '[' := by
  rw [isReferenceType]
  cases desc.toList with
  | nil => simp
  | cons c rest => simp

theorem holdsDescriptor_eq_false_iff {desc : String} : ns.holdsDescriptor desc = false ↔
    ∀ name ≠ "", ∀ dims,
      desc.toList = List.replicate dims '[' ++ ("L" ++ name ++ ";").toList →
        ns.holds name = false := by
  have hclass : ns.holdsDescriptor desc = false ↔
      ∀ name, objectType? (elementType desc) = some name → ns.holds name = false := by
    rw [Namespaces.holdsDescriptor]
    cases objectType? (elementType desc) with
    | none => simp
    | some name => simp
  rw [hclass]
  simp only [objectType?_elementType_eq_some_iff, and_imp, forall_exists_index]

theorem isCandidate_iff : isCandidate ns f = true ↔ Candidate ns f := by
  rw [isCandidate, Bool.and_eq_true, Bool.and_eq_true, Bool.not_eq_true', Bool.not_eq_true',
    isReferenceType_iff, holdsDescriptor_eq_false_iff]
  constructor
  · rintro ⟨⟨hnonstatic, hreference⟩, hforeign⟩
    exact ⟨hnonstatic, hreference, hforeign⟩
  · rintro ⟨hnonstatic, hreference, hforeign⟩
    exact ⟨⟨hnonstatic, hreference⟩, hforeign⟩

instance : Decidable (Candidate ns f) := decidable_of_iff _ isCandidate_iff

/-! ### Injection -/

/-- The method stores into the field of the class `owner`, and one of the at most 12 instructions
before the store, back to the nearest call, loads the first local variable of a parameter of the
method. -/
def StoresParameter (owner : String) (f : FieldModel) (m : MethodModel) : Prop :=
  ∃ n, (n, .field .putField ⟨owner, f.name, f.desc⟩) ∈ m.code.indexed ∧
    ∃ i ∈ m.code.windowBefore n 12 Action.isInvoke, ∃ (type : ValueType) (slot : Nat),
      i.action = .load type slot ∧ PassedIn m.desc m.access.isStatic slot

/-- Some method other than the static initializer stores a parameter into the field. -/
def Injected (c : ClassModel) (f : FieldModel) : Prop :=
  ∃ m ∈ c.methods, m.name ≠ "<clinit>" ∧ StoresParameter c.name f m

theorem loadsOneOf_iff {slots : List Nat} {a : Action} : loadsOneOf slots a = true ↔
    ∃ (type : ValueType) (slot : Nat), a = .load type slot ∧ slot ∈ slots := by
  cases a with
  | load type s =>
      simp only [loadsOneOf, List.any_eq_true, beq_iff_eq, Action.load.injEq]
      constructor
      · rintro ⟨slot, hslot, rfl⟩
        exact ⟨type, slot, ⟨rfl, rfl⟩, hslot⟩
      · rintro ⟨_, slot, ⟨rfl, rfl⟩, hslot⟩
        exact ⟨slot, hslot, rfl⟩
  | _ => simp [loadsOneOf]

theorem injects_iff {owner : String} {m : MethodModel} : injects owner f m = true ↔
    m.name ≠ "<clinit>" ∧ StoresParameter owner f m := by
  simp only [injects, Bool.and_eq_true, bne_iff_ne, List.any_eq_true, Prod.exists,
    writesField_iff, Body.isSome_lookBack_iff, loadsOneOf_iff, mem_paramSlots_iff]
  constructor
  · rintro ⟨hname, n, _, hstore, rfl, hload⟩
    exact ⟨hname, n, hstore, hload⟩
  · rintro ⟨hname, n, hstore, hload⟩
    exact ⟨hname, n, _, hstore, rfl, hload⟩

theorem isInjected_iff : isInjected c f = true ↔ Injected c f := by
  simp only [isInjected, List.any_eq_true, injects_iff, Injected]

instance : Decidable (Injected c f) := decidable_of_iff _ isInjected_iff

/-! ### Delegation -/

/-- One of the at most 16 instructions before the position, back to the nearest call, reads the
field. -/
def ReadBefore (c : ClassModel) (f : FieldModel) (b : Body) (n : Nat) : Prop :=
  ∃ i ∈ b.windowBefore n 16 Action.isInvoke, i.action = .field .getField ⟨c.name, f.name, f.desc⟩

instance : Decidable (ReadBefore c f b n) :=
  inferInstanceAs (Decidable (∃ i ∈ b.windowBefore n 16 Action.isInvoke,
    i.action = .field .getField ⟨c.name, f.name, f.desc⟩))

/-- How many calls outside initializers have the field read before them. -/
def uses (c : ClassModel) (f : FieldModel) : Nat :=
  ((c.methods.filter fun m => m.name ≠ "<init>" ∧ m.name ≠ "<clinit>").map fun m =>
    m.code.indexed.countP fun (n, a) => a.isInvoke ∧ ReadBefore c f m.code n).sum

theorem isSome_lookBack_readsField : (b.lookBack n (readsField c.name f) Action.isInvoke
    delegationWindow).isSome ↔ ReadBefore c f b n := by
  simp only [Body.isSome_lookBack_iff, readsField_iff]
  rfl

/-- As many delegations are listed as calls have the field read before them. -/
theorem length_delegations (c : ClassModel) (f : FieldModel) :
    (delegations c f).length = uses c f := by
  simp only [delegations, uses, MethodModel.not_isInitializer_eq, List.length_flatMap,
    List.length_filterMap_eq_countP]
  congr 1
  refine List.map_congr_left fun m _ => List.countP_congr fun ⟨n, a⟩ _ => ?_
  cases a with
  | invoke kind target =>
      have hinvoke : (Action.invoke kind target).isInvoke = true := rfl
      simp [isSome_lookBack_readsField, hinvoke]
  | _ => simp [Action.isInvoke]

/-! ### Findings -/

/-- What is said about a field that is injected and delegated to. -/
def strategyField (c : ClassModel) (f : FieldModel) : Finding where
  linter := "StrategyPattern"
  category := .pattern
  className := c.name
  member := f.name
  line := ((delegations c f).head?.map Delegation.line).getD 0
  severity := .info
  message := "strategy field " ++ f.name ++ " of type " ++ dottedName (typeName f.desc) ++
    " is injected and delegated through " ++ toString (uses c f) ++ " call(s): " ++
    Text.joinWith ", " (((delegations c f).take 3).map Delegation.text) ++
    if 3 < uses c f then " ..." else ""

/-- **Exactly the injected candidates with calls are reported.** Fields are reported in the order of
their declaration, each with the number of its calls. No local variable that counts as a parameter
holds the receiver of an instance method or the second half of a wide value. -/
theorem findings_windows (ns : Namespaces) (c : ClassModel) :
    (linter ns c).findings =
      (c.fields.filter fun f => Candidate ns f ∧ Injected c f ∧ 1 ≤ uses c f).map
        (strategyField c) ∧
    ∀ m ∈ c.methods, ∀ slot, PassedIn m.desc m.access.isStatic slot →
      (m.access.isStatic = false → slot ≠ 0) ∧ ¬IsSecondSlot m.desc m.access.isStatic slot := by
  refine ⟨?_, fun m _ slot hslot => ⟨fun hstatic => ?_, hslot.not_isSecondSlot⟩⟩
  · simp only [linter]
    rw [← List.filterMap_eq_map (f := strategyField c), List.filterMap_filter,
      List.filterMap_filter]
    refine List.filterMap_congr fun f _ => ?_
    simp only [Bool.and_eq_true, decide_eq_true_eq, isCandidate_iff, isInjected_iff, ← and_assoc]
    by_cases hf : Candidate ns f ∧ Injected c f
    · simp only [hf, and_self, true_and, if_true]
      have hcount := length_delegations c f
      cases hcalls : delegations c f with
      | nil =>
          rw [hcalls, List.length_nil] at hcount
          rw [if_neg (by omega)]
      | cons first more =>
          rw [hcalls] at hcount
          have hpos : 1 ≤ uses c f := hcount ▸ Nat.succ_pos more.length
          rw [if_pos hpos, Function.comp_apply, strategyField, hcalls, ← hcount]
          rfl
    · simp [hf]
  · rw [hstatic] at hslot
    exact hslot.ne_receiver

/-- A class that is given a policy behind a `long` and asks it. -/
def keeper : ClassModel :=
  let policy : FieldModel := ⟨"policy", "LPolicy;", ⟨2⟩⟩
  let access (a : FieldAccess) : Instruction := ⟨.field a ⟨"Keeper", "policy", "LPolicy;"⟩, 0⟩
  { name := "Keeper", fields := [policy]
    methods :=
      [⟨"<init>", "(JLPolicy;)V", ⟨1⟩,
        ⟨[⟨.load .reference 0, 0⟩, ⟨.load .reference 3, 0⟩, access .putField]⟩, []⟩,
      ⟨"ask", "()V", ⟨1⟩,
        ⟨[access .getField, ⟨.invoke .virtual ⟨"Policy", "ask", "()V"⟩, 0⟩]⟩, []⟩] }

example : (linter ⟨["java/"]⟩ keeper).findings.map (·.member) = ["policy"] := by decide +kernel

end StrategyPattern

end ClassAudit
