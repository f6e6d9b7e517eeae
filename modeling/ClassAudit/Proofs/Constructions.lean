import ClassAudit.Detectors.DependencyInversionPrinciple
import ClassAudit.Proofs.Sites

/-!
# Constructions of concrete objects

The linter goes by constructor calls and not by the instructions that create objects, and in a
constructor it takes every call of a constructor of the superclass for the one that the constructor
has to begin with. What it reports is said here of the body: all other calls of constructors of
concrete classes, one by one. So an object of the superclass that a constructor creates for itself
goes unreported.

## Main definitions

* `DependencyInversionPrinciple.constructed?` - the class whose constructor is called.
* `DependencyInversionPrinciple.ConcreteClass` - the classes whose constructions are reported.
* `DependencyInversionPrinciple.IsChained` - the calls that are taken for the chained one.
* `DependencyInversionPrinciple.calls`, `news` - how often a constructor is called and an object
  created.

## Main statements

* `DependencyInversionPrinciple.mem_reported` - the calls that are reported.
* `DependencyInversionPrinciple.count_reported` - all calls for a class are reported, or none.
* `DependencyInversionPrinciple.findings_constructions` - the findings about constructions.
* `DependencyInversionPrinciple.second_base_unreported` - a constructor that creates an object of
  the superclass, and is not reported.
-/

namespace ClassAudit.DependencyInversionPrinciple

/-! ### Concrete classes -/

/-- The class is concrete, found in the context, not the class under analysis and no class of the
platform. -/
structure ConcreteClass (ns : Namespaces) (ctx : PackageContext) (self owner : String) : Prop where
  other : owner ≠ self
  outside : ns.holds owner = false
  found : ∃ d, ctx.lookup? owner = some d ∧ d.isConcrete

theorem isConcrete_iff {ns : Namespaces} {ctx : PackageContext} {self owner : String} :
    isConcrete ns ctx self owner = true ↔ ConcreteClass ns ctx self owner := by
  rw [isConcrete, Bool.and_eq_true, Bool.and_eq_true, bne_iff_ne, Bool.not_eq_true', and_assoc]
  constructor
  · rintro ⟨hother, houtside, hfound⟩
    refine ⟨hother, houtside, ?_⟩
    cases hlookup : ctx.lookup? owner with
    | none =>
        rw [hlookup] at hfound
        exact nomatch hfound
    | some d =>
        rw [hlookup] at hfound
        exact ⟨d, rfl, hfound⟩
  · rintro ⟨hother, houtside, d, hlookup, hconcrete⟩
    rw [hlookup]
    exact ⟨hother, houtside, hconcrete⟩

/-! ### Constructor calls -/

/-- The class whose constructor an action calls. -/
def constructed? : Action → Option String
  | .invoke .special target => if target.name = "<init>" then some target.owner else none
  | _ => none

/-- How often the method calls a constructor of the class. -/
def calls (m : MethodModel) (owner : String) : Nat :=
  m.code.elements.countP fun i => constructed? i.action = some owner

/-- How often the method creates an object of the class. -/
def news (m : MethodModel) (owner : String) : Nat :=
  m.code.elements.countP fun i => i.action = .new owner

/-- A call of a constructor of the class is taken for the one that a constructor begins with. -/
def IsChained (c : ClassModel) (m : MethodModel) (owner : String) : Prop :=
  m.name = "<init>" ∧ owner = c.superName

instance (c : ClassModel) (m : MethodModel) (owner : String) : Decidable (IsChained c m owner) :=
  inferInstanceAs (Decidable (_ ∧ _))

theorem isChained_iff {c : ClassModel} {m : MethodModel} {owner : String} :
    (m.isConstructor && owner == c.superName) = true ↔ IsChained c m owner := by
  rw [Bool.and_eq_true, MethodModel.isConstructor, beq_iff_eq, beq_iff_eq]
  rfl

section Reports

variable (ns : Namespaces) (ctx : PackageContext) (c : ClassModel) (m : MethodModel)

/-- The calls that are reported, with their positions. -/
def reported : List (Nat × String) := constructions (isConcrete ns ctx c.name) c.superName m

/-- What is reported of an action at a position. -/
def told? : Nat × Action → Option (Nat × String)
  | (n, a) =>
    match constructed? a with
    | some owner =>
      if isConcrete ns ctx c.name owner ∧ ¬IsChained c m owner then some (n, owner) else none
    | none => none

theorem reported_eq : reported ns ctx c m = m.code.indexed.filterMap (told? ns ctx c m) := by
  refine List.filterMap_congr fun ⟨n, a⟩ _ => ?_
  cases a with
  | invoke kind target =>
      cases kind with
      | special =>
          by_cases hname : target.name = "<init>"
          · simp only [told?, constructed?, hname, if_true]
            refine if_congr ?_ rfl rfl
            rw [constructorName, beq_self_eq_true, Bool.true_and, Bool.and_eq_true,
              Bool.not_eq_true', ← Bool.not_eq_true, isChained_iff, and_comm]
          · simp [told?, constructed?, hname, constructorName]
      | _ => rfl
  | _ => rfl

variable {ns ctx c m} {n k : Nat} {owner : String}

theorem told?_eq_some_iff {a : Action} : told? ns ctx c m (k, a) = some (n, owner) ↔
    k = n ∧ constructed? a = some owner ∧
      ConcreteClass ns ctx c.name owner ∧ ¬IsChained c m owner := by
  rw [told?]
  split
  · rename_i owner' hcall
    rw [hcall, Option.some.injEq, Option.ite_none_right_eq_some, isConcrete_iff, Option.some.injEq,
      Prod.mk.injEq]
    constructor
    · rintro ⟨hreported, rfl, rfl⟩
      exact ⟨rfl, rfl, hreported⟩
    · rintro ⟨rfl, rfl, hreported⟩
      exact ⟨hreported, rfl, rfl⟩
  · rename_i hnone
    simp [hnone]

/-- Reported are the calls of constructors of concrete classes, but for chained ones. -/
theorem mem_reported : (n, owner) ∈ reported ns ctx c m ↔
    (∃ i, m.code.elements[n]? = some i ∧ constructed? i.action = some owner) ∧
      ConcreteClass ns ctx c.name owner ∧ ¬IsChained c m owner := by
  rw [reported_eq, List.mem_filterMap]
  constructor
  · rintro ⟨⟨k, a⟩, hmem, htold⟩
    obtain ⟨i, hi, rfl⟩ := Body.mem_indexed.mp hmem
    obtain ⟨rfl, hcall, hreported⟩ := told?_eq_some_iff.mp htold
    exact ⟨⟨i, hi, hcall⟩, hreported⟩
  · rintro ⟨⟨i, hi, hcall⟩, hreported⟩
    exact ⟨(n, i.action), Body.mem_indexed.mpr ⟨i, hi, rfl⟩,
      told?_eq_some_iff.mpr ⟨rfl, hcall, hreported⟩⟩

/-- Calls are reported in program order. -/
theorem pairwise_reported : (reported ns ctx c m).Pairwise (·.1 < ·.1) := by
  rw [reported_eq]
  refine m.code.pairwise_indexed.filterMap _ ?_
  rintro ⟨k, a⟩ ⟨k', a'⟩ hlt ⟨n, owner⟩ htold ⟨n', owner'⟩ htold'
  obtain ⟨rfl, -⟩ := told?_eq_some_iff.mp htold
  obtain ⟨rfl, -⟩ := told?_eq_some_iff.mp htold'
  exact hlt

/-- All calls for a class are reported, or none. -/
theorem count_reported (howner : ConcreteClass ns ctx c.name owner) :
    ((reported ns ctx c m).map (·.2)).count owner =
      if IsChained c m owner then 0 else calls m owner := by
  split
  · rename_i hchained
    refine List.count_eq_zero.mpr fun hcount => ?_
    obtain ⟨⟨n, _⟩, hmem, rfl⟩ := List.mem_map.mp hcount
    exact (mem_reported.mp hmem).2.2 hchained
  · rename_i hchained
    have hcalls : calls m owner = m.code.indexed.countP fun x => constructed? x.2 = some owner := by
      show m.code.elements.countP ((fun a => decide (constructed? a = some owner)) ∘ (·.action)) = _
      rw [← List.countP_map, ← Body.map_action_indexed, List.countP_map]
      rfl
    have hmatch (told : Option String) :
        (told.map (· == owner)).getD false = true ↔ told = some owner := by
      cases told with
      | none => simp
      | some owner' => simp
    rw [hcalls, reported_eq, List.map_filterMap, List.count, List.countP_filterMap]
    refine List.countP_congr fun ⟨k, a⟩ _ => ?_
    rw [hmatch, decide_eq_true_eq, Option.map_eq_some_iff]
    constructor
    · rintro ⟨⟨n, _⟩, htold, rfl⟩
      exact (told?_eq_some_iff.mp htold).2.1
    · intro hcall
      exact ⟨(k, owner), told?_eq_some_iff.mpr ⟨rfl, hcall, howner, hchained⟩, rfl⟩

end Reports

/-! ### Findings -/

/-- What is said about a construction. -/
def instantiation (c : ClassModel) (m : MethodModel) (n : Nat) (owner : String) : Finding where
  linter := "DependencyInversionPrinciple"
  category := .principle
  className := c.name
  member := m.name ++ m.desc
  line := m.code.lineAt n
  severity := .warning
  message := "instantiates concrete class " ++ dottedName owner ++ " directly"

/-- Constructions are told from other dependencies by their messages. -/
def isInstantiation (f : Finding) : Bool := Text.startsWith f.message "instantiates concrete class "

theorem isInstantiation_instantiation (c : ClassModel) (m : MethodModel) (n : Nat)
    (owner : String) : isInstantiation (instantiation c m n owner) := by
  simp only [isInstantiation, instantiation, Text.startsWith, String.toList_append,
    List.append_assoc]
  rfl

/-- The other messages begin with what they are about. -/
theorem not_isInstantiation {f : Finding} (h : "field ".toList <+: f.message.toList ∨
    "parameter of ".toList <+: f.message.toList) : ¬isInstantiation f := by
  rw [isInstantiation, Text.startsWith]
  obtain ⟨rest, h⟩ | ⟨rest, h⟩ := h
  · rw [← h]
    exact Bool.false_ne_true
  · rw [← h]
    exact Bool.false_ne_true

/-- The findings about constructions are those about the calls that are reported. -/
theorem filter_findings (ns : Namespaces) (ctx : PackageContext) {c : ClassModel}
    (hconcrete : c.isConcrete) :
    (linter ns c ctx).findings.filter isInstantiation =
      c.methods.flatMap fun m =>
        (reported ns ctx c m).map fun (n, owner) => instantiation c m n owner := by
  simp only [linter, if_pos hconcrete, List.filter_append,
    List.filter_flatMap]
  rw [List.filter_eq_nil_iff.mpr fun found hfound => ?fields, List.nil_append]
  · refine List.flatMap_congr fun m _ => ?_
    rw [List.filter_eq_nil_iff.mpr fun found hfound => ?parameters, List.nil_append,
      List.filter_eq_self.mpr fun found hfound => ?constructions]
    · rfl
    case parameters =>
      obtain ⟨type, -, rfl⟩ := List.mem_map.mp hfound
      refine not_isInstantiation (.inr ?_)
      simp only [Origin.finding, String.toList_append, List.append_assoc]
      exact List.prefix_append _ _
    case constructions =>
      obtain ⟨⟨n, owner⟩, -, rfl⟩ := List.mem_map.mp hfound
      exact isInstantiation_instantiation c m n owner
  case fields =>
    obtain ⟨f, -, hf⟩ := List.mem_filterMap.mp hfound
    split at hf
    · split at hf
      · obtain rfl := Option.some.inj hf
        refine not_isInstantiation (.inl ?_)
        simp only [Origin.finding, String.toList_append, List.append_assoc]
        exact List.prefix_append _ _
      · exact nomatch hf
    · exact nomatch hf

/-- **Constructor calls are reported one by one.** The findings about constructions are, for each
method and in program order, those about the calls of constructors of concrete classes, each at its
line. For a class there are as many of them as there are calls, however many objects are created.
Only in a constructor none is about the superclass, however often its constructor is called. -/
theorem findings_constructions (ns : Namespaces) (ctx : PackageContext) (c : ClassModel)
    (hconcrete : c.isConcrete) :
    (linter ns c ctx).findings.filter isInstantiation =
      c.methods.flatMap (fun m =>
        (reported ns ctx c m).map fun (n, owner) => instantiation c m n owner) ∧
    ∀ m ∈ c.methods,
      (reported ns ctx c m).Pairwise (·.1 < ·.1) ∧
      (∀ n owner, (n, owner) ∈ reported ns ctx c m ↔
        (∃ i, m.code.elements[n]? = some i ∧ constructed? i.action = some owner) ∧
          ConcreteClass ns ctx c.name owner ∧ ¬IsChained c m owner) ∧
      ∀ owner, ConcreteClass ns ctx c.name owner →
        ((reported ns ctx c m).map (·.2)).count owner =
          if IsChained c m owner then 0 else calls m owner :=
  ⟨filter_findings ns ctx hconcrete, fun _ _ => ⟨pairwise_reported, fun _ _ => mem_reported,
    fun _ howner => count_reported howner⟩⟩

/-! ### Objects of the superclass -/

/-- A class to be extended. -/
def base : ClassModel where
  name := "p/Base"
  superName := "java/lang/Object"

/-- A subclass of `base` with one method. -/
def leaf (m : MethodModel) : ClassModel where
  name := "p/Leaf"
  superName := "p/Base"
  methods := [m]

/-- The package of both. -/
def family (m : MethodModel) : PackageContext := ⟨[base, leaf m]⟩

/-- Creates an object of `base` and drops it. -/
def creation (pc : Nat) : List Instruction :=
  [⟨.new "p/Base", pc⟩, ⟨.stack ⟨0x59⟩, pc + 3⟩,
    ⟨.invoke .special ⟨"p/Base", "<init>", "()V"⟩, pc + 4⟩, ⟨.stack ⟨0x57⟩, pc + 7⟩]

/-- A method that creates two objects. -/
def factory : MethodModel where
  name := "make"
  desc := "()V"
  access := ⟨1⟩
  code := ⟨creation 0 ++ creation 8 ++ [⟨.return .void, 16⟩]⟩

/-- A constructor that creates an object besides the one that it is called for. -/
def constructor : MethodModel where
  name := "<init>"
  desc := "()V"
  access := ⟨1⟩
  code := ⟨[⟨.load .reference 0, 0⟩, ⟨.invoke .special ⟨"p/Base", "<init>", "()V"⟩, 1⟩] ++
    creation 4 ++ [⟨.return .void, 12⟩]⟩

theorem base_concrete (m : MethodModel) :
    ConcreteClass ⟨["java/"]⟩ (family m) (leaf m).name base.name :=
  ⟨show "p/Base" ≠ "p/Leaf" by decide, by decide, base, rfl, rfl⟩

/-- Outside of constructors, an object of the superclass is like any other. -/
theorem factory_constructions : (leaf factory).isConcrete ∧ factory ∈ (leaf factory).methods ∧
    ((reported ⟨["java/"]⟩ (family factory) (leaf factory) factory).map (·.2)).count "p/Base" = 2 ∧
    instantiation (leaf factory) factory 6 "p/Base" ∈
      (linter ⟨["java/"]⟩ (leaf factory) (family factory)).findings := by
  have hconcrete : (leaf factory).isConcrete := rfl
  have hmem : factory ∈ (leaf factory).methods := List.mem_singleton_self _
  obtain ⟨hfindings, hmethods⟩ :=
    findings_constructions ⟨["java/"]⟩ (family factory) (leaf factory) hconcrete
  obtain ⟨-, hreported, hcount⟩ := hmethods factory hmem
  have hbase := base_concrete factory
  refine ⟨hconcrete, hmem, (hcount _ hbase).trans (by decide), ?_⟩
  have hsixth : (6, "p/Base") ∈ reported ⟨["java/"]⟩ (family factory) (leaf factory) factory :=
    (hreported _ _).mpr ⟨⟨_, rfl, rfl⟩, hbase, by decide⟩
  have hfinding : instantiation (leaf factory) factory 6 "p/Base" ∈
      (linter ⟨["java/"]⟩ (leaf factory) (family factory)).findings.filter isInstantiation := by
    rw [hfindings]
    exact List.mem_flatMap.mpr ⟨factory, hmem, List.mem_map.mpr ⟨_, hsixth, rfl⟩⟩
  exact List.mem_of_mem_filter hfinding

/-- A constructor creates an object of the superclass and calls its constructor once more than it
has to, and nothing is reported. -/
theorem second_base_unreported :
    (leaf constructor).isConcrete ∧ constructor ∈ (leaf constructor).methods ∧
    ConcreteClass ⟨["java/"]⟩ (family constructor) (leaf constructor).name "p/Base" ∧
    constructor.name = "<init>" ∧ (leaf constructor).superName = "p/Base" ∧
    news constructor "p/Base" = 1 ∧ calls constructor "p/Base" = 2 ∧
    (linter ⟨["java/"]⟩ (leaf constructor) (family constructor)).findings = [] :=
  ⟨rfl, List.mem_singleton_self _, base_concrete constructor, rfl, rfl, by decide, by decide,
    by decide⟩

end ClassAudit.DependencyInversionPrinciple
