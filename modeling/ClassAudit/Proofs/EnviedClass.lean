import ClassAudit.Assembly.ClassDraft
import ClassAudit.Detectors.FeatureEnvy
import ClassAudit.Proofs.BodyMarkers
import ClassAudit.Proofs.Ordering
import ClassAudit.Proofs.RoundedShares
import ClassAudit.Proofs.Sites
import ClassAudit.Proofs.StoredMembers

/-!
# The envied class

The linter tallies the members that a method uses by their owners, and compares rounded shares. What
it reports is said here of the body and in whole numbers: a method envies an owner of three fifths
of the uses that count. Rounding could only hide the difference in a body with more uses than a
class file has room for.

## Main definitions

* `FeatureEnvy.Counts` - the uses that count.
* `FeatureEnvy.uses`, `usesOf` - how many there are, and how many are of one owner.
* `FeatureEnvy.envied` - the owners that are reported for a method.

## Main statements

* `FeatureEnvy.sum_usesOf` - every use that counts is of one owner.
* `FeatureEnvy.two_mul_usesOf_of_mem` - an owner that is reported has more than half of the uses.
* `FeatureEnvy.mem_envied_iff` - in bodies of moderate size it is the exact share that decides.
* `FeatureEnvy.findings_envied` - the findings of a class, at most one for each method.
-/

namespace ClassAudit

/-! ### The size of a body -/

/-- A code array has less than 65536 bytes. -/
theorem Code.codeLength_lt_of_readContent {pool : ConstantPool} {data : List UInt8}
    {content : Content} (h : Read.runOn data (readContent pool) = .ok content) :
    content.codeLength < 65536 := by
  obtain ⟨⟨_, c₁⟩, hrun, rfl⟩ := except_map_eq_ok.mp h
  obtain ⟨_, c₂, -, h⟩ := run_bind_eq_ok.mp hrun
  obtain ⟨_, c₃, -, h⟩ := run_bind_eq_ok.mp h
  obtain ⟨codeLength, c₄, -, h⟩ := run_bind_eq_ok.mp h
  split at h
  · exact nomatch h
  rename_i hsize
  obtain ⟨code, c₅, -, h⟩ := run_bind_eq_ok.mp h
  obtain ⟨_, c₆, -, h⟩ := run_bind_eq_ok.mp h
  obtain ⟨-, hcodeLength, -⟩ := readTablesOf_eq_ok h
  rw [hcodeLength]
  omega

/-- Instructions begin at different bytes of the code array. -/
theorem Code.Content.Sound.length_instructions_le {c : Code.Content} (h : c.Sound) :
    c.instructions.length ≤ c.codeLength := by
  have hnodup : (c.instructions.map (·.pc)).Nodup :=
    (List.pairwise_map.mpr h.ascending.pairwise).imp Nat.ne_of_lt
  have hsub : c.instructions.map (·.pc) ⊆ List.range c.codeLength := by
    intro pc hpc
    obtain ⟨i, hi, rfl⟩ := List.mem_map.mp hpc
    exact List.mem_range.mpr (h.pc_lt i hi)
  have hle := (hnodup.subperm hsub).length_le
  rwa [List.length_map, List.length_range] at hle

/-- A method of a class that was read has less than 65536 instructions. -/
theorem ClassModel.length_instructions_lt {data : List UInt8} {c : ClassModel}
    (h : parse data = .ok c) {m : MethodModel} (hm : m ∈ c.methods) :
    m.code.instructions.length < 65536 := by
  obtain ⟨s, -, hstored⟩ := exists_stored h
  obtain ⟨n, hn⟩ := List.getElem?_of_mem hm
  obtain ⟨info, -, hinfo⟩ := exists_getElem?_of_forall₂ hstored.methods hn
  cases hcode : info.attributes.lookup "Code" with
  | none =>
      rw [hinfo.code_eq hcode]
      decide
  | some data =>
      obtain ⟨content, hcontent, hbody⟩ := except_map_eq_ok.mp (hinfo.read_eq data hcode)
      obtain ⟨hbody, -⟩ := Prod.mk.inj hbody
      have hsound := Code.sound_of_readContent hcontent
      have hinstructions : m.code.instructions = content.instructions := by
        rw [← hbody]
        exact Code.Content.filter_body fun _ => hsound.ascending.isMarker_eq_false
      rw [hinstructions]
      exact hsound.length_instructions_le.trans_lt (Code.codeLength_lt_of_readContent hcontent)

namespace FeatureEnvy

/-! ### Uses that count -/

/-- The action uses a member of another class than `self`, and the use counts: that of a field
outside `java/`, that of a method outside the language packages. -/
def Counts (self : String) (a : Action) : Prop :=
  a.owner ≠ self ∧
    (a.isFieldAccess ∧ Text.startsWith a.owner "java/" = false ∨
      a.isInvoke ∧ ∀ package ∈ ["java/lang/", "java/util/", "java/io/"],
        Text.startsWith a.owner package = false)

instance (self : String) : DecidablePred (Counts self) := fun a =>
  inferInstanceAs (Decidable (a.owner ≠ self ∧ (_ ∧ _ ∨ _ ∧ ∀ package ∈ _, _)))

/-- How many uses of a body count. -/
def uses (self : String) (m : MethodModel) : Nat :=
  m.code.elements.countP fun i => Counts self i.action

/-- How many uses of a body count and are of one owner. -/
def usesOf (self : String) (m : MethodModel) (owner : String) : Nat :=
  m.code.elements.countP fun i => Counts self i.action ∧ i.action.owner = owner

theorem isLanguageOwner_eq_false_iff {owner : String} : isLanguageOwner owner = false ↔
    ∀ package ∈ ["java/lang/", "java/util/", "java/io/"],
      Text.startsWith owner package = false := by
  simp only [isLanguageOwner, List.any_eq_false, Bool.not_eq_true]

theorem accessedOwner?_eq (self : String) (a : Action) :
    accessedOwner? self a = if Counts self a then some a.owner else none := by
  cases a with
  | field access target =>
      by_cases hself : target.owner = self
      · simp [accessedOwner?, Counts, Action.owner, hself]
      · simp only [accessedOwner?, Counts, Action.owner, Action.isFieldAccess, Action.isInvoke]
        cases Text.startsWith target.owner "java/" <;> simp [hself]
  | invoke kind target =>
      by_cases hself : target.owner = self
      · simp [accessedOwner?, Counts, Action.owner, hself]
      · simp only [accessedOwner?, Counts, Action.owner, Action.isFieldAccess, Action.isInvoke,
          ← isLanguageOwner_eq_false_iff]
        cases isLanguageOwner target.owner <;> simp [hself]
  | _ => simp [accessedOwner?, Counts, Action.isFieldAccess, Action.isInvoke]

section Tally

variable {self owner : String} {m : MethodModel}

/-- The tally lists the owners of the uses that count. -/
theorem accesses_eq_owners (self : String) (m : MethodModel) : accesses self m =
    (m.code.elements.filter fun i => Counts self i.action).map (·.action.owner) := by
  have hmarkers (n : Nat) : IgnoresMarkers (fun a => accessedOwner? self (n, a).2) none :=
    ⟨fun _ => rfl, fun _ => rfl, rfl⟩
  calc accesses self m
    _ = m.code.indexed.filterMap fun x => accessedOwner? self x.2 :=
        (m.code.filterMap_indexed hmarkers).symm
    _ = (m.code.elements.map (·.action)).filterMap (accessedOwner? self) := by
        rw [← Body.map_action_indexed, List.filterMap_map]
        rfl
    _ = (m.code.elements.filter fun i => Counts self i.action).map (·.action.owner) := by
        rw [List.filterMap_map,
          ← List.filterMap_eq_map (f := fun i : Instruction => i.action.owner),
          List.filterMap_filter]
        simp only [Function.comp_def, accessedOwner?_eq, decide_eq_true_eq]

theorem length_accesses (self : String) (m : MethodModel) :
    (accesses self m).length = uses self m := by
  rw [accesses_eq_owners, List.length_map, uses, List.countP_eq_length_filter]

theorem count_accesses (self : String) (m : MethodModel) (owner : String) :
    (accesses self m).count owner = usesOf self m owner := by
  rw [accesses_eq_owners, List.count, List.countP_map, List.countP_filter, usesOf]
  refine List.countP_congr fun i _ => ?_
  simp [and_comm]

theorem usesOf_le_uses (self : String) (m : MethodModel) (owner : String) :
    usesOf self m owner ≤ uses self m := by
  rw [← count_accesses, ← length_accesses]
  exact List.count_le_length

/-- Every use that counts is of one owner. -/
theorem sum_usesOf (self : String) (m : MethodModel) :
    ∑ owner ∈ (m.code.elements.map (·.action.owner)).toFinset, usesOf self m owner =
      uses self m := by
  have hmem (owner : String) (howner : owner ∈ (accesses self m : Multiset String)) :
      owner ∈ (m.code.elements.map (·.action.owner)).toFinset := by
    rw [accesses_eq_owners, Multiset.mem_coe] at howner
    exact List.mem_toFinset.mpr (List.map_subset _ (List.filter_subset_self _) howner)
  have hsum := Multiset.sum_count_eq_card hmem
  simpa only [Multiset.coe_count, Multiset.coe_card, count_accesses, length_accesses] using hsum

/-- A use is not of two owners. -/
theorem usesOf_add_usesOf_le (self : String) (m : MethodModel) {owner owner' : String}
    (hne : owner ≠ owner') :
    usesOf self m owner + usesOf self m owner' ≤ uses self m := by
  rw [← count_accesses, ← count_accesses, ← length_accesses,
    List.length_eq_countP_add_countP (· == owner)]
  refine Nat.add_le_add_left (List.countP_mono_left fun x _ hx => ?_) _
  rw [eq_of_beq hx]
  simpa using hne.symm

/-! ### Owners that are envied -/

/-- The owners that are reported for a method, in ascending order. -/
def envied (self : String) (m : MethodModel) : List String :=
  (Text.sortedDistinct (accesses self m)).filter fun owner =>
    !(Binary53.ofQuotient (usesOf self m owner) (uses self m)).less threshold

theorem mem_envied : owner ∈ envied self m ↔ 0 < usesOf self m owner ∧
    (Binary53.ofQuotient (usesOf self m owner) (uses self m)).less threshold = false := by
  rw [envied, List.mem_filter, Bool.not_eq_true', Text.sortedDistinct, mem_eraseReps, Text.sorted,
    List.mem_mergeSort, ← List.count_pos_iff, count_accesses]

/-- The own class is not envied. -/
theorem self_not_mem_envied (self : String) (m : MethodModel) : self ∉ envied self m := by
  intro hmem
  obtain ⟨i, -, hi⟩ := List.countP_pos_iff.mp (mem_envied.mp hmem).1
  obtain ⟨⟨hforeign, -⟩, howner⟩ := of_decide_eq_true hi
  exact hforeign howner

/-- However it is rounded, a share of one half is below the threshold. -/
theorem two_mul_usesOf_of_mem (h : owner ∈ envied self m) :
    uses self m < 2 * usesOf self m owner := by
  obtain ⟨hpos, hshare⟩ := mem_envied.mp h
  by_contra hle
  have htotal : 0 < uses self m := hpos.trans_le (usesOf_le_uses self m owner)
  have hhalf : (usesOf self m owner / uses self m : ℚ) ≤ 1 / 2 := by
    rw [div_le_div_iff₀ (by exact_mod_cast htotal) (by norm_num)]
    exact_mod_cast (by omega : usesOf self m owner * 2 ≤ 1 * uses self m)
  have hrounded := (Binary53.near_ofQuotient htotal (usesOf_le_uses self m owner)).2
  have hthreshold := (Binary53.near_ofQuotient (a := 3) (b := 5) (by decide) (by decide)).1
  refine absurd (Binary53.less_iff.mpr ?_) (Bool.eq_false_iff.mp hshare)
  rw [threshold]
  norm_num at hthreshold
  linarith

/-- At most one owner is envied. -/
theorem length_envied_le_one (self : String) (m : MethodModel) : (envied self m).length ≤ 1 := by
  have hnodup : (envied self m).Nodup :=
    ((Text.pairwise_sortedDistinct _).imp ne_of_lt).filter _
  rw [← List.toFinset_card_of_nodup hnodup, Finset.card_le_one]
  intro owner howner owner' howner'
  by_contra hne
  have hmost := two_mul_usesOf_of_mem (List.mem_toFinset.mp howner)
  have hmost' := two_mul_usesOf_of_mem (List.mem_toFinset.mp howner')
  have hboth := usesOf_add_usesOf_le self m hne
  omega

/-- In bodies of moderate size it is the exact share that decides. -/
theorem mem_envied_iff (hsize : 5 * uses self m < 2 ^ 52) : owner ∈ envied self m ↔
    0 < uses self m ∧ 3 * uses self m ≤ 5 * usesOf self m owner := by
  rw [mem_envied]
  constructor
  · rintro ⟨hpos, hshare⟩
    have htotal : 0 < uses self m := hpos.trans_le (usesOf_le_uses self m owner)
    rw [← Bool.not_eq_true, threshold, Binary53.less_ofQuotient_iff htotal (by decide)
      (usesOf_le_uses self m owner) (by decide) (by omega)] at hshare
    omega
  · rintro ⟨htotal, hle⟩
    refine ⟨by omega, ?_⟩
    rw [← Bool.not_eq_true, threshold, Binary53.less_ofQuotient_iff htotal (by decide)
      (usesOf_le_uses self m owner) (by decide) (by omega)]
    omega

end Tally

/-! ### Findings -/

/-- What is said about a method that envies an owner. -/
def envy (c : ClassModel) (m : MethodModel) (owner : String) : Finding where
  linter := "FeatureEnvy"
  category := .style
  className := c.name
  member := m.name ++ m.desc
  line := m.code.firstLine
  severity := .warning
  message :=
    let share := Binary53.ofQuotient (usesOf c.name m owner) (uses c.name m)
    "feature envy: " ++ toString (share.times 100).round ++ "% of accesses are to " ++
      dottedName owner ++ " (" ++ toString (usesOf c.name m owner) ++ "/" ++
      toString (uses c.name m) ++ " accesses)"

theorem ofMethod_eq (c : ClassModel) (m : MethodModel) :
    ofMethod ⟨name, .style, c.name⟩ c.name m = (envied c.name m).map (envy c m) := by
  rw [envied, ← List.filterMap_eq_map, List.filterMap_filter, ofMethod]
  refine List.filterMap_congr fun owner _ => ?_
  simp only [count_accesses, length_accesses]
  cases (Binary53.ofQuotient (usesOf c.name m owner) (uses c.name m)).less threshold with
  | true => rfl
  | false => rfl

/-- A method of a class that was read has few uses. -/
theorem uses_lt_of_parse {data : List UInt8} {c : ClassModel} (h : ClassModel.parse data = .ok c)
    {m : MethodModel} (hm : m ∈ c.methods) : uses c.name m < 65536 := by
  have hmarkers (pc : Nat) :
      IgnoresMarkers (fun a => decide (Counts c.name (⟨a, pc⟩ : Instruction).action)) false := by
    refine ⟨fun _ => ?_, fun _ => ?_, ?_⟩ <;> simp [Counts, Action.isFieldAccess, Action.isInvoke]
  rw [uses, m.code.countP_elements hmarkers]
  exact List.countP_le_length.trans_lt (ClassModel.length_instructions_lt h hm)

/-- **At most one class is envied by a method.** A method that is no initializer is reported exactly
if three fifths of the uses that count are of one owner. The shares of the owners make up the whole,
so there is at most one such owner, and it is never the own class. Rounding makes no difference as
long as a body has less than 2 ^ 52 / 5 uses, and a class file has no room for more. -/
theorem findings_envied (c : ClassModel) :
    (linter c).findings =
      (c.methods.filter fun m => m.name ≠ "<init>" ∧ m.name ≠ "<clinit>").flatMap (fun m =>
        (envied c.name m).map (envy c m)) ∧
    (∀ m ∈ c.methods,
      ∑ owner ∈ (m.code.elements.map (·.action.owner)).toFinset, usesOf c.name m owner =
        uses c.name m ∧
      (envied c.name m).length ≤ 1 ∧ c.name ∉ envied c.name m ∧
      (5 * uses c.name m < 2 ^ 52 → ∀ owner, owner ∈ envied c.name m ↔
        0 < uses c.name m ∧ 3 * uses c.name m ≤ 5 * usesOf c.name m owner)) ∧
    ∀ data, ClassModel.parse data = .ok c → ∀ m ∈ c.methods, 5 * uses c.name m < 2 ^ 52 := by
  refine ⟨?_, fun m _ => ⟨sum_usesOf c.name m, length_envied_le_one c.name m,
    self_not_mem_envied c.name m, fun hsize owner => mem_envied_iff hsize⟩, fun data h m hm => ?_⟩
  · simp only [linter, MethodModel.not_isInitializer_eq]
    exact List.flatMap_congr fun m _ => ofMethod_eq c m
  · have hfew := uses_lt_of_parse h hm
    omega

/-- Of eight uses five count: neither do a field of the own class, a field below `java/` and a call
into `java/util/`. -/
def mixedMethod : MethodModel where
  name := "m"
  desc := "()V"
  access := ⟨8⟩
  code := ⟨[⟨.field .getStatic ⟨"B", "x", "I"⟩, 0⟩, ⟨.field .getStatic ⟨"A", "x", "I"⟩, 3⟩,
    ⟨.invoke .static ⟨"B", "f", "()V"⟩, 6⟩, ⟨.invoke .static ⟨"B", "f", "()V"⟩, 9⟩,
    ⟨.invoke .static ⟨"java/net/C", "f", "()V"⟩, 12⟩,
    ⟨.field .getStatic ⟨"java/net/C", "x", "I"⟩, 15⟩, ⟨.invoke .static ⟨"D", "f", "()V"⟩, 18⟩,
    ⟨.invoke .static ⟨"java/util/E", "f", "()V"⟩, 21⟩, ⟨.return .void, 24⟩]⟩

/-- The class of `mixedMethod`. -/
def mixedClass : ClassModel where
  name := "A"
  superName := "java/lang/Object"
  methods := [mixedMethod]
  major := 52

/-- The draft of `mixedClass`. -/
def mixedDraft : ClassDraft where
  name := "A"
  methods := [{
    name := "m", desc := "()V", access := 8
    steps := [.field .getStatic ⟨"B", "x", "I"⟩, .field .getStatic ⟨"A", "x", "I"⟩,
      .invoke .static ⟨"B", "f", "()V"⟩, .invoke .static ⟨"B", "f", "()V"⟩,
      .invoke .static ⟨"java/net/C", "f", "()V"⟩, .field .getStatic ⟨"java/net/C", "x", "I"⟩,
      .invoke .static ⟨"D", "f", "()V"⟩, .invoke .static ⟨"java/util/E", "f", "()V"⟩,
      .plain .voidReturn] }]

/-- Three of five uses are just enough. -/
theorem mixedClass_envied : ∃ bytes, mixedDraft.encode = .ok bytes ∧
    ClassModel.parse bytes = .ok mixedClass ∧
    (linter mixedClass).findings = [envy mixedClass mixedMethod "B"] := by
  have hencode : mixedDraft.encode = .ok (mixedDraft.encode.toOption.getD []) := by decide +kernel
  have hparse : ClassModel.parse (mixedDraft.encode.toOption.getD []) = .ok mixedClass := by
    decide +kernel
  refine ⟨_, hencode, hparse, ?_⟩
  obtain ⟨hfindings, hmethods, hsize⟩ := findings_envied mixedClass
  have hmem : mixedMethod ∈ mixedClass.methods := List.mem_singleton_self _
  obtain ⟨-, hone, -, hiff⟩ := hmethods mixedMethod hmem
  have henvied : "B" ∈ envied mixedClass.name mixedMethod :=
    (hiff (hsize _ hparse _ hmem) "B").mpr (by decide +kernel)
  obtain ⟨owner, howner⟩ :=
    List.length_eq_one_iff.mp (le_antisymm hone (List.length_pos_of_mem henvied))
  obtain rfl : "B" = owner := List.mem_singleton.mp (howner ▸ henvied)
  rw [hfindings]
  show (envied mixedClass.name mixedMethod).map (envy mixedClass mixedMethod) ++ [] = _
  rw [howner]
  rfl

end FeatureEnvy

end ClassAudit
