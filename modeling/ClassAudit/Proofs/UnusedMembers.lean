import ClassAudit.Detectors.UnusedVariables
import ClassAudit.Proofs.Ordering
import ClassAudit.Proofs.Sites
import Mathlib.Data.List.Induction

/-!
# Unused members are those that nothing uses

The linter collects what a class uses and compares it with what the class declares. What it reports
is said here of the class itself: a private field that nothing reads, a private method that nothing
calls, and a local variable that is stored into and never loaded, told at its first store.

## Main definitions

* `UnusedVariables.actions` - everything that the methods of a class do.
* `UnusedVariables.Uses` - an instruction of the class uses a member of the class.
* `UnusedVariables.UnreadField`, `UncalledMethod` - the members that are reported.
* `UnusedVariables.StoredOnly`, `FirstStore` - the local variables that are reported, and where.

## Main statements

* `UnusedVariables.UseTable.lookup_seeAll` - going through a class marks what is watched and used.
* `UnusedVariables.isUnused_useTable` - the table tells what a search through the class would find.
* `UnusedVariables.mem_stores`, `pairwise_stores` - what the linter collects of a method.
* `UnusedVariables.pairwise_unread`, `exists_mem_unread`, `firstStore_of_find?` - which local
  variables are unread, in which order they come and where they are reported.
* `UnusedVariables.findings_exact` - the findings of a class, in order.
-/

namespace ClassAudit.UnusedVariables

/-! ### Tables -/

/-- Everything that the methods of a class do. -/
def actions (c : ClassModel) : List Action :=
  c.methods.flatMap fun m => m.code.elements.map (·.action)

namespace UseTable

variable {t : UseTable} {key k : MemberKey} {used : Bool} {used? : Action → Option MemberKey}

theorem lookup_cons {u : Bool} :
    ((key, u) :: t).lookup k = if k = key then some u else t.lookup k := by
  rw [List.lookup_cons]
  by_cases hk : k = key
  · simp [hk]
  · rw [beq_false_of_ne hk, if_neg hk]

theorem lookup_set : (set key used t).lookup k = if k = key then some used else t.lookup k := by
  induction t with
  | nil => exact lookup_cons
  | cons e t ih =>
      obtain ⟨k', u⟩ := e
      rw [set]
      by_cases hkey : k' = key
      · subst hkey
        rw [if_pos (beq_self_eq_true k'), lookup_cons, lookup_cons]
        by_cases hk : k = k'
        · rw [if_pos hk, if_pos hk]
        · rw [if_neg hk, if_neg hk, if_neg hk]
      · rw [if_neg (by simpa using hkey), lookup_cons, ih, lookup_cons]
        by_cases hk : k = k'
        · rw [if_pos hk, if_pos hk, if_neg (hk ▸ hkey)]
        · rw [if_neg hk, if_neg hk]

theorem lookup_ofKeys {watched : List MemberKey} :
    (ofKeys watched).lookup k = if k ∈ watched then some false else none := by
  induction watched using List.reverseRecOn with
  | nil => rfl
  | append_singleton watched key ih =>
      rw [ofKeys, List.foldl_concat, ← ofKeys, lookup_set, ih]
      by_cases hk : k = key
      · simp [hk]
      · simp [hk]

/-- An action marks the member that it uses, if that is watched. -/
theorem lookup_see {a : Action} :
    (t.see used? a).lookup k = (t.lookup k).map (· || used? a == some k) := by
  cases hused : used? a with
  | none =>
      have hsee : t.see used? a = t := by rw [see, hused]
      simp [hsee]
  | some key =>
      have hsee : t.see used? a = if (t.lookup key).isSome then set key true t else t := by
        rw [see, hused]
      cases hlookup : t.lookup key with
      | none =>
          rw [hlookup] at hsee
          rw [hsee, if_neg (by simp)]
          by_cases hk : key = k
          · rw [← hk, hlookup, Option.map_none]
          · have hne : (some key == some k) = false := by simpa using hk
            simp [hne]
      | some u =>
          rw [hlookup] at hsee
          rw [hsee, if_pos (by simp), lookup_set]
          by_cases hk : k = key
          · rw [if_pos hk, hk, hlookup]
            simp
          · have hne : (some key == some k) = false := by simpa using Ne.symm hk
            simp [hk, hne]

theorem seeAll_eq {c : ClassModel} : t.seeAll used? c = (actions c).foldl (see used?) t := by
  rw [seeAll, actions, List.foldl_flatMap]
  simp only [List.foldl_map]

/-- Going through a class marks what is watched and used. -/
theorem lookup_seeAll {c : ClassModel} : (t.seeAll used? c).lookup k =
    (t.lookup k).map (· || (actions c).any (used? · == some k)) := by
  rw [seeAll_eq]
  induction actions c generalizing t with
  | nil => simp
  | cons a l ih =>
      rw [List.foldl_cons, ih, lookup_see, Option.map_map, List.any_cons]
      congr 1
      funext u
      exact Bool.or_assoc ..

end UseTable

/-- **The table tells what a search would find**: whether a member is watched and no action of the
class uses it. -/
theorem isUnused_useTable {c : ClassModel} {watched : List MemberKey}
    {used? : Action → Option MemberKey} {key : MemberKey} :
    (useTable c watched used?).isUnused key =
      (watched.contains key && !(actions c).any (used? · == some key)) := by
  have hlookup : (useTable c watched used?).lookup key =
      ((UseTable.ofKeys watched).lookup key).map (· || (actions c).any (used? · == some key)) := by
    rw [useTable]
    split
    · rename_i hempty
      rw [List.isEmpty_iff.mp hempty]
      rfl
    · exact UseTable.lookup_seeAll
  rw [UseTable.isUnused, hlookup, UseTable.lookup_ofKeys]
  by_cases hkey : key ∈ watched
  · simp [hkey]
  · simp [hkey]

/-! ### Members -/

section Members

variable (c : ClassModel)

/-- An instruction of the class, of one of these kinds, names this member of the class. -/
def Uses (kinds : List Kind) (name desc : String) : Prop :=
  ∃ m ∈ c.methods, ∃ i ∈ m.code.elements,
    i.kind ∈ kinds ∧ i.action.owner = c.name ∧ i.action.name = name ∧ i.action.desc = desc

/-- A private field of this name and descriptor is declared in the source, and no instruction reads
it. -/
def UnreadField (f : FieldModel) : Prop :=
  (∃ g ∈ c.fields, g.name = f.name ∧ g.desc = f.desc ∧
    g.access.isPrivate ∧ g.access.isSynthetic = false) ∧
  ¬Uses c [.getField, .getStatic] f.name f.desc

/-- A private method of this name and descriptor, no initializer, is declared in the source, and no
instruction calls it. -/
def UncalledMethod (m : MethodModel) : Prop :=
  (∃ n ∈ c.methods, n.name = m.name ∧ n.desc = m.desc ∧
    n.access.isPrivate ∧ n.access.isSynthetic = false ∧ n.access.isBridge = false ∧
    n.name ≠ "<init>" ∧ n.name ≠ "<clinit>") ∧
  ¬Uses c [.invoke] m.name m.desc

instance (kinds : List Kind) (name desc : String) : Decidable (Uses c kinds name desc) :=
  inferInstanceAs (Decidable (∃ m ∈ c.methods, ∃ i ∈ m.code.elements,
    i.kind ∈ kinds ∧ i.action.owner = c.name ∧ i.action.name = name ∧ i.action.desc = desc))

instance : DecidablePred (UnreadField c) := fun f =>
  inferInstanceAs (Decidable ((∃ g ∈ c.fields, g.name = f.name ∧ g.desc = f.desc ∧
    g.access.isPrivate ∧ g.access.isSynthetic = false) ∧ _))

instance : DecidablePred (UncalledMethod c) := fun m =>
  inferInstanceAs (Decidable ((∃ n ∈ c.methods, n.name = m.name ∧ n.desc = m.desc ∧
    n.access.isPrivate ∧ n.access.isSynthetic = false ∧ n.access.isBridge = false ∧
    n.name ≠ "<init>" ∧ n.name ≠ "<clinit>") ∧ _))

variable {c}

/-- What a test finds among all actions is found at an instruction. -/
theorem any_actions {p : Action → Bool} {kinds : List Kind} {name desc : String}
    (h : ∀ a, p a ↔ a.kind ∈ kinds ∧ a.owner = c.name ∧ a.name = name ∧ a.desc = desc) :
    (actions c).any p ↔ Uses c kinds name desc := by
  simp only [List.any_eq_true, actions, List.mem_flatMap, List.mem_map, h, Uses]
  constructor
  · rintro ⟨_, ⟨m, hm, i, hi, rfl⟩, huses⟩
    exact ⟨m, hm, i, hi, huses⟩
  · rintro ⟨m, hm, i, hi, huses⟩
    exact ⟨_, ⟨m, hm, i, hi, rfl⟩, huses⟩

theorem readField?_eq_some {owner name desc : String} {a : Action} :
    (readField? owner a == some ⟨name, desc⟩) = true ↔
      a.kind ∈ [.getField, .getStatic] ∧ a.owner = owner ∧ a.name = name ∧ a.desc = desc := by
  cases a with
  | field access target =>
      cases access <;> simp [readField?, Action.kind, Action.owner, Action.name, Action.desc]
  | _ => simp [readField?, Action.kind]

theorem calledMethod?_eq_some {owner name desc : String} {a : Action} :
    (calledMethod? owner a == some ⟨name, desc⟩) = true ↔
      a.kind ∈ [.invoke] ∧ a.owner = owner ∧ a.name = name ∧ a.desc = desc := by
  cases a with
  | invoke kind target => simp [calledMethod?, Action.kind, Action.owner, Action.name, Action.desc]
  | field access target => cases access <;> simp [calledMethod?, Action.kind]
  | _ => simp [calledMethod?, Action.kind]

theorem mem_watchedFields {name desc : String} :
    ⟨name, desc⟩ ∈ watchedFields c ↔ ∃ g ∈ c.fields, g.name = name ∧ g.desc = desc ∧
      g.access.isPrivate ∧ g.access.isSynthetic = false := by
  simp only [watchedFields, List.mem_map, List.mem_filter, MemberKey.mk.injEq, Bool.and_eq_true,
    Bool.not_eq_true']
  refine exists_congr fun g => ?_
  rw [and_assoc, and_comm (b := g.name = name ∧ g.desc = desc), and_assoc]

theorem mem_watchedMethods {name desc : String} :
    ⟨name, desc⟩ ∈ watchedMethods c ↔ ∃ n ∈ c.methods, n.name = name ∧ n.desc = desc ∧
      n.access.isPrivate ∧ n.access.isSynthetic = false ∧ n.access.isBridge = false ∧
      n.name ≠ "<init>" ∧ n.name ≠ "<clinit>" := by
  simp only [watchedMethods, List.mem_map, List.mem_filter, MemberKey.mk.injEq, Bool.and_eq_true,
    Bool.not_eq_true', MethodModel.isInitializer_eq_false_iff]
  refine exists_congr fun n => ?_
  tauto

end Members

/-! ### Local variables -/

section Locals

variable (m : MethodModel)

/-- The instruction stores into this local variable. -/
def StoresInto (i : Instruction) (slot : Int) : Prop :=
  i.kind = .storeLocal ∧ i.action.slot? = some slot

/-- The method stores into the local variable, never loads it, and was not passed its receiver
there. -/
structure StoredOnly (slot : Int) : Prop where
  stored : ∃ i ∈ m.code.elements, StoresInto i slot
  unloaded : ∀ i ∈ m.code.elements, ¬(i.kind = .loadLocal ∧ i.action.slot? = some slot)
  counts : slot = 0 → m.access.isStatic

/-- The first store into the local variable is at position `n`. -/
structure FirstStore (slot : Int) (n : Nat) : Prop where
  store : ∃ i, m.code.elements[n]? = some i ∧ StoresInto i slot
  first : ∀ k < n, ∀ i, m.code.elements[k]? = some i → ¬StoresInto i slot

variable {m} {slot : Int} {n : Nat}

theorem storesInto_iff {i : Instruction} :
    StoresInto i slot ↔ ∃ type, i.action = .store type slot := by
  rw [StoresInto, Instruction.kind]
  cases i.action with
  | store type s => simp [Action.kind, Action.slot?]
  | field access target => cases access <;> simp [Action.kind]
  | _ => simp [Action.kind]

theorem loads_iff : loads m slot ↔
    ∃ i ∈ m.code.elements, i.kind = .loadLocal ∧ i.action.slot? = some slot := by
  rw [loads, List.any_eq_true]
  refine exists_congr fun i => and_congr_right fun _ => ?_
  rw [Instruction.kind]
  cases i.action with
  | load type s => simp [Action.kind, Action.slot?]
  | field access target => cases access <;> simp [Action.kind]
  | _ => simp [Action.kind]

theorem counts_iff : counts m slot ↔ (slot = 0 → m.access.isStatic) := by
  rw [counts, Bool.or_eq_true, bne_iff_ne, ne_eq, imp_iff_not_or]

/-- The store at a position, if there is one that counts. -/
def store? (m : MethodModel) : Nat × Action → Option (Nat × Int)
  | (n, a) =>
    match a with
    | .store _ slot => if counts m slot then some (n, slot) else none
    | _ => none

theorem stores_eq (m : MethodModel) : stores m = m.code.indexed.filterMap (store? m) := rfl

theorem store?_eq_some {k : Nat} {a : Action} : store? m (k, a) = some (n, slot) ↔
    k = n ∧ (∃ type, a = .store type slot) ∧ counts m slot := by
  cases a with
  | store type s =>
      simp only [store?, Option.ite_none_right_eq_some, Option.some.injEq, Prod.mk.injEq]
      constructor
      · rintro ⟨hcounts, rfl, rfl⟩
        exact ⟨rfl, ⟨type, rfl⟩, hcounts⟩
      · rintro ⟨rfl, ⟨_, heq⟩, hcounts⟩
        cases heq
        exact ⟨hcounts, rfl, rfl⟩
  | _ => simp [store?]

/-- The stores into local variables that count. -/
theorem mem_stores : (n, slot) ∈ stores m ↔
    (∃ i, m.code.elements[n]? = some i ∧ StoresInto i slot) ∧ (slot = 0 → m.access.isStatic) := by
  rw [stores_eq, List.mem_filterMap, ← counts_iff]
  constructor
  · rintro ⟨⟨k, a⟩, hmem, hstore⟩
    obtain ⟨i, hi, rfl⟩ := Body.mem_indexed.mp hmem
    obtain ⟨rfl, hinto, hcounts⟩ := store?_eq_some.mp hstore
    exact ⟨⟨i, hi, storesInto_iff.mpr hinto⟩, hcounts⟩
  · rintro ⟨⟨i, hi, hinto⟩, hcounts⟩
    exact ⟨(n, i.action), Body.mem_indexed.mpr ⟨i, hi, rfl⟩,
      store?_eq_some.mpr ⟨rfl, storesInto_iff.mp hinto, hcounts⟩⟩

/-- Stores are collected in program order. -/
theorem pairwise_stores (m : MethodModel) : (stores m).Pairwise (·.1 < ·.1) := by
  refine m.code.pairwise_indexed.filterMap (store? m) ?_
  rintro ⟨k, a⟩ ⟨k', a'⟩ hlt ⟨n, s⟩ hstore ⟨n', s'⟩ hstore'
  obtain ⟨rfl, -⟩ := store?_eq_some.mp hstore
  obtain ⟨rfl, -⟩ := store?_eq_some.mp hstore'
  exact hlt

/-- A store that is found is the first one. -/
theorem firstStore_of_find? (h : (stores m).find? (·.2 == slot) = some (n, slot)) :
    FirstStore m slot n := by
  obtain ⟨-, before, after, hsplit, hbefore⟩ := List.find?_eq_some_iff_append.mp h
  have hascending := pairwise_stores m
  rw [hsplit, List.pairwise_append, List.pairwise_cons] at hascending
  have hmem : (n, slot) ∈ stores m := hsplit ▸ List.mem_append_right _ List.mem_cons_self
  obtain ⟨hstore, hcounts⟩ := mem_stores.mp hmem
  refine ⟨hstore, fun k hk i hi hearly => ?_⟩
  -- a store at an earlier position would have been collected before this one
  have hmem' : (k, slot) ∈ stores m := mem_stores.mpr ⟨⟨i, hi, hearly⟩, hcounts⟩
  rw [hsplit, List.mem_append, List.mem_cons] at hmem'
  obtain hmem' | heq | hmem' := hmem'
  · simpa using hbefore _ hmem'
  · cases heq
    exact lt_irrefl _ hk
  · exact lt_asymm hk (hascending.2.1.1 _ hmem')

theorem slot_of_find? {x : Nat × Int} (h : (stores m).find? (·.2 == slot) = some x) :
    x.2 = slot :=
  eq_of_beq (List.find?_some (p := fun x : Nat × Int => x.2 == slot) h)

theorem mem_unread : (slot, n) ∈ unread m ↔
    loads m slot = false ∧ (stores m).find? (·.2 == slot) = some (n, slot) := by
  simp only [unread, List.mem_filterMap, List.mem_filter, mem_eraseReps, List.mem_mergeSort,
    Option.map_eq_some_iff, Bool.not_eq_true', List.mem_map]
  constructor
  · rintro ⟨s, ⟨-, hunloaded⟩, ⟨k, s'⟩, hfind, heq⟩
    cases heq
    obtain rfl : s' = slot := slot_of_find? hfind
    exact ⟨hunloaded, hfind⟩
  · rintro ⟨hunloaded, hfind⟩
    exact ⟨slot, ⟨⟨_, List.mem_of_find?_eq_some hfind, rfl⟩, hunloaded⟩, _, hfind, rfl⟩

/-- Local variables that are unread come in ascending order. -/
theorem pairwise_unread (m : MethodModel) : (unread m).Pairwise (·.1 < ·.1) := by
  have hslots := pairwise_eraseReps (List.pairwise_mergeSort' (· ≤ ·) ((stores m).map (·.2)))
  refine (hslots.filter fun s => !loads m s).filterMap _ ?_
  intro s s' hlt x hx x' hx'
  obtain ⟨y, -, rfl⟩ := Option.map_eq_some_iff.mp hx
  obtain ⟨y', -, rfl⟩ := Option.map_eq_some_iff.mp hx'
  exact hlt

/-- A local variable is unread exactly if it is stored into only. -/
theorem exists_mem_unread : (∃ n, (slot, n) ∈ unread m) ↔ StoredOnly m slot := by
  simp only [mem_unread, exists_and_left, ← Bool.not_eq_true, loads_iff]
  constructor
  · rintro ⟨hunloaded, n, hfind⟩
    obtain ⟨⟨i, hi, hinto⟩, hcounts⟩ := mem_stores.mp (List.mem_of_find?_eq_some hfind)
    exact ⟨⟨i, List.mem_of_getElem? hi, hinto⟩, fun j hj hload => hunloaded ⟨j, hj, hload⟩, hcounts⟩
  · rintro ⟨⟨i, hi, hinto⟩, hunloaded, hcounts⟩
    refine ⟨fun ⟨j, hj, hload⟩ => hunloaded j hj hload, ?_⟩
    obtain ⟨n, hn⟩ := List.getElem?_of_mem hi
    have hmem : (n, slot) ∈ stores m := mem_stores.mpr ⟨⟨i, hn, hinto⟩, hcounts⟩
    have hsome : ((stores m).find? (·.2 == slot)).isSome :=
      List.find?_isSome.mpr ⟨_, hmem, beq_self_eq_true slot⟩
    obtain ⟨⟨k, s⟩, hfind⟩ := Option.isSome_iff_exists.mp hsome
    obtain rfl : s = slot := slot_of_find? hfind
    exact ⟨k, hfind⟩

end Locals

/-! ### Findings -/

/-- What is said about a class. -/
def warning (c : ClassModel) (member : String) (line : Int) (message : String) : Finding where
  linter := "UnusedVariables"
  category := .style
  className := c.name
  member := member
  line := line
  severity := .warning
  message := message

/-- **Exactly what is unused is reported.** First come the fields, in the order of their
declarations, then the methods, and then the local variables of each method, each once and by their
numbers, at the line of the first store. -/
theorem findings_exact (c : ClassModel) :
    (linter c).findings =
      ((c.fields.filter fun f => UnreadField c f).map fun f =>
        warning c f.name 0 ("unused private field " ++ f.name ++ " (" ++ f.desc ++ ")")) ++
      ((c.methods.filter fun m => UncalledMethod c m).map fun m =>
        warning c (m.name ++ m.desc) m.code.firstLine
          ("unused private method " ++ (m.name ++ m.desc))) ++
      c.methods.flatMap (fun m => (unread m).map fun (slot, n) =>
        warning c (m.name ++ m.desc) (m.code.lineAt n)
          ("unused local " ++ m.localName slot ++ " (slot " ++ toString slot ++ ")")) ∧
    ∀ m ∈ c.methods,
      (unread m).Pairwise (·.1 < ·.1) ∧
      (∀ slot, (∃ n, (slot, n) ∈ unread m) ↔ StoredOnly m slot) ∧
      ∀ slot n, (slot, n) ∈ unread m → FirstStore m slot n := by
  have hfields (f : FieldModel) :
      (useTable c (watchedFields c) (readField? c.name)).isUnused ⟨f.name, f.desc⟩ =
        decide (UnreadField c f) := by
    rw [isUnused_useTable, Bool.eq_iff_iff, decide_eq_true_eq, Bool.and_eq_true, Bool.not_eq_true',
      ← Bool.not_eq_true, List.contains_iff_mem, mem_watchedFields,
      any_actions fun _ => readField?_eq_some, UnreadField]
  have hmethods (m : MethodModel) :
      (useTable c (watchedMethods c) (calledMethod? c.name)).isUnused ⟨m.name, m.desc⟩ =
        decide (UncalledMethod c m) := by
    rw [isUnused_useTable, Bool.eq_iff_iff, decide_eq_true_eq, Bool.and_eq_true, Bool.not_eq_true',
      ← Bool.not_eq_true, List.contains_iff_mem, mem_watchedMethods,
      any_actions fun _ => calledMethod?_eq_some, UncalledMethod]
  refine ⟨?_, fun m _ => ⟨pairwise_unread m, fun slot => exists_mem_unread, fun slot n hmem =>
    firstStore_of_find? (mem_unread.mp hmem).2⟩⟩
  show fields _ c ++ methods _ c ++ locals _ c = _
  simp only [fields, methods, locals, hfields, hmethods]
  rfl

/-- An increment is no load, and of two stores the first one counts. -/
example :
    unread
      { name := "m", desc := "()V", access := ⟨0⟩
        code := ⟨[⟨.store .int 1, 0⟩, ⟨.inc 1, 1⟩, ⟨.store .int 1, 4⟩]⟩ } = [(1, 0)] := by
  cbv

end ClassAudit.UnusedVariables
