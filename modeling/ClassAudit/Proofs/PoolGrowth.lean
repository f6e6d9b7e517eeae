import ClassAudit.Proofs.PoolTable

/-!
# Requests to a constant pool

A pool grows by requests. What was in its table stays where it is, and a key that has an index
keeps it. As long as the table has room, every key of the index denotes what it was asked for:
a text, a number, a class, a name with a descriptor, a member, a call site. Keys join several
texts into one, so a key with a joined text denotes one of the things whose texts join to it.

## Main definitions

* `Vocabulary` - the members and call sites that are asked for.
* `PoolKey.Denotes` - what an index given to a key stands for.
* `PoolBuilder.Sound` - the invariant of a pool that is being built.
* `PoolBuilder.Extends`, `PoolBuilder.Grows` - what a request keeps.
* `PoolBuilder.Supplies` - what a request adds.

## Main statements

* `PoolBuilder.Sound.add` - adding a constant keeps the invariant.
* `PoolBuilder.supplies_utf8`, `supplies_classRef`, `supplies_member`, ... - what each request
  is answered with.
-/

namespace ClassAudit

/-- The members and the dynamic call sites that are asked for. -/
structure Vocabulary where
  member : MemberRef → Prop
  site : String → String → Prop

/-- Owner, name and descriptor in one text, as the key of a member joins them. -/
def MemberRef.joined (m : MemberRef) : String := m.owner ++ "." ++ m.name ++ m.desc

namespace ConstantPool

variable {t t' t'' : ConstantPool}

/-! ### Tables that are continued -/

/-- Every place of the first table has the same entry in the second one. -/
def Within (t t' : ConstantPool) : Prop :=
  ∀ (index : Nat) (entry : Option Constant), t.entries[index]? = some entry →
    t'.entries[index]? = some entry

theorem Within.trans (h : t.Within t') (h' : t'.Within t'') : t.Within t'' :=
  fun index entry hentry => h' index entry (h index entry hentry)

theorem Within.holds (h : t.Within t') {index : Nat} {c : Constant} (hc : t.Holds index c) :
    t'.Holds index c :=
  ⟨hc.1, h index _ hc.2⟩

theorem Within.hasClass (h : t.Within t') {index : Nat} {name : String}
    (hc : t.HasClass index name) : t'.HasClass index name := by
  obtain ⟨a, hc, ha⟩ := hc
  exact ⟨a, h.holds hc, h.holds ha⟩

theorem Within.hasNameAndType (h : t.Within t') {index : Nat} {name desc : String}
    (hc : t.HasNameAndType index name desc) : t'.HasNameAndType index name desc := by
  obtain ⟨a, b, hc, ha, hb⟩ := hc
  exact ⟨a, b, h.holds hc, h.holds ha, h.holds hb⟩

/-- The index stands for a string literal. -/
def HasString (t : ConstantPool) (index : Nat) (text : List Char) : Prop :=
  ∃ a, t.Holds index (.string a) ∧ t.Holds a (.utf8 text)

theorem Within.hasString (h : t.Within t') {index : Nat} {text : List Char}
    (hc : t.HasString index text) : t'.HasString index text := by
  obtain ⟨a, hc, ha⟩ := hc
  exact ⟨a, h.holds hc, h.holds ha⟩

/-! ### Joined texts -/

/-- The index stands for a name with a descriptor whose texts join to the given one. -/
def HasJoined (t : ConstantPool) (index : Nat) (joined : String) : Prop :=
  ∃ name desc, name ++ " " ++ desc = joined ∧ t.HasNameAndType index name desc

/-- The index stands for a member of the given kind: its owner is right, and its name with its
descriptor joins to the same text. -/
def HasMemberLike (t : ConstantPool) (index : Nat) (tag : Tag) (m : MemberRef) : Prop :=
  ∃ c a b, t.Holds index c ∧ c.tag = tag ∧ RefersTo a b c ∧ t.HasClass a m.owner ∧
    t.HasJoined b (m.name ++ " " ++ m.desc)

/-- The index stands for a call site whose name and descriptor join to the same text. -/
def HasSiteLike (t : ConstantPool) (index : Nat) (name desc : String) : Prop :=
  ∃ a b, t.Holds index (.invokeDynamic a b) ∧ t.HasJoined b (name ++ " " ++ desc)

theorem Within.hasJoined (h : t.Within t') {index : Nat} {joined : String}
    (hc : t.HasJoined index joined) : t'.HasJoined index joined := by
  obtain ⟨name, desc, hjoin, hc⟩ := hc
  exact ⟨name, desc, hjoin, h.hasNameAndType hc⟩

theorem Within.hasMemberLike (h : t.Within t') {index : Nat} {tag : Tag} {m : MemberRef}
    (hc : t.HasMemberLike index tag m) : t'.HasMemberLike index tag m := by
  obtain ⟨c, a, b, hc, htag, href, howner, hjoined⟩ := hc
  exact ⟨c, a, b, h.holds hc, htag, href, h.hasClass howner, h.hasJoined hjoined⟩

theorem Within.hasSiteLike (h : t.Within t') {index : Nat} {name desc : String}
    (hc : t.HasSiteLike index name desc) : t'.HasSiteLike index name desc := by
  obtain ⟨a, b, hc, hjoined⟩ := hc
  exact ⟨a, b, h.holds hc, h.hasJoined hjoined⟩

end ConstantPool

/-! ### The invariant -/

/-- The index given to a key stands for what was asked for. -/
def PoolKey.Denotes (v : Vocabulary) (t : ConstantPool) : PoolKey → Nat → Prop
  | .utf8 text, n => t.Holds n (.utf8 text.chars)
  | .integer bits, n => t.Holds n (.integer bits)
  | .long bits, n => t.Holds n (.long bits)
  | .classRef name, n => t.HasClass n name
  | .string text, n => t.HasString n text.chars
  | .nameAndType joined, n => t.HasJoined n joined
  | .member tag joined, n => ∃ m, v.member m ∧ m.joined = joined ∧ t.HasMemberLike n tag m
  | .invokeDynamic joined, n =>
    ∃ name desc, v.site name desc ∧ name ++ desc = joined ∧ t.HasSiteLike n name desc

/-- A key keeps its meaning while the table grows. -/
theorem PoolKey.Denotes.mono {v : Vocabulary} {t t' : ConstantPool} (h : t.Within t')
    {key : PoolKey} {n : Nat} (hk : key.Denotes v t n) : key.Denotes v t' n := by
  cases key with
  | utf8 | integer | long => exact h.holds hk
  | classRef => exact h.hasClass hk
  | string => exact h.hasString hk
  | nameAndType => exact h.hasJoined hk
  | member =>
      obtain ⟨m, hm, hjoined, hlike⟩ := hk
      exact ⟨m, hm, hjoined, h.hasMemberLike hlike⟩
  | invokeDynamic =>
      obtain ⟨name, desc, hsite, hjoined, hlike⟩ := hk
      exact ⟨name, desc, hsite, hjoined, h.hasSiteLike hlike⟩

namespace PoolBuilder

variable {v : Vocabulary} {p p' p'' : PoolBuilder}

/-- The invariant of a pool that is being built and has room. -/
structure Sound (v : Vocabulary) (p : PoolBuilder) : Prop where
  next_eq : p.next = p.slots + 1
  denotes : ∀ key n, p.index.lookup key = some n → key.Denotes v p.table n
  checked : p.table.Checked
  /-- Only texts can be too long for their words. -/
  fits : ∀ c ∈ p.constants.toList, (∃ text, c = .utf8 text) ∨ c.Fits

/-- Nothing is taken away. -/
structure Extends (p p' : PoolBuilder) : Prop where
  constants : ∃ more, p'.constants.toList = p.constants.toList ++ more
  index : ∀ key n, p.index.lookup key = some n → p'.index.lookup key = some n

theorem Extends.refl (p : PoolBuilder) : Extends p p := ⟨⟨[], by simp⟩, fun _ _ h => h⟩

theorem Extends.trans (h : Extends p p') (h' : Extends p' p'') : Extends p p'' := by
  obtain ⟨more, hmore⟩ := h.constants
  obtain ⟨more', hmore'⟩ := h'.constants
  refine ⟨⟨more ++ more', ?_⟩, fun key n hkey => h'.index key n (h.index key n hkey)⟩
  rw [hmore', hmore, List.append_assoc]

theorem Extends.slots_le (h : Extends p p') : p.slots ≤ p'.slots := by
  obtain ⟨more, hmore⟩ := h.constants
  simp [slots, placesOf, hmore]

/-- What is in the table stays where it is. -/
theorem Extends.within (h : Extends p p') : p.table.Within p'.table := by
  obtain ⟨more, hmore⟩ := h.constants
  intro index entry hentry
  have hsplit : none :: placesOf p'.constants.toList =
      (none :: placesOf p.constants.toList) ++ placesOf more := by
    rw [placesOf, hmore, List.flatMap_append]
    rfl
  rw [table, List.getElem?_toArray] at hentry ⊢
  rw [hsplit]
  obtain ⟨hlt, -⟩ := List.getElem?_eq_some_iff.mp hentry
  rwa [List.getElem?_append_left hlt]

/-- Nothing is taken away, and the invariant is kept as long as there is room. -/
structure Grows (v : Vocabulary) (p p' : PoolBuilder) : Prop where
  kept : Extends p p'
  sound : p'.slots ≤ 65534 → Sound v p → Sound v p'

theorem Grows.refl (p : PoolBuilder) : Grows v p p := ⟨.refl p, fun _ h => h⟩

theorem Grows.trans (h : Grows v p p') (h' : Grows v p' p'') : Grows v p p'' where
  kept := h.kept.trans h'.kept
  sound hslots hp := h'.sound hslots (h.sound (h'.kept.slots_le.trans hslots) hp)

/-- The pool that nothing was added to. -/
theorem sound_empty : Sound v {} := by
  refine ⟨rfl, fun key n h => (nomatch h), ?_, fun c hc => (nomatch hc)⟩
  intro index c hc
  cases index with
  | zero => exact nomatch hc
  | succ index => exact nomatch hc

/-! ### Adding a constant -/

/-- Adding a constant keeps what is there. -/
theorem extends_add (key : PoolKey) (c : Constant) (p : PoolBuilder) :
    Extends p (add key c p).2 := by
  rw [add]
  cases hkey : p.index.lookup key with
  | some n => exact .refl p
  | none =>
      refine ⟨⟨[c], by simp⟩, fun key' n h => ?_⟩
      rw [List.lookup_cons]
      cases hsame : key' == key with
      | true =>
          rw [eq_of_beq hsame, hkey] at h
          exact nomatch h
      | false => exact h

/-- The key has the index that the request is answered with. -/
theorem lookup_add (key : PoolKey) (c : Constant) (p : PoolBuilder) :
    (add key c p).2.index.lookup key = some (add key c p).1 := by
  rw [add]
  cases hkey : p.index.lookup key with
  | some n => exact hkey
  | none => exact List.lookup_cons_self

theorem add_of_lookup {key : PoolKey} {n : Nat} (h : p.index.lookup key = some n) (c : Constant) :
    add key c p = (n, p) := by
  rw [add, h]

section NewConstant

variable {key : PoolKey} {c : Constant}

/-- A key of the grown pool is the new one, or it had its index before. -/
theorem lookup_of_lookup_add (h : p.index.lookup key = none) {key' : PoolKey} {n : Nat}
    (hadd : (add key c p).2.index.lookup key' = some n) :
    key' = key ∧ n = p.next ∨ p.index.lookup key' = some n := by
  simp only [add, h, List.lookup_cons] at hadd
  cases hsame : key' == key with
  | true =>
      rw [hsame] at hadd
      exact .inl ⟨eq_of_beq hsame, (Option.some.inj hadd).symm⟩
  | false =>
      rw [hsame] at hadd
      exact .inr hadd

theorem constants_add (h : p.index.lookup key = none) :
    (add key c p).2.constants.toList = p.constants.toList ++ [c] := by
  simp [add, h]

theorem entries_add (h : p.index.lookup key = none) :
    (add key c p).2.table.entries.toList = p.table.entries.toList ++ c.places := by
  simp [table, placesOf, constants_add h]

theorem slots_add (h : p.index.lookup key = none) :
    (add key c p).2.slots = p.slots + c.places.length := by
  simp [slots, placesOf, constants_add h]

/-- A new constant is at the place where the table ended. -/
theorem holds_add (h : p.index.lookup key = none) :
    (add key c p).2.table.Holds (p.slots + 1) c := by
  refine ⟨Nat.succ_ne_zero _, ?_⟩
  rw [← Array.getElem?_toList, entries_add h, ← size_table, ← Array.length_toList,
    List.getElem?_append_right le_rfl, Nat.sub_self, Constant.places]
  split <;> rfl

/-- Every constant of the new table is one of the old table or the new one. -/
theorem entry_add (h : p.index.lookup key = none) {index : Nat} {d : Constant}
    (hd : (add key c p).2.table.entries[index]? = some (some d)) :
    p.table.entries[index]? = some (some d) ∨ d = c := by
  rw [← Array.getElem?_toList, entries_add h] at hd
  by_cases hlt : index < p.table.entries.toList.length
  · rw [List.getElem?_append_left hlt, Array.getElem?_toList] at hd
    exact .inl hd
  · rw [List.getElem?_append_right (by omega)] at hd
    have hmem := List.mem_of_getElem? hd
    rw [Constant.places] at hmem
    split at hmem <;> simp_all

/-- The next index stays the number of places and one. -/
theorem next_add (h : p.index.lookup key = none) (hnext : p.next = p.slots + 1)
    (hslots : (add key c p).2.slots ≤ 65534) :
    (add key c p).2.next = (add key c p).2.slots + 1 := by
  rw [slots_add h] at hslots ⊢
  have hlength : c.places.length = if c.isWide then 2 else 1 := by
    rw [Constant.places]
    split <;> rfl
  rw [hlength] at hslots ⊢
  simp only [add, h, hnext]
  omega

end NewConstant

/-- **Adding a constant keeps the invariant**, if the numbers of the constant fit, the references
in it lead where they should, and its key denotes it. -/
theorem Sound.add {key : PoolKey} {c : Constant} (hp : Sound v p)
    (hslots : (PoolBuilder.add key c p).2.slots ≤ 65534)
    (hfits : (∃ text, c = .utf8 text) ∨ c.Fits)
    (hrequired : ∀ a tags, (a, tags) ∈ ConstantPool.requirements c →
      ∃ d, p.table.Holds a d ∧ d.tag ∈ tags)
    (hdenotes : ∀ t n, p.table.Within t → t.Holds n c → key.Denotes v t n) :
    Sound v (PoolBuilder.add key c p).2 := by
  cases hkey : p.index.lookup key with
  | some n =>
      rw [add_of_lookup hkey]
      exact hp
  | none =>
      have hwithin := (extends_add key c p).within
      refine ⟨next_add hkey hp.next_eq hslots, fun key' n h => ?_, fun index d hd a tags hreq => ?_,
        fun d hd => ?_⟩
      · obtain ⟨rfl, rfl⟩ | h := lookup_of_lookup_add hkey h
        · rw [hp.next_eq]
          exact hdenotes _ _ hwithin (holds_add hkey)
        · exact (hp.denotes key' n h).mono hwithin
      · obtain hd | rfl := entry_add hkey hd
        · obtain ⟨e, he, htag⟩ := hp.checked index d hd a tags hreq
          exact ⟨e, hwithin.holds he, htag⟩
        · obtain ⟨e, he, htag⟩ := hrequired a tags hreq
          exact ⟨e, hwithin.holds he, htag⟩
      · rw [constants_add hkey, List.mem_append, List.mem_singleton] at hd
        obtain hd | rfl := hd
        · exact hp.fits d hd
        · exact hfits

/-! ### Requests -/

/-- The property of a table is kept when the table is continued. -/
def Stable (F : ConstantPool → Prop) : Prop := ∀ t t', t.Within t' → F t → F t'

theorem stable_true : Stable fun _ => True := fun _ _ _ _ => trivial

theorem stable_holds (n : Nat) (c : Constant) : Stable (·.Holds n c) := fun _ _ h => h.holds

theorem stable_hasClass (n : Nat) (name : String) : Stable (·.HasClass n name) :=
  fun _ _ h => h.hasClass

theorem stable_hasJoined (n : Nat) (joined : String) : Stable (·.HasJoined n joined) :=
  fun _ _ h => h.hasJoined

theorem Stable.and {F G : ConstantPool → Prop} (hF : Stable F) (hG : Stable G) :
    Stable fun t => F t ∧ G t :=
  fun t t' h hFG => ⟨hF t t' h hFG.1, hG t t' h hFG.2⟩

/-- Started with a table that satisfies `F`, the request keeps the invariant, and its answer
satisfies `post` in the new table. -/
structure Supplies (v : Vocabulary) (F : ConstantPool → Prop) (r : Request)
    (post : ConstantPool → Nat → Prop) : Prop where
  kept : ∀ p, Extends p (r p).2
  sound : ∀ p, Sound v p → F p.table → (r p).2.slots ≤ 65534 →
    Sound v (r p).2 ∧ post (r p).2.table (r p).1

variable {F : ConstantPool → Prop} {r : Request} {post post' : ConstantPool → Nat → Prop}

theorem Supplies.imp (h : Supplies v F r post) (himp : ∀ t n, post t n → post' t n) :
    Supplies v F r post' where
  kept := h.kept
  sound p hp hF hslots := by
    obtain ⟨hsound, hpost⟩ := h.sound p hp hF hslots
    exact ⟨hsound, himp _ _ hpost⟩

/-- A request that uses the answer of another one. -/
theorem Supplies.bind {f : Nat → Request} (hr : Supplies v F r post)
    (hf : ∀ n, Supplies v (post · n) (f n) post') : Supplies v F (r >>= f) post' where
  kept p := (hr.kept p).trans ((hf _).kept _)
  sound p hp hF hslots := by
    have hroom : (r p).2.slots ≤ 65534 := ((hf (r p).1).kept (r p).2).slots_le.trans hslots
    obtain ⟨hsound, hpost⟩ := hr.sound p hp hF hroom
    exact (hf _).sound _ hsound hpost hslots

theorem Supplies.grows (h : Supplies v (fun _ => True) r post) (p : PoolBuilder) :
    Grows v p (r p).2 where
  kept := h.kept p
  sound hslots hp := (h.sound p hp trivial hslots).1

/-- **A constant that is added is found behind its index**, as long as what it refers to is there.
-/
theorem supplies_add (key : PoolKey) (c : Constant) (hF : Stable F)
    (hfits : ∀ t : ConstantPool, t.entries.size ≤ 65536 → F t → (∃ text, c = .utf8 text) ∨ c.Fits)
    (hrequired : ∀ t, F t → ∀ a tags, (a, tags) ∈ ConstantPool.requirements c →
      ∃ d, t.Holds a d ∧ d.tag ∈ tags)
    (hdenotes : ∀ t n, F t → t.Holds n c → key.Denotes v t n) :
    Supplies v F (add key c) fun t n => key.Denotes v t n ∧ F t where
  kept := extends_add key c
  sound p hp hFp hslots := by
    have hkept := extends_add key c p
    have hsize : p.table.entries.size ≤ 65536 := by
      have := hkept.slots_le
      rw [size_table]
      omega
    have hsound : Sound v (add key c p).2 := hp.add hslots (hfits _ hsize hFp) (hrequired _ hFp)
      fun t n h => hdenotes t n (hF _ _ h hFp)
    exact ⟨hsound, hsound.denotes _ _ (lookup_add key c p), hF _ _ hkept.within hFp⟩

/-- An index into a table of a class file is a two-byte word. -/
theorem lt_of_holds {t : ConstantPool} (hsize : t.entries.size ≤ 65536) {n : Nat} {c : Constant}
    (h : t.Holds n c) : n < 65536 := by
  obtain ⟨hlt, -⟩ := Array.getElem?_eq_some_iff.mp h.2
  exact hlt.trans_le hsize

theorem supplies_literal (hF : Stable F) (text : Text.Literal) :
    Supplies v F (literal text) fun t n => t.Holds n (.utf8 text.chars) ∧ F t :=
  supplies_add (.utf8 text) (.utf8 text.chars) hF (fun _ _ _ => .inl ⟨text.chars, rfl⟩)
    (fun _ _ _ _ h => (nomatch h)) fun _ _ _ h => h

/-- A text is at the index that is given to it. -/
theorem supplies_utf8 (hF : Stable F) (text : String) :
    Supplies v F (utf8 text) fun t n => t.Holds n (.utf8 text.toList) ∧ F t :=
  supplies_literal hF (.text text.toList)

theorem supplies_integer (value : Int) :
    Supplies v (fun _ => True) (integer value) fun t n =>
      t.Holds n (.integer (Binary.wrap 32 value)) := by
  refine (supplies_add (.integer _) (.integer (Binary.wrap 32 value)) stable_true
    (fun _ _ _ => .inr (Binary.wrap_lt 32 value)) (fun _ _ _ _ h => (nomatch h))
    fun _ _ _ h => h).imp fun _ _ h => h.1

theorem supplies_long (value : Int) :
    Supplies v (fun _ => True) (long value) fun t n =>
      t.Holds n (.long (Binary.wrap 64 value)) := by
  refine (supplies_add (.long _) (.long (Binary.wrap 64 value)) stable_true
    (fun _ _ _ => .inr (Binary.wrap_lt 64 value)) (fun _ _ _ _ h => (nomatch h))
    fun _ _ _ h => h).imp fun _ _ h => h.1

/-- A class is at the index that is given to it. -/
theorem supplies_classRef (hF : Stable F) (name : String) :
    Supplies v F (classRef name) fun t n => t.HasClass n name ∧ F t := by
  refine (supplies_utf8 hF name).bind fun a => ?_
  refine (supplies_add (.classRef name) (.classRef a) ((stable_holds _ _).and hF)
    (fun t hsize h => .inr ?_) (fun t h b tags hreq => ?_)
    fun t n h hn => ⟨a, hn, h.1⟩).imp fun t n h => ⟨h.1, h.2.2⟩
  · exact lt_of_holds hsize h.1
  · obtain ⟨rfl, rfl⟩ := Prod.mk.inj (List.mem_singleton.mp hreq)
    exact ⟨_, h.1, List.mem_singleton.mpr rfl⟩

theorem supplies_string (text : Text.Literal) :
    Supplies v (fun _ => True) (string text) fun t n => t.HasString n text.chars := by
  refine (supplies_literal stable_true text).bind fun a => ?_
  refine (supplies_add (.string text) (.string a) ((stable_holds _ _).and stable_true)
    (fun t hsize h => .inr ?_) (fun t h b tags hreq => ?_)
    fun t n h hn => ⟨a, hn, h.1⟩).imp fun t n h => h.1
  · exact lt_of_holds hsize h.1
  · obtain ⟨rfl, rfl⟩ := Prod.mk.inj (List.mem_singleton.mp hreq)
    exact ⟨_, h.1, List.mem_singleton.mpr rfl⟩

/-- A name with a descriptor that join to the same text is at the index that is given. -/
theorem supplies_nameAndType (hF : Stable F) (name desc : String) :
    Supplies v F (nameAndType name desc) fun t n => t.HasJoined n (name ++ " " ++ desc) ∧ F t := by
  refine (supplies_utf8 hF name).bind fun a => ?_
  refine (supplies_utf8 ((stable_holds _ _).and hF) desc).bind fun b => ?_
  refine (supplies_add (.nameAndType _) (.nameAndType a b)
    ((stable_holds _ _).and ((stable_holds _ _).and hF))
    (fun t hsize h => .inr ?_) (fun t h index tags hreq => ?_) fun t n h hn =>
      ⟨name, desc, rfl, a, b, hn, h.2.1, h.1⟩).imp fun t n h => ⟨h.1, h.2.2.2⟩
  · exact ⟨lt_of_holds hsize h.2.1, lt_of_holds hsize h.1⟩
  · simp only [ConstantPool.requirements, List.mem_cons, List.not_mem_nil, or_false,
      Prod.mk.injEq] at hreq
    obtain ⟨rfl, rfl⟩ | ⟨rfl, rfl⟩ := hreq
    · exact ⟨_, h.2.1, List.mem_singleton.mpr rfl⟩
    · exact ⟨_, h.1, List.mem_singleton.mpr rfl⟩

theorem MemberTag.refersTo (kind : MemberTag) (a b : Nat) :
    ConstantPool.RefersTo a b (kind.constant a b) := by
  cases kind with
  | field => exact .field
  | method => exact .method
  | interfaceMethod => exact .interfaceMethod

theorem MemberTag.tag_constant (kind : MemberTag) (a b : Nat) :
    (kind.constant a b).tag = kind.tag := by
  cases kind <;> rfl

/-- A member of the vocabulary that joins to the same text is at the index that is given. -/
theorem supplies_member {m : MemberRef} (hm : v.member m) (kind : MemberTag) :
    Supplies v (fun _ => True) (member kind m) fun t n =>
      ∃ m', v.member m' ∧ m'.joined = m.joined ∧ t.HasMemberLike n kind.tag m' := by
  refine (supplies_classRef stable_true m.owner).bind fun a => ?_
  refine (supplies_nameAndType ((stable_hasClass _ _).and stable_true) m.name m.desc).bind
    fun b => ?_
  refine (supplies_add (.member kind.tag m.joined) (kind.constant a b)
    ((stable_hasJoined _ _).and ((stable_hasClass _ _).and stable_true))
    (fun t hsize h => .inr ?_) (fun t h index tags hreq => ?_) fun t n h hn =>
      ⟨m, hm, rfl, _, a, b, hn, kind.tag_constant a b, kind.refersTo a b, h.2.1, h.1⟩).imp
    fun t n h => h.1
  · obtain ⟨_, _, -, _, _, hb, -⟩ := h.1
    obtain ⟨_, ha, -⟩ := h.2.1
    have hlt : a < 65536 ∧ b < 65536 :=
      ⟨lt_of_holds hsize ha, lt_of_holds hsize hb⟩
    cases kind <;> exact hlt
  · obtain ⟨_, _, -, _, _, hb, -⟩ := h.1
    obtain ⟨_, ha, -⟩ := h.2.1
    have hreq' : (index, tags) = (a, [.classRef]) ∨ (index, tags) = (b, [.nameAndType]) := by
      cases kind <;> simpa [MemberTag.constant, ConstantPool.requirements] using hreq
    obtain hreq | hreq := hreq'
    · obtain ⟨rfl, rfl⟩ := Prod.mk.inj hreq
      exact ⟨_, ha, List.mem_singleton.mpr rfl⟩
    · obtain ⟨rfl, rfl⟩ := Prod.mk.inj hreq
      exact ⟨_, hb, List.mem_singleton.mpr rfl⟩

/-- A call site of the vocabulary that joins to the same text is at the index that is given. -/
theorem supplies_invokeDynamic {name desc : String} (hsite : v.site name desc) :
    Supplies v (fun _ => True) (invokeDynamic name desc) fun t n =>
      ∃ name' desc', v.site name' desc' ∧ name' ++ desc' = name ++ desc ∧
        t.HasSiteLike n name' desc' := by
  refine (supplies_nameAndType stable_true name desc).bind fun b => ?_
  refine (supplies_add (.invokeDynamic _) (.invokeDynamic 0 b)
    ((stable_hasJoined _ _).and stable_true) (fun t hsize h => .inr ?_)
    (fun t h index tags hreq => ?_) fun t n h hn =>
      ⟨name, desc, hsite, rfl, 0, b, hn, h.1⟩).imp fun t n h => h.1
  · obtain ⟨_, _, -, _, _, hb, -⟩ := h.1
    exact ⟨by decide, lt_of_holds hsize hb⟩
  · obtain ⟨_, _, -, _, _, hb, -⟩ := h.1
    obtain ⟨rfl, rfl⟩ := Prod.mk.inj (List.mem_singleton.mp hreq)
    exact ⟨_, hb, List.mem_singleton.mpr rfl⟩

end PoolBuilder

end ClassAudit
