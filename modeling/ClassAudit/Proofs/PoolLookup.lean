import ClassAudit.Proofs.ReaderAccesses
import ClassAudit.Proofs.Reading

/-!
# Looking constants up

What an index of a constant pool stands for, spelled out down to the texts: a class by its name,
a name with its descriptor, a member by its owner, name and descriptor. The look-ups of the pool
find exactly what stands there. A pool whose references were checked holds, behind every
constant, what the kind of the constant asks for, so a look-up that finds its first constant
finds all others too.

## Main definitions

* `ConstantPool.Holds` - the constant at an index.
* `ConstantPool.HasClass`, `HasNameAndType`, `HasMember` - what an index stands for.
* `ConstantPool.Checked` - every reference inside the pool leads where it should.

## Main statements

* `entry_eq_ok_iff`, `text_eq_ok_iff` - guarded look-ups find what is there.
* `Checked.className_eq_ok_iff`, `Checked.nameAndType_eq_ok_iff`, `Checked.hasMember` - in a
  checked pool the nested look-ups cannot fail.
-/

namespace ClassAudit.ConstantPool

variable {p : ConstantPool}

/-- The constant `c` is at the index, which is one that may be referred to. -/
def Holds (p : ConstantPool) (index : Nat) (c : Constant) : Prop :=
  index ≠ 0 ∧ p.entries[index]? = some (some c)

/-- The index stands for the class called `name`. -/
def HasClass (p : ConstantPool) (index : Nat) (name : String) : Prop :=
  ∃ a, p.Holds index (.classRef a) ∧ p.Holds a (.utf8 name.toList)

/-- The index stands for a name with a descriptor. -/
def HasNameAndType (p : ConstantPool) (index : Nat) (name desc : String) : Prop :=
  ∃ a b, p.Holds index (.nameAndType a b) ∧ p.Holds a (.utf8 name.toList) ∧
    p.Holds b (.utf8 desc.toList)

/-- A constant that refers to a member by the indexes of its owner and of its name. -/
inductive RefersTo (owner nameAndType : Nat) : Constant → Prop
  | field : RefersTo owner nameAndType (.fieldRef owner nameAndType)
  | method : RefersTo owner nameAndType (.methodRef owner nameAndType)
  | interfaceMethod : RefersTo owner nameAndType (.interfaceMethodRef owner nameAndType)

/-- The index stands for a member, by the constant `c`. -/
def HasMember (p : ConstantPool) (index : Nat) (c : Constant) (m : MemberRef) : Prop :=
  ∃ a b, p.Holds index c ∧ RefersTo a b c ∧ p.HasClass a m.owner ∧
    p.HasNameAndType b m.name m.desc

/-! ### Guarded look-ups -/

theorem Holds.unique {index : Nat} {c d : Constant} (hc : p.Holds index c)
    (hd : p.Holds index d) : c = d := by
  have h := hc.2.symm.trans hd.2
  exact Option.some.inj (Option.some.inj h)

theorem tagNumber_of_holds {index : Nat} {c : Constant} (h : p.Holds index c) :
    p.tagNumber index = c.tag.number := by
  rw [tagNumber, h.2]

theorem number_injective {s t : Tag} (h : s.number = t.number) : s = t := by
  cases s <;> cases t <;> first | rfl | exact absurd h (by decide)

theorem number_ne_zero (t : Tag) : t.number ≠ 0 := by
  cases t <;> decide

/-- An index is faultless exactly if it leads to a constant of one of the wanted kinds. -/
theorem fault?_eq_none_iff {index : Nat} {tags : List Tag} :
    p.fault? index tags = none ↔ ∃ c, p.Holds index c ∧ c.tag ∈ tags := by
  constructor
  · intro h
    rw [fault?] at h
    by_cases hrange : index = 0 ∨ p.entries.size ≤ index
    · rw [if_pos hrange] at h
      exact absurd h (by simp)
    rw [if_neg hrange] at h
    by_cases htag : (tags.map Tag.number).contains (p.tagNumber index)
    · obtain ⟨t, ht, hnum⟩ := List.mem_map.mp (List.contains_iff_mem.mp htag)
      have hlt : index < p.entries.size := by omega
      cases hentry : p.entries[index]? with
      | none =>
          rw [Array.getElem?_eq_none_iff] at hentry
          omega
      | some slot =>
          cases slot with
          | none =>
              rw [tagNumber, hentry] at hnum
              exact absurd hnum (number_ne_zero t)
          | some c =>
              have hc : p.Holds index c := ⟨fun h0 => hrange (.inl h0), hentry⟩
              rw [tagNumber_of_holds hc] at hnum
              exact ⟨c, hc, number_injective hnum ▸ ht⟩
    · rw [if_neg htag] at h
      exact absurd h (by simp)
  · rintro ⟨c, hc, htag⟩
    have hlt : index < p.entries.size := by
      obtain ⟨hlt, -⟩ := Array.getElem?_eq_some_iff.mp hc.2
      exact hlt
    have hmem : (tags.map Tag.number).contains (p.tagNumber index) = true := by
      rw [tagNumber_of_holds hc]
      exact List.contains_iff_mem.mpr (List.mem_map_of_mem htag)
    rw [fault?, if_neg (not_or.mpr ⟨hc.1, by omega⟩), if_pos hmem]

/-- A guarded look-up finds exactly a constant of one of the wanted kinds. -/
theorem entry_eq_ok_iff {index : Nat} {tags : List Tag} {c : Constant} :
    p.entry index tags = .ok c ↔ p.Holds index c ∧ c.tag ∈ tags := by
  rw [entry_eq]
  cases hfault : p.fault? index tags with
  | some fault =>
      refine ⟨fun h => by simp at h, fun h => ?_⟩
      rw [fault?_eq_none_iff.mpr ⟨c, h⟩] at hfault
      exact absurd hfault (by simp)
  | none =>
      obtain ⟨d, hd, htag⟩ := fault?_eq_none_iff.mp hfault
      simp only [hd.2, Except.ok.injEq]
      constructor
      · rintro rfl
        exact ⟨hd, htag⟩
      · rintro ⟨hc, -⟩
        exact hd.unique hc

theorem textAt_of_holds {index : Nat} {text : String} (h : p.Holds index (.utf8 text.toList)) :
    p.textAt index = .ok text := by
  rw [textAt, h.2]
  simp

/-- Exactly the texts of the table can be looked up. -/
theorem text_eq_ok_iff {index : Nat} {text : String} :
    p.text index = .ok text ↔ p.Holds index (.utf8 text.toList) := by
  rw [ConstantPool.text, except_bind_eq_ok]
  constructor
  · rintro ⟨c, hc, htext⟩
    obtain ⟨hholds, htag⟩ := entry_eq_ok_iff.mp hc
    cases c with
    | utf8 chars =>
        rw [textAt, hholds.2] at htext
        obtain rfl : String.ofList chars = text := Except.ok.inj htext
        simpa using hholds
    | _ => exact absurd (List.mem_singleton.mp htag) (by simp [Constant.tag])
  · intro h
    exact ⟨_, entry_eq_ok_iff.mpr ⟨h, List.mem_singleton.mpr rfl⟩, textAt_of_holds h⟩

/-! ### Checked pools -/

/-- Every reference inside the pool leads to a constant of a kind that is allowed there. -/
def Checked (p : ConstantPool) : Prop :=
  ∀ (index : Nat) (c : Constant), p.entries[index]? = some (some c) →
    ∀ a tags, (a, tags) ∈ requirements c → ∃ d, p.Holds a d ∧ d.tag ∈ tags

/-- A table without a fault is a checked table. -/
theorem firstFault?_eq_none_iff : p.firstFault? = none ↔ p.Checked := by
  rw [firstFault?, List.findSome?_eq_none_iff]
  constructor
  · intro h index c hentry a tags hreq
    have hmem : (some c, index) ∈ p.entries.toList.zipIdx := by
      rw [List.mk_mem_zipIdx_iff_getElem?, Array.getElem?_toList]
      exact hentry
    have hfault := h _ hmem
    simp only [Option.map_eq_none_iff, List.findSome?_eq_none_iff] at hfault
    exact fault?_eq_none_iff.mp (hfault _ hreq)
  · rintro h ⟨entry, index⟩ hmem
    rw [List.mk_mem_zipIdx_iff_getElem?, Array.getElem?_toList] at hmem
    cases entry with
    | none => rfl
    | some c =>
        simp only [Option.map_eq_none_iff, List.findSome?_eq_none_iff]
        rintro ⟨a, tags⟩ hreq
        exact fault?_eq_none_iff.mpr (h index c hmem a tags hreq)

/-- Where a text is asked for, a checked pool has one. -/
theorem Checked.exists_text (h : p.Checked) {index a : Nat} {c : Constant}
    (hc : p.Holds index c) (hreq : (a, [.utf8]) ∈ requirements c) :
    ∃ text : String, p.Holds a (.utf8 text.toList) := by
  obtain ⟨d, hd, htag⟩ := h index c hc.2 a _ hreq
  cases d with
  | utf8 chars => exact ⟨String.ofList chars, by simpa using hd⟩
  | _ => exact absurd (List.mem_singleton.mp htag) (by simp [Constant.tag])

/-- Where a constant of a checked table refers to a class, there is one with its name. -/
theorem Checked.exists_class (h : p.Checked) {index a : Nat} {c : Constant}
    (hc : p.Holds index c) (hreq : (a, [.classRef]) ∈ requirements c) :
    ∃ name, p.HasClass a name := by
  obtain ⟨d, hd, htag⟩ := h index c hc.2 a _ hreq
  cases d with
  | classRef b =>
      obtain ⟨name, hname⟩ := h.exists_text hd (List.mem_singleton.mpr rfl)
      exact ⟨name, b, hd, hname⟩
  | _ => exact absurd (List.mem_singleton.mp htag) (by simp [Constant.tag])

/-- Where a constant of a checked table refers to a name and a type, both are there. -/
theorem Checked.exists_nameAndType (h : p.Checked) {index b : Nat} {c : Constant}
    (hc : p.Holds index c) (hreq : (b, [.nameAndType]) ∈ requirements c) :
    ∃ name desc, p.HasNameAndType b name desc := by
  obtain ⟨d, hd, htag⟩ := h index c hc.2 b _ hreq
  cases d with
  | nameAndType a' b' =>
      obtain ⟨name, hname⟩ := h.exists_text hd (a := a') (by simp [requirements])
      obtain ⟨desc, hdesc⟩ := h.exists_text hd (a := b') (by simp [requirements])
      exact ⟨name, desc, a', b', hd, hname, hdesc⟩
  | _ => exact absurd (List.mem_singleton.mp htag) (by simp [Constant.tag])

/-! ### Nested look-ups -/

theorem className_of_hasClass {index : Nat} {name : String} (h : p.HasClass index name) :
    p.className index = .ok name := by
  obtain ⟨a, hc, ha⟩ := h
  have hentry : p.entry index [.classRef] = .ok (.classRef a) :=
    entry_eq_ok_iff.mpr ⟨hc, List.mem_singleton.mpr rfl⟩
  rw [className, hentry]
  exact textAt_of_holds ha

theorem nameAndType_of_hasNameAndType {index : Nat} {name desc : String}
    (h : p.HasNameAndType index name desc) : p.nameAndType index = .ok (name, desc) := by
  obtain ⟨a, b, hc, ha, hb⟩ := h
  have hentry : p.entry index [.nameAndType] = .ok (.nameAndType a b) :=
    entry_eq_ok_iff.mpr ⟨hc, List.mem_singleton.mpr rfl⟩
  rw [ConstantPool.nameAndType, hentry]
  show (p.textAt a >>= fun x => p.textAt b >>= fun y => pure (x, y)) = _
  rw [textAt_of_holds ha, textAt_of_holds hb]
  rfl

theorem classNameAt_of_hasClass {index : Nat} {name : String} (h : p.HasClass index name) :
    p.classNameAt index = .ok name := by
  obtain ⟨a, hc, ha⟩ := h
  rw [classNameAt, hc.2]
  exact textAt_of_holds ha

theorem memberRef_of_hasMember {index : Nat} {tags : List Tag} {c : Constant} {m : MemberRef}
    (h : p.HasMember index c m) (htag : c.tag ∈ tags) : p.memberRef index tags = .ok m := by
  obtain ⟨a, b, hc, href, howner, hname⟩ := h
  have hmember : memberRef.member p a b = .ok m := by
    rw [memberRef.member, classNameAt_of_hasClass howner]
    show (p.nameAndType b >>= fun x => pure (MemberRef.mk m.owner x.1 x.2)) = _
    rw [nameAndType_of_hasNameAndType hname]
    rfl
  rw [memberRef, entry_eq_ok_iff.mpr ⟨hc, htag⟩]
  cases href with
  | field => exact hmember
  | method => exact hmember
  | interfaceMethod => exact hmember

/-- In a checked pool the name of every class is there. -/
theorem Checked.className_eq_ok_iff (h : p.Checked) {index : Nat} {name : String} :
    p.className index = .ok name ↔ p.HasClass index name := by
  refine ⟨fun hname => ?_, className_of_hasClass⟩
  obtain ⟨c, hc, -⟩ := except_bind_eq_ok.mp hname
  obtain ⟨hholds, htag⟩ := entry_eq_ok_iff.mp hc
  cases c with
  | classRef a =>
      obtain ⟨text, htext⟩ := h.exists_text hholds (List.mem_singleton.mpr rfl)
      have hclass : p.HasClass index text := ⟨a, hholds, htext⟩
      rw [className_of_hasClass hclass] at hname
      exact Except.ok.inj hname ▸ hclass
  | _ => exact absurd (List.mem_singleton.mp htag) (by simp [Constant.tag])

/-- In a checked pool both texts of a name with a descriptor are there. -/
theorem Checked.nameAndType_eq_ok_iff (h : p.Checked) {index : Nat} {name desc : String} :
    p.nameAndType index = .ok (name, desc) ↔ p.HasNameAndType index name desc := by
  refine ⟨fun hname => ?_, nameAndType_of_hasNameAndType⟩
  obtain ⟨c, hc, -⟩ := except_bind_eq_ok.mp hname
  obtain ⟨hholds, htag⟩ := entry_eq_ok_iff.mp hc
  cases c with
  | nameAndType a b =>
      obtain ⟨text₁, h₁⟩ := h.exists_text hholds (a := a) (by simp [requirements])
      obtain ⟨text₂, h₂⟩ := h.exists_text hholds (a := b) (by simp [requirements])
      have hboth : p.HasNameAndType index text₁ text₂ := ⟨a, b, hholds, h₁, h₂⟩
      rw [nameAndType_of_hasNameAndType hboth] at hname
      obtain ⟨rfl, rfl⟩ := Prod.mk.inj (Except.ok.inj hname)
      exact hboth
  | _ => exact absurd (List.mem_singleton.mp htag) (by simp [Constant.tag])

/-- The kinds of constants that refer to members. -/
def memberTags : List Tag := [.fieldRef, .methodRef, .interfaceMethodRef]

theorem exists_refersTo {c : Constant} (h : c.tag ∈ memberTags) : ∃ a b, RefersTo a b c := by
  cases c with
  | fieldRef a b => exact ⟨a, b, .field⟩
  | methodRef a b => exact ⟨a, b, .method⟩
  | interfaceMethodRef a b => exact ⟨a, b, .interfaceMethod⟩
  | _ => exact absurd h (by simp [Constant.tag, memberTags])

/-- In a checked pool everything behind a reference to a member is there. -/
theorem Checked.hasMember (h : p.Checked) {index : Nat} {c : Constant} (hc : p.Holds index c)
    (htag : c.tag ∈ memberTags) : ∃ m, p.HasMember index c m := by
  obtain ⟨a, b, href⟩ := exists_refersTo htag
  have hreq : (a, [Tag.classRef]) ∈ requirements c ∧ (b, [Tag.nameAndType]) ∈ requirements c := by
    cases href <;> simp [requirements]
  obtain ⟨owner, howner⟩ := h.exists_class hc hreq.1
  obtain ⟨name, desc, hname⟩ := h.exists_nameAndType hc hreq.2
  exact ⟨⟨owner, name, desc⟩, a, b, hc, href, howner, hname⟩

end ClassAudit.ConstantPool
