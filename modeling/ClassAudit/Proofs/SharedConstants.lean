import ClassAudit.Proofs.DescriptorBytes
import ClassAudit.Proofs.PoolRequests

/-!
# Shared constants

A pool gives a constant that was asked for before the index of that time, and everything in a class
file is found by these indexes. The answers are faithful if different constants never share an
index and every index leads to the constant that was asked for. This is so exactly if no two
constants that are asked for on the way are alike. Fields can be: the name of a field and its type
are joined without a mark between them, so `x` of the class `La` and `xL` of the class `a` are
taken for one field.

## Main definitions

* `Wanted.StandsAt` - the constant that was asked for is behind an index, down to the texts.
* `Wanted.Faithful` - the answers tell the constants apart and lead to them.
* `Wanted.Distinguishable` - no two of the constants are alike.
* `Wanted.isPlain` - names that leave no doubt where a key is cut.

## Main statements

* `PoolBuilder.Answered.faithful`, `PoolBuilder.Answered.distinguishable` - answers are faithful
  exactly where no two constants are alike.
* `Wanted.Alike.eq_of_plain` - methods and call sites with plain names are never confused.
* `Wanted.answers_share_alike` - **exactly alike constants share an index**, and when the answers
  are faithful.
* `Wanted.fields_share_index` - two fields that are taken for one.
-/

namespace ClassAudit

open PoolBuilder (MemberTag)

/-! ### Faithful answers -/

namespace Wanted

/-- Exactly the constant that was asked for is at the index, with all texts that it refers to. -/
def StandsAt (t : ConstantPool) : Wanted → Nat → Prop
  | utf8 text, n => t.Holds n (.utf8 text.chars)
  | integer value, n => t.Holds n (.integer (Binary.wrap 32 value.toInt))
  | long value, n => t.Holds n (.long (Binary.wrap 64 value.toInt))
  | classRef name, n => t.HasClass n name
  | string text, n => t.HasString n text.chars
  | nameAndType name desc, n => t.HasNameAndType n name desc
  | member kind m, n =>
    ∃ a b, t.Holds n (kind.constant a b) ∧ t.HasClass a m.owner ∧ t.HasNameAndType b m.name m.desc
  | invokeDynamic name desc, n =>
    ∃ b, t.Holds n (.invokeDynamic 0 b) ∧ t.HasNameAndType b name desc

/-- The answers tell the constants apart and lead to them. -/
structure Faithful (t : ConstantPool) (ws : List Wanted) (ns : List Nat) : Prop where
  same_index : ∀ w n w' n', (w, n) ∈ ws.zip ns → (w', n') ∈ ws.zip ns → (n = n' ↔ w = w')
  stands : ∀ w n, (w, n) ∈ ws.zip ns → w.StandsAt t n

/-- No two of the constants are alike. -/
def Distinguishable (asked : List Wanted) : Prop :=
  ∀ w ∈ asked, ∀ w' ∈ asked, w.Alike w' → w = w'

end Wanted

theorem exists_mem_zip_of_forall₂ {α β : Type} {R : α → β → Prop} {l : List α} {l' : List β}
    (h : List.Forall₂ R l l') {a : α} (ha : a ∈ l) : ∃ b, (a, b) ∈ l.zip l' ∧ R a b := by
  obtain ⟨i, hi⟩ := List.getElem?_of_mem ha
  obtain ⟨b, hb, hab⟩ := exists_getElem?_of_forall₂ h hi
  exact ⟨b, List.mem_of_getElem? (List.getElem?_zip_eq_some.mpr ⟨hi, hb⟩), hab⟩

theorem ConstantPool.HasNameAndType.unique {t : ConstantPool} {n : Nat}
    {name desc name' desc' : String} (h : t.HasNameAndType n name desc)
    (h' : t.HasNameAndType n name' desc') : name = name' ∧ desc = desc' := by
  obtain ⟨a, b, hc, ha, hb⟩ := h
  obtain ⟨a', b', hc', ha', hb'⟩ := h'
  obtain ⟨rfl, rfl⟩ := Constant.nameAndType.inj (hc.unique hc')
  exact ⟨String.toList_inj.mp (Constant.utf8.inj (ha.unique ha')),
    String.toList_inj.mp (Constant.utf8.inj (hb.unique hb'))⟩

/-! ### Where no constants are alike -/

namespace PoolBuilder.Interned

variable {p : PoolBuilder} {asked : List Wanted} {w w' : Wanted} {n n' : Nat}

/-- Exactly alike constants have the same index. -/
theorem index_eq_iff (h : Interned asked p) (hw : p.Indexed w n) (hw' : p.Indexed w' n') :
    n = n' ↔ w.Alike w' := by
  rw [← Wanted.key_eq_iff]
  constructor
  · rintro rfl
    exact h.distinct _ _ _ hw hw'
  · intro hkey
    rw [Indexed, hkey, hw'] at hw
    exact (Option.some.inj hw).symm

/-- Behind the index of a constant is the first one that is alike. -/
theorem exists_first (h : Interned asked p) (hw : p.Indexed w n) :
    ∃ v c, asked.find? (·.key == w.key) = some v ∧ v ∈ asked ∧ v.Alike w ∧ v.Spells p c ∧
      p.table.Holds n c := by
  obtain ⟨v, c, hv, hspells, hc⟩ := h.first _ _ hw
  have hkey : v.key = w.key := by simpa using List.find?_some hv
  exact ⟨v, c, hv, List.mem_of_find?_eq_some hv, Wanted.key_eq_iff.mp hkey, hspells, hc⟩

/-- Where no two constants are alike, each stands behind its index. -/
theorem standsAt (h : Interned asked p) (hparts : ∀ w ∈ asked, ∀ v ∈ w.parts, v ∈ asked)
    (hdistinct : Wanted.Distinguishable asked) (hw : w ∈ asked) (hindexed : p.Indexed w n) :
    w.StandsAt p.table n := by
  have hspelled {v : Wanted} {m : Nat} (hv : v ∈ asked) (hm : p.Indexed v m) :
      ∃ c, v.Spells p c ∧ p.table.Holds m c := by
    obtain ⟨u, c, -, hu, halike, hspells, hc⟩ := h.exists_first hm
    obtain rfl := hdistinct u hu v hv halike
    exact ⟨c, hspells, hc⟩
  have htext {s : String} {m : Nat} (hs : Wanted.ofText s ∈ asked)
      (hm : p.Indexed (.ofText s) m) : p.table.Holds m (.utf8 s.toList) := by
    obtain ⟨_, rfl, hc⟩ := hspelled hs hm
    exact hc
  have hclass {name : String} {m : Nat} (hs : Wanted.classRef name ∈ asked)
      (hm : p.Indexed (.classRef name) m) : p.table.HasClass m name := by
    obtain ⟨_, ⟨a, ha, rfl⟩, hc⟩ := hspelled hs hm
    exact ⟨a, hc, htext (hparts _ hs _ (by simp [Wanted.parts])) ha⟩
  have hname {name desc : String} {m : Nat} (hs : Wanted.nameAndType name desc ∈ asked)
      (hm : p.Indexed (.nameAndType name desc) m) : p.table.HasNameAndType m name desc := by
    obtain ⟨_, ⟨a, b, ha, hb, rfl⟩, hc⟩ := hspelled hs hm
    exact ⟨a, b, hc, htext (hparts _ hs _ (by simp [Wanted.parts])) ha,
      htext (hparts _ hs _ (by simp [Wanted.parts])) hb⟩
  obtain ⟨c, hspells, hc⟩ := hspelled hw hindexed
  cases w with
  | utf8 | integer | long =>
      obtain rfl := hspells
      exact hc
  | classRef name => exact hclass hw hindexed
  | string text =>
      obtain ⟨a, ha, rfl⟩ := hspells
      obtain ⟨_, rfl, htext⟩ := hspelled (hparts _ hw _ (by simp [Wanted.parts])) ha
      exact ⟨a, hc, htext⟩
  | nameAndType name desc => exact hname hw hindexed
  | member kind m =>
      obtain ⟨a, b, ha, hb, rfl⟩ := hspells
      exact ⟨a, b, hc, hclass (hparts _ hw _ (by simp [Wanted.parts])) ha,
        hname (hparts _ hw _ (by simp [Wanted.parts])) hb⟩
  | invokeDynamic name desc =>
      obtain ⟨b, hb, rfl⟩ := hspells
      exact ⟨b, hc, hname (hparts _ hw _ (by simp [Wanted.parts])) hb⟩

end PoolBuilder.Interned

/-! ### Where answers are faithful -/

namespace Wanted

variable {ws : List Wanted} {w : Wanted}

theorem eq_of_member_mem_parts {kind : MemberTag} {m : MemberRef} (h : member kind m ∈ w.parts) :
    w = member kind m := by
  cases w <;> simp_all [parts, ofText]

theorem eq_of_invokeDynamic_mem_parts {name desc : String} (h : invokeDynamic name desc ∈ w.parts) :
    w = invokeDynamic name desc := by
  cases w <;> simp_all [parts, ofText]

/-- Members and call sites are part of nothing else. -/
theorem mem_of_alike_member {kind : MemberTag} {m : MemberRef} (hw : w ∈ ws.flatMap parts)
    (h : w.Alike (member kind m)) : w ∈ ws := by
  obtain ⟨x, hx, hpart⟩ := List.mem_flatMap.mp hw
  cases h with
  | refl | member => exact eq_of_member_mem_parts hpart ▸ hx

theorem mem_of_alike_invokeDynamic {name desc : String} (hw : w ∈ ws.flatMap parts)
    (h : w.Alike (invokeDynamic name desc)) : w ∈ ws := by
  obtain ⟨x, hx, hpart⟩ := List.mem_flatMap.mp hw
  cases h with
  | refl | invokeDynamic => exact eq_of_invokeDynamic_mem_parts hpart ▸ hx

end Wanted

namespace PoolBuilder.Answered

variable {p : PoolBuilder} {ws : List Wanted} {ns : List Nat} {w w' : Wanted} {n : Nat}

theorem indexed_of_mem (h : Answered ws ns p) (hw : (w, n) ∈ ws.zip ns) : p.Indexed w n :=
  (List.forall₂_iff_zip.mp h.indexed).2 hw

/-- Where no two constants are alike, the answers are faithful. -/
theorem faithful (h : Answered ws ns p)
    (hdistinct : Wanted.Distinguishable (ws.flatMap Wanted.parts)) :
    Wanted.Faithful p.table ws ns := by
  have hasked {v : Wanted} {m : Nat} (hv : (v, m) ∈ ws.zip ns) : v ∈ ws.flatMap Wanted.parts :=
    List.mem_flatMap.mpr ⟨v, (List.of_mem_zip hv).1, v.self_mem_parts⟩
  constructor
  · intro w n w' n' hw hw'
    rw [h.interned.index_eq_iff (h.indexed_of_mem hw) (h.indexed_of_mem hw')]
    constructor
    · exact hdistinct w (hasked hw) w' (hasked hw')
    · rintro rfl
      exact .refl w
  · intro w n hw
    refine h.interned.standsAt (fun v hv u hu => ?_) hdistinct (hasked hw) (h.indexed_of_mem hw)
    obtain ⟨x, hx, hpart⟩ := List.mem_flatMap.mp hv
    exact List.mem_flatMap.mpr ⟨x, hx, Wanted.mem_parts_trans hu hpart⟩

/-- Alike constants that were asked for directly are the same, if the answers are faithful. -/
theorem eq_of_alike (h : Answered ws ns p) (hf : Wanted.Faithful p.table ws ns) (hw : w ∈ ws)
    (hw' : w' ∈ ws) (halike : w.Alike w') : w = w' := by
  obtain ⟨m, hzip, hm⟩ := exists_mem_zip_of_forall₂ h.indexed hw
  obtain ⟨m', hzip', hm'⟩ := exists_mem_zip_of_forall₂ h.indexed hw'
  exact (hf.same_index _ _ _ _ hzip hzip').mp ((h.interned.index_eq_iff hm hm').mpr halike)

/-- A constant that is part of nothing else is the one that was written for it. -/
theorem exists_spells (h : Answered ws ns p) (hf : Wanted.Faithful p.table ws ns) (hw : w ∈ ws)
    (hn : p.Indexed w n) (hwhole : ∀ u ∈ ws.flatMap Wanted.parts, u.Alike w → u ∈ ws) :
    ∃ c, w.Spells p c ∧ p.table.Holds n c := by
  obtain ⟨u, c, -, hu, halike, hspells, hc⟩ := h.interned.exists_first hn
  obtain rfl := h.eq_of_alike hf (hwhole u hu halike) hw halike
  exact ⟨c, hspells, hc⟩

/-- Faithful answers lead to every name with a descriptor that was asked for on the way. -/
theorem hasNameAndType (h : Answered ws ns p) (hf : Wanted.Faithful p.table ws ns)
    {name desc : String} (hw : .nameAndType name desc ∈ ws.flatMap Wanted.parts)
    (hn : p.Indexed (.nameAndType name desc) n) : p.table.HasNameAndType n name desc := by
  obtain ⟨x, hx, hpart⟩ := List.mem_flatMap.mp hw
  obtain ⟨k, hzip, hk⟩ := exists_mem_zip_of_forall₂ h.indexed hx
  have hstands := hf.stands x k hzip
  cases x with
  | nameAndType name' desc' =>
      obtain ⟨rfl, rfl⟩ : name = name' ∧ desc = desc' := by
        simpa [Wanted.parts, Wanted.ofText] using hpart
      obtain rfl := Option.some.inj (hn.symm.trans hk)
      exact hstands
  | member kind target =>
      obtain ⟨rfl, rfl⟩ : name = target.name ∧ desc = target.desc := by
        simpa [Wanted.parts, Wanted.ofText] using hpart
      obtain ⟨c, ⟨a, b, -, hb, rfl⟩, hc⟩ :=
        h.exists_spells hf hx hk fun _ => Wanted.mem_of_alike_member
      obtain ⟨a', b', hc', -, hname⟩ := hstands
      obtain ⟨-, rfl⟩ := MemberTag.constant_inj (hc.unique hc')
      obtain rfl := Option.some.inj (hn.symm.trans hb)
      exact hname
  | invokeDynamic name' desc' =>
      obtain ⟨rfl, rfl⟩ : name = name' ∧ desc = desc' := by
        simpa [Wanted.parts, Wanted.ofText] using hpart
      obtain ⟨c, ⟨b, hb, rfl⟩, hc⟩ :=
        h.exists_spells hf hx hk fun _ => Wanted.mem_of_alike_invokeDynamic
      obtain ⟨b', hc', hname⟩ := hstands
      obtain ⟨-, rfl⟩ := Constant.invokeDynamic.inj (hc.unique hc')
      obtain rfl := Option.some.inj (hn.symm.trans hb)
      exact hname
  | _ => simp [Wanted.parts, Wanted.ofText] at hpart

/-- Faithful answers are given only where no two constants are alike. -/
theorem distinguishable (h : Answered ws ns p) (hf : Wanted.Faithful p.table ws ns) :
    Wanted.Distinguishable (ws.flatMap Wanted.parts) := by
  intro w hw w' hw' halike
  cases halike with
  | refl => rfl
  | nameAndType hjoined =>
      obtain ⟨m, hm⟩ := h.interned.indexed _ hw
      obtain ⟨m', hm'⟩ := h.interned.indexed _ hw'
      obtain rfl := (h.interned.index_eq_iff hm hm').mpr (.nameAndType hjoined)
      obtain ⟨rfl, rfl⟩ := (h.hasNameAndType hf hw hm).unique (h.hasNameAndType hf hw' hm')
      rfl
  | member hjoined =>
      exact h.eq_of_alike hf (Wanted.mem_of_alike_member hw (.member hjoined))
        (Wanted.mem_of_alike_member hw' (.refl _)) (.member hjoined)
  | invokeDynamic hjoined =>
      exact h.eq_of_alike hf (Wanted.mem_of_alike_invokeDynamic hw (.invokeDynamic hjoined))
        (Wanted.mem_of_alike_invokeDynamic hw' (.refl _)) (.invokeDynamic hjoined)

end PoolBuilder.Answered

namespace Wanted

variable {p : PoolBuilder} {ws : List Wanted} {w w' : Wanted}

/-! ### The pool as it is written -/

/-- The texts that the constant consists of. -/
def texts : Wanted → List (List Char)
  | utf8 text => [text.chars]
  | string text => [text.chars]
  | integer _ => []
  | long _ => []
  | classRef name => [name.toList]
  | nameAndType name desc => [name.toList, desc.toList]
  | member _ m => [m.owner.toList, m.name.toList, m.desc.toList]
  | invokeDynamic name desc => [name.toList, desc.toList]

/-- The length of every text fits its word. -/
def TextsFit (w : Wanted) : Prop :=
  ∀ text ∈ w.texts, (Text.ModifiedUtf8.encode text).length ≤ 65535

instance (w : Wanted) : Decidable w.TextsFit :=
  inferInstanceAs (Decidable (∀ text ∈ w.texts, _ ≤ 65535))

theorem mem_texts_of_utf8 {text : Text.Literal} (h : utf8 text ∈ w.parts) :
    text.chars ∈ w.texts := by
  cases w with
  | integer | long => exact absurd h (by simp [parts])
  | utf8 | string | classRef =>
      obtain rfl : text = _ := by simpa [parts, ofText] using h
      simp [texts, Text.Literal.chars]
  | nameAndType | invokeDynamic =>
      obtain rfl | rfl := by simpa [parts, ofText] using h
      all_goals simp [texts, Text.Literal.chars]
  | member =>
      obtain rfl | rfl | rfl := by simpa [parts, ofText] using h
      all_goals simp [texts, Text.Literal.chars]

theorem Spells.exists_utf8 {text : List Char} (h : w.Spells p (.utf8 text)) :
    ∃ literal, w = utf8 literal ∧ literal.chars = text := by
  cases w with
  | utf8 literal => exact ⟨literal, rfl, (Constant.utf8.inj h).symm⟩
  | integer | long => exact nomatch h
  | classRef | string | invokeDynamic =>
      obtain ⟨_, -, h⟩ := h
      exact nomatch h
  | nameAndType =>
      obtain ⟨_, _, -, -, h⟩ := h
      exact nomatch h
  | member kind =>
      obtain ⟨_, _, -, -, h⟩ := h
      cases kind <;> exact nomatch h

theorem supplies_request {v : Vocabulary} (hmember : ∀ m, v.member m)
    (hsite : ∀ name desc, v.site name desc) (w : Wanted) :
    PoolBuilder.Supplies v (fun _ => True) w.request fun _ _ => True := by
  cases w with
  | utf8 text =>
      exact (PoolBuilder.supplies_literal PoolBuilder.stable_true text).imp fun _ _ _ => trivial
  | integer value => exact (PoolBuilder.supplies_integer value.toInt).imp fun _ _ _ => trivial
  | long value => exact (PoolBuilder.supplies_long value.toInt).imp fun _ _ _ => trivial
  | classRef name =>
      exact (PoolBuilder.supplies_classRef PoolBuilder.stable_true name).imp fun _ _ _ => trivial
  | string text => exact (PoolBuilder.supplies_string text).imp fun _ _ _ => trivial
  | nameAndType name desc =>
      exact (PoolBuilder.supplies_nameAndType PoolBuilder.stable_true name desc).imp
        fun _ _ _ => trivial
  | member kind m => exact (PoolBuilder.supplies_member (hmember m) kind).imp fun _ _ _ => trivial
  | invokeDynamic name desc =>
      exact (PoolBuilder.supplies_invokeDynamic (hsite name desc)).imp fun _ _ _ => trivial

theorem grows_requests {v : Vocabulary} (hmember : ∀ m, v.member m)
    (hsite : ∀ name desc, v.site name desc) (ws : List Wanted) (p : PoolBuilder) :
    PoolBuilder.Grows v p (ws.mapM request p).2 := by
  induction ws generalizing p with
  | nil => exact .refl p
  | cons w ws ih =>
      rw [PoolBuilder.mapM_request_cons]
      exact ((supplies_request hmember hsite w).grows p).trans (ih _)

/-- The written pool is read back as its table, if it has room and the texts fit. -/
theorem yields_read_requests (hslots : (ws.mapM request {}).2.slots ≤ 65534)
    (hfits : ∀ w ∈ ws, w.TextsFit) :
    ConstantPool.read.Yields 0 (ws.mapM request {}).2.encode
      (.ok (ws.mapM request {}).2.table) := by
  have hanswered := PoolBuilder.answered_requests hslots
  have hgrows := grows_requests (v := ⟨fun _ => True, fun _ _ => True⟩) (fun _ => trivial)
    (fun _ _ => trivial) ws {}
  have hsound := hgrows.sound hslots PoolBuilder.sound_empty
  refine PoolBuilder.yields_read hsound.next_eq hslots (fun c hc => ?_) hsound.checked 0
  obtain ⟨text, rfl⟩ | hfit := hsound.fits c hc
  · obtain ⟨w, hw, hspells⟩ := hanswered.interned.spelled _ hc
    obtain ⟨literal, rfl, rfl⟩ := hspells.exists_utf8
    obtain ⟨x, hx, hpart⟩ := List.mem_flatMap.mp hw
    exact Nat.lt_succ_of_le (hfits x hx _ (mem_texts_of_utf8 hpart))
  · exact hfit

/-! ### Plain names -/

/-- Where the keys of both constants are cut is told by a mark: a name without a blank, an owner
without a dot, and a descriptor that opens with a parenthesis behind a name without one. The types
of fields open with no mark of their own. -/
def isPlain : Wanted → Bool
  | nameAndType name _ => !name.toList.contains ' '
  | member _ m =>
    !m.owner.toList.contains '.' && !m.name.toList.contains '(' && m.desc.toList.head? == some '('
  | invokeDynamic name desc => !name.toList.contains '(' && desc.toList.head? == some '('
  | _ => true

/-- A text is cut in one way at the first of its marks. -/
theorem eq_of_append_mark {mark : Char} {l r l' r' : List Char} (hl : mark ∉ l) (hl' : mark ∉ l')
    (h : l ++ mark :: r = l' ++ mark :: r') : l = l' ∧ r = r' := by
  have hcut {s before after : List Char} (hs : s = before ++ mark :: after)
      (hbefore : mark ∉ before) : Text.cutAt (· == mark) s = some (before, after) := by
    refine Text.cutAt_eq_some_iff.mpr ⟨mark, beq_self_eq_true mark, fun c hc => ?_, hs⟩
    exact beq_eq_false_iff_ne.mpr fun heq => hbefore (heq ▸ hc)
  exact Prod.mk.inj (Option.some.inj ((hcut rfl hl).symm.trans (hcut h hl')))

theorem eq_of_append_desc {name desc name' desc' : String} (hname : '(' ∉ name.toList)
    (hname' : '(' ∉ name'.toList) (hdesc : desc.toList.head? = some '(')
    (hdesc' : desc'.toList.head? = some '(')
    (h : name.toList ++ desc.toList = name'.toList ++ desc'.toList) :
    name = name' ∧ desc = desc' := by
  obtain ⟨rest, hrest⟩ := List.head?_eq_some_iff.mp hdesc
  obtain ⟨rest', hrest'⟩ := List.head?_eq_some_iff.mp hdesc'
  rw [hrest, hrest'] at h
  obtain ⟨hsame, rfl⟩ := eq_of_append_mark hname hname' h
  exact ⟨String.toList_inj.mp hsame, String.toList_inj.mp (hrest.trans hrest'.symm)⟩

/-- **Plain constants are never confused.** -/
theorem Alike.eq_of_plain (h : w.Alike w') (hw : w.isPlain) (hw' : w'.isPlain) : w = w' := by
  cases h with
  | refl => rfl
  | @nameAndType name desc name' desc' h =>
      simp only [isPlain, Bool.not_eq_true', List.contains_eq_mem, decide_eq_false_iff_not]
        at hw hw'
      have hlist : name.toList ++ ' ' :: desc.toList = name'.toList ++ ' ' :: desc'.toList := by
        simpa using congrArg String.toList h
      obtain ⟨hname, hdesc⟩ := eq_of_append_mark hw hw' hlist
      rw [String.toList_inj.mp hname, String.toList_inj.mp hdesc]
  | @member kind m m' h =>
      simp only [isPlain, Bool.and_eq_true, Bool.not_eq_true', List.contains_eq_mem,
        decide_eq_false_iff_not, beq_iff_eq] at hw hw'
      have hlist : m.owner.toList ++ '.' :: (m.name.toList ++ m.desc.toList) =
          m'.owner.toList ++ '.' :: (m'.name.toList ++ m'.desc.toList) := by
        simpa [MemberRef.joined] using congrArg String.toList h
      obtain ⟨howner, hrest⟩ := eq_of_append_mark hw.1.1 hw'.1.1 hlist
      have howner := String.toList_inj.mp howner
      obtain ⟨hname, hdesc⟩ := eq_of_append_desc hw.1.2 hw'.1.2 hw.2 hw'.2 hrest
      have hsame : m = m' := by
        cases m
        cases m'
        simp_all
      rw [hsame]
  | @invokeDynamic name desc name' desc' h =>
      simp only [isPlain, Bool.and_eq_true, Bool.not_eq_true', List.contains_eq_mem,
        decide_eq_false_iff_not, beq_iff_eq] at hw hw'
      have hlist : name.toList ++ desc.toList = name'.toList ++ desc'.toList := by
        simpa using congrArg String.toList h
      obtain ⟨rfl, rfl⟩ := eq_of_append_desc hw.1 hw'.1 hw.2 hw'.2 hlist
      rfl

/-! ### The answers -/

/-- **Constants share an index exactly if they are alike.** In the pool as it is read back there is,
behind the index that a request was answered with, the constant of the first request that is alike,
with the indexes of its own parts. So the answers tell all constants apart and lead to them exactly
if no two constants that are asked for on the way are alike. -/
theorem answers_share_alike {ws : List Wanted} {ns : List Nat} {p : PoolBuilder}
    (hrun : ws.mapM request {} = (ns, p)) (hslots : p.slots ≤ 65534)
    (hfits : ∀ w ∈ ws, w.TextsFit) :
    ns.length = ws.length ∧
    ConstantPool.read.Yields 0 p.encode (.ok p.table) ∧
    (∀ w n, (w, n) ∈ ws.zip ns → ∃ v c,
      (ws.flatMap parts).find? (·.key == w.key) = some v ∧ v.Alike w ∧ v.Spells p c ∧
        p.table.Holds n c) ∧
    (∀ w n w' n', (w, n) ∈ ws.zip ns → (w', n') ∈ ws.zip ns → (n = n' ↔ w.Alike w')) ∧
    (Faithful p.table ws ns ↔ Distinguishable (ws.flatMap parts)) := by
  obtain rfl : (ws.mapM request {}).1 = ns := congrArg Prod.fst hrun
  obtain rfl : (ws.mapM request {}).2 = p := congrArg Prod.snd hrun
  have h := PoolBuilder.answered_requests hslots
  refine ⟨h.indexed.length_eq.symm, yields_read_requests hslots hfits, fun w n hw => ?_,
    fun w n w' n' hw hw' => ?_, h.distinguishable, h.faithful⟩
  · obtain ⟨v, c, hfirst, -, hrest⟩ := h.interned.exists_first (h.indexed_of_mem hw)
    exact ⟨v, c, hfirst, hrest⟩
  · exact h.interned.index_eq_iff (h.indexed_of_mem hw) (h.indexed_of_mem hw')

/-- Constants of every kind, some of them asked for twice. -/
def plainRun : List Wanted :=
  [.classRef "a/B", .string (.text "run".toList), .integer (-1), .long (-1),
    .member .method ⟨"a/B", "run", "()V"⟩, .member .interfaceMethod ⟨"a/B", "run", "()V"⟩,
    .invokeDynamic "run" "()V", .nameAndType "run" "()V", .member .method ⟨"a/B", "run", "()V"⟩,
    .utf8 (.text "run".toList)]

theorem answers_share_alike_plain :
    (plainRun.mapM request {}).2.slots ≤ 65534 ∧ (∀ w ∈ plainRun, w.TextsFit) ∧
      Faithful (plainRun.mapM request {}).2.table plainRun (plainRun.mapM request {}).1 := by
  have hslots : (plainRun.mapM request {}).2.slots ≤ 65534 := by decide +kernel
  have hfits : ∀ w ∈ plainRun, w.TextsFit := by decide +kernel
  have hplain : ∀ w ∈ plainRun.flatMap parts, w.isPlain := by decide +kernel
  refine ⟨hslots, hfits, (answers_share_alike rfl hslots hfits).2.2.2.2.mpr ?_⟩
  exact fun w hw w' hw' halike => halike.eq_of_plain (hplain w hw) (hplain w' hw')

/-- Two fields with different names, whose types are different classes. -/
def twoFields : List Wanted :=
  [.member .field ⟨"a/B", "x", "LLa;"⟩, .member .field ⟨"a/B", "xL", "La;"⟩]

/-- The second field gets the index of the first one: their names and types join to one text, though
the types are well formed. -/
theorem fields_share_index :
    (twoFields.mapM request {}).2.slots ≤ 65534 ∧ (∀ w ∈ twoFields, w.TextsFit) ∧
      validFieldDescriptor "LLa;" ∧ validFieldDescriptor "La;" ∧
      (twoFields.mapM request {}).1 = [6, 6] ∧
      ¬Faithful (twoFields.mapM request {}).2.table twoFields (twoFields.mapM request {}).1 := by
  have hanswers : (twoFields.mapM request {}).1 = [6, 6] := by decide +kernel
  refine ⟨by decide +kernel, by decide +kernel, by decide +kernel, by decide +kernel, hanswers,
    fun h => ?_⟩
  rw [hanswers] at h
  have hsame := (h.same_index (.member .field ⟨"a/B", "x", "LLa;"⟩) 6
    (.member .field ⟨"a/B", "xL", "La;"⟩) 6 (by simp [twoFields]) (by simp [twoFields])).mp rfl
  exact absurd hsame (by decide)

end Wanted

end ClassAudit
