import ClassAudit.Proofs.PoolGrowth

/-!
# Requests spelled out

A constant that a pool is asked for, told by the texts and numbers that it stands for and not by
the indexes of other constants. A request asks for the parts of its constant first. A pool tells
constants apart by their keys, and three kinds of keys join texts that other texts may join to as
well. So what a pool keeps while it is asked for one constant after the other is this: every key has
an index of its own, behind which is the constant that was asked for first with this key.

## Main definitions

* `Wanted` - a constant that is asked for, spelled out; `Wanted.parts` - what is asked for with it.
* `Wanted.Alike` - constants whose texts join to the same key.
* `Wanted.Spells` - the constant that is written for a request, with the indexes of its parts.
* `PoolBuilder.Interned` - the invariant of a pool that was asked for a list of constants.
* `PoolBuilder.Interns` - what a request asks for.
* `PoolBuilder.Answered` - a pool and its answers after a sequence of requests.

## Main statements

* `Wanted.key_eq_iff` - constants have the same key exactly if they are alike.
* `PoolBuilder.Interned.add` - one constant more keeps the invariant.
* `PoolBuilder.answered_requests` - it holds of a new pool after any sequence of requests.
-/

namespace ClassAudit

open PoolBuilder (MemberTag)

theorem PoolBuilder.MemberTag.tag_inj {kind kind' : MemberTag} (h : kind.tag = kind'.tag) :
    kind = kind' := by
  cases kind <;> cases kind' <;> simp_all [MemberTag.tag]

theorem PoolBuilder.MemberTag.constant_inj {kind : MemberTag} {a b a' b' : Nat}
    (h : kind.constant a b = kind.constant a' b') : a = a' ∧ b = b' := by
  cases kind <;> simpa [MemberTag.constant] using h

/-- The bits of a word tell its value. -/
theorem Binary.wrap_inj {bits : Nat} {a b : Int} (h : wrap (bits + 1) a = wrap (bits + 1) b)
    (ha : -2 ^ bits ≤ a ∧ a < 2 ^ bits) (hb : -2 ^ bits ≤ b ∧ b < 2 ^ bits) : a = b := by
  rw [wrap_eq, wrap_eq] at h
  have hpos : (0 : Int) < 2 ^ (bits + 1) := by positivity
  have hmod : a % 2 ^ (bits + 1) = b % 2 ^ (bits + 1) := by
    have hka := Int.emod_nonneg a hpos.ne'
    have hkb := Int.emod_nonneg b hpos.ne'
    omega
  have hsub : (a - b) % 2 ^ (bits + 1) = 0 := Int.emod_eq_emod_iff_emod_sub_eq_zero.mp hmod
  have hzero : a - b = 0 := by
    refine Int.eq_zero_of_abs_lt_dvd (Int.dvd_of_emod_eq_zero hsub) ?_
    rw [abs_lt, pow_succ]
    constructor <;> linarith
  linarith

/-- A constant that is asked for, with everything that it refers to spelled out. -/
inductive Wanted where
  | utf8 (text : Text.Literal)
  | integer (value : Int32)
  | long (value : Int64)
  | classRef (name : String)
  | string (text : Text.Literal)
  | nameAndType (name desc : String)
  | member (kind : MemberTag) (target : MemberRef)
  | invokeDynamic (name desc : String)
deriving DecidableEq

namespace Wanted

/-- The constant of a text. -/
def ofText (s : String) : Wanted := utf8 (.text s.toList)

/-- How a pool is asked for the constant. -/
def request : Wanted → PoolBuilder.Request
  | utf8 text => PoolBuilder.literal text
  | integer value => PoolBuilder.integer value.toInt
  | long value => PoolBuilder.long value.toInt
  | classRef name => PoolBuilder.classRef name
  | string text => PoolBuilder.string text
  | nameAndType name desc => PoolBuilder.nameAndType name desc
  | member kind target => PoolBuilder.member kind target
  | invokeDynamic name desc => PoolBuilder.invokeDynamic name desc

/-- What the constant is recognised by. -/
def key : Wanted → PoolKey
  | utf8 text => .utf8 text
  | integer value => .integer (Binary.wrap 32 value.toInt)
  | long value => .long (Binary.wrap 64 value.toInt)
  | classRef name => .classRef name
  | string text => .string text
  | nameAndType name desc => .nameAndType (name ++ " " ++ desc)
  | member kind target => .member kind.tag target.joined
  | invokeDynamic name desc => .invokeDynamic (name ++ desc)

/-- What a pool is asked for on the way to a constant, in this order; the constant comes last. -/
def parts : Wanted → List Wanted
  | utf8 text => [utf8 text]
  | integer value => [integer value]
  | long value => [long value]
  | classRef name => [ofText name, classRef name]
  | string text => [utf8 text, string text]
  | nameAndType name desc => [ofText name, ofText desc, nameAndType name desc]
  | member kind target =>
    [ofText target.owner, classRef target.owner, ofText target.name, ofText target.desc,
      nameAndType target.name target.desc, member kind target]
  | invokeDynamic name desc =>
    [ofText name, ofText desc, nameAndType name desc, invokeDynamic name desc]

theorem self_mem_parts (w : Wanted) : w ∈ w.parts := by
  cases w <;> simp [parts]

/-- What is asked for on the way to a part is asked for on the way to the whole. -/
theorem mem_parts_trans {u w x : Wanted} (hu : u ∈ w.parts) (hw : w ∈ x.parts) : u ∈ x.parts := by
  cases x with
  | utf8 | integer | long =>
      obtain rfl := List.mem_singleton.mp hw
      exact hu
  | classRef | string =>
      obtain rfl | rfl := by simpa [parts] using hw
      all_goals simp_all [parts, ofText]
  | nameAndType =>
      obtain rfl | rfl | rfl := by simpa [parts] using hw
      all_goals simp_all [parts, ofText]
  | member =>
      obtain rfl | rfl | rfl | rfl | rfl | rfl := by simpa [parts] using hw
      all_goals
        simp only [parts, ofText, List.mem_cons, List.not_mem_nil, or_false] at hu ⊢
        grind
  | invokeDynamic =>
      obtain rfl | rfl | rfl | rfl := by simpa [parts] using hw
      all_goals
        simp only [parts, ofText, List.mem_cons, List.not_mem_nil, or_false] at hu ⊢
        grind

/-! ### Alike constants -/

/-- The keys of both constants are the same: the constants are the same, or they are of the same
kind and their texts join to one text. -/
inductive Alike : Wanted → Wanted → Prop
  | refl (w : Wanted) : Alike w w
  | nameAndType {name desc name' desc' : String}
      (h : name ++ " " ++ desc = name' ++ " " ++ desc') :
      Alike (.nameAndType name desc) (.nameAndType name' desc')
  | member {kind : MemberTag} {m m' : MemberRef} (h : m.joined = m'.joined) :
      Alike (.member kind m) (.member kind m')
  | invokeDynamic {name desc name' desc' : String} (h : name ++ desc = name' ++ desc') :
      Alike (.invokeDynamic name desc) (.invokeDynamic name' desc')

/-- **Constants with the same key are alike.** -/
theorem key_eq_iff {w w' : Wanted} : w.key = w'.key ↔ w.Alike w' := by
  constructor
  · intro h
    cases w with
    | integer value =>
        cases w' with
        | integer value' =>
            have heq := Binary.wrap_inj (PoolKey.integer.inj h) ⟨value.le_toInt, value.toInt_lt⟩
              ⟨value'.le_toInt, value'.toInt_lt⟩
            rw [Int32.toInt_inj.mp heq]
            exact .refl _
        | _ => exact nomatch h
    | long value =>
        cases w' with
        | long value' =>
            have heq := Binary.wrap_inj (PoolKey.long.inj h) ⟨value.le_toInt, value.toInt_lt⟩
              ⟨value'.le_toInt, value'.toInt_lt⟩
            rw [Int64.toInt_inj.mp heq]
            exact .refl _
        | _ => exact nomatch h
    | nameAndType name desc =>
        cases w' with
        | nameAndType name' desc' => exact .nameAndType (PoolKey.nameAndType.inj h)
        | _ => exact nomatch h
    | member kind m =>
        cases w' with
        | member kind' m' =>
            obtain ⟨htag, hjoined⟩ := PoolKey.member.inj h
            obtain rfl := MemberTag.tag_inj htag
            exact .member hjoined
        | _ => exact nomatch h
    | invokeDynamic name desc =>
        cases w' with
        | invokeDynamic name' desc' => exact .invokeDynamic (PoolKey.invokeDynamic.inj h)
        | _ => exact nomatch h
    | utf8 text | classRef name | string text =>
        cases w' <;> simp_all [key]
        exact .refl _
  · intro h
    cases h with
    | refl => rfl
    | nameAndType h => exact congrArg PoolKey.nameAndType h
    | member h => exact congrArg (PoolKey.member _) h
    | invokeDynamic h => exact congrArg PoolKey.invokeDynamic h

end Wanted

/-! ### What is written -/

/-- The pool has given the index to the key of the constant. -/
def PoolBuilder.Indexed (p : PoolBuilder) (w : Wanted) (n : Nat) : Prop :=
  p.index.lookup w.key = some n

namespace Wanted

variable {p p' : PoolBuilder} {w : Wanted} {c : Constant}

/-- The constant that is written for a request. It refers to the indexes that its parts have. -/
def Spells (p : PoolBuilder) : Wanted → Constant → Prop
  | utf8 text, c => c = .utf8 text.chars
  | integer value, c => c = .integer (Binary.wrap 32 value.toInt)
  | long value, c => c = .long (Binary.wrap 64 value.toInt)
  | classRef name, c => ∃ a, p.Indexed (ofText name) a ∧ c = .classRef a
  | string text, c => ∃ a, p.Indexed (utf8 text) a ∧ c = .string a
  | nameAndType name desc, c =>
    ∃ a b, p.Indexed (ofText name) a ∧ p.Indexed (ofText desc) b ∧ c = .nameAndType a b
  | member kind m, c =>
    ∃ a b, p.Indexed (classRef m.owner) a ∧ p.Indexed (nameAndType m.name m.desc) b ∧
      c = kind.constant a b
  | invokeDynamic name desc, c =>
    ∃ b, p.Indexed (nameAndType name desc) b ∧ c = .invokeDynamic 0 b

theorem Spells.mono (h : PoolBuilder.Extends p p') (hc : w.Spells p c) : w.Spells p' c := by
  cases w with
  | utf8 | integer | long => exact hc
  | classRef | string | invokeDynamic =>
      obtain ⟨a, ha, hc⟩ := hc
      exact ⟨a, h.index _ _ ha, hc⟩
  | nameAndType | member =>
      obtain ⟨a, b, ha, hb, hc⟩ := hc
      exact ⟨a, b, h.index _ _ ha, h.index _ _ hb, hc⟩

end Wanted

/-! ### The invariant -/

namespace PoolBuilder

variable {p : PoolBuilder} {asked : List Wanted} {w : Wanted} {c : Constant}

/-- A pool that was asked for a list of constants: every key has an index of its own, behind which
there is the constant that was asked for first with this key. -/
structure Interned (asked : List Wanted) (p : PoolBuilder) : Prop where
  next_eq : p.next = p.slots + 1
  indexed : ∀ w ∈ asked, ∃ n, p.Indexed w n
  first : ∀ key n, p.index.lookup key = some n →
    ∃ w c, asked.find? (·.key == key) = some w ∧ w.Spells p c ∧ p.table.Holds n c
  distinct : ∀ key key' n, p.index.lookup key = some n → p.index.lookup key' = some n → key = key'
  /-- Nothing else was written. -/
  spelled : ∀ c ∈ p.constants.toList, ∃ w ∈ asked, w.Spells p c

theorem interned_empty : Interned [] {} where
  next_eq := rfl
  indexed := fun _ hw => nomatch hw
  first := fun _ _ h => nomatch h
  distinct := fun _ _ _ h => nomatch h
  spelled := fun _ hc => nomatch hc

/-- The next index lies behind the table. -/
theorem Interned.lookup_ne_next (h : Interned asked p) (key : PoolKey) :
    p.index.lookup key ≠ some p.next := by
  intro hn
  obtain ⟨v, d, -, -, hd⟩ := h.first key _ hn
  obtain ⟨hlt, -⟩ := Array.getElem?_eq_some_iff.mp hd.2
  rw [size_table, h.next_eq] at hlt
  omega

/-- A key without an index was not asked for. -/
theorem Interned.find?_eq_none (h : Interned asked p) (hkey : p.index.lookup w.key = none) :
    asked.find? (·.key == w.key) = none := by
  refine List.find?_eq_none.mpr fun v hv hsame => ?_
  obtain ⟨n, hn⟩ := h.indexed v hv
  rw [Indexed, eq_of_beq hsame, hkey] at hn
  exact nomatch hn

theorem Interned.indexed_add (h : Interned asked p) (w : Wanted) (c : Constant) :
    ∀ v ∈ asked ++ [w], ∃ n, (PoolBuilder.add w.key c p).2.Indexed v n := by
  intro v hv
  obtain hv | hv := List.mem_append.mp hv
  · obtain ⟨n, hn⟩ := h.indexed v hv
    exact ⟨n, (extends_add w.key c p).index _ _ hn⟩
  · obtain rfl := List.mem_singleton.mp hv
    exact ⟨_, lookup_add v.key c p⟩

/-- **One constant more keeps the invariant.** Either its key has an index already, or it gets the
index behind all others. -/
theorem Interned.add (h : Interned asked p)
    (hslots : (PoolBuilder.add w.key c p).2.slots ≤ 65534) (hc : w.Spells p c) :
    Interned (asked ++ [w]) (PoolBuilder.add w.key c p).2 := by
  have hkept := extends_add w.key c p
  have hindexed := h.indexed_add w c
  have hfind {key : PoolKey} {v : Wanted} (hv : asked.find? (·.key == key) = some v) :
      (asked ++ [w]).find? (·.key == key) = some v := by
    rw [List.find?_append, hv, Option.some_or]
  cases hkey : p.index.lookup w.key with
  | some n =>
      rw [add_of_lookup hkey] at hindexed ⊢
      refine ⟨h.next_eq, hindexed, fun key m hm => ?_, h.distinct, fun d hd => ?_⟩
      · obtain ⟨v, d, hv, hrest⟩ := h.first key m hm
        exact ⟨v, d, hfind hv, hrest⟩
      · obtain ⟨v, hv, hspells⟩ := h.spelled d hd
        exact ⟨v, List.mem_append_left _ hv, hspells⟩
  | none =>
      refine ⟨next_add hkey h.next_eq hslots, hindexed, fun key m hm => ?_,
        fun key key' m hm hm' => ?_, fun d hd => ?_⟩
      · obtain ⟨rfl, rfl⟩ | hm := lookup_of_lookup_add hkey hm
        · refine ⟨w, c, ?_, hc.mono hkept, ?_⟩
          · rw [List.find?_append, h.find?_eq_none hkey, Option.none_or, List.find?_singleton,
              beq_self_eq_true, if_pos rfl]
          · rw [h.next_eq]
            exact holds_add hkey
        · obtain ⟨v, d, hv, hspells, hd⟩ := h.first key m hm
          exact ⟨v, d, hfind hv, hspells.mono hkept, hkept.within.holds hd⟩
      · obtain ⟨rfl, rfl⟩ | hm := lookup_of_lookup_add hkey hm
        · obtain ⟨rfl, -⟩ | hm' := lookup_of_lookup_add hkey hm'
          · rfl
          · exact absurd hm' (h.lookup_ne_next key')
        · obtain ⟨rfl, rfl⟩ | hm' := lookup_of_lookup_add hkey hm'
          · exact absurd hm (h.lookup_ne_next key)
          · exact h.distinct key key' m hm hm'
      · rw [constants_add hkey, List.mem_append, List.mem_singleton] at hd
        obtain hd | rfl := hd
        · obtain ⟨v, hv, hspells⟩ := h.spelled d hd
          exact ⟨v, List.mem_append_left _ hv, hspells.mono hkept⟩
        · exact ⟨w, List.mem_append_right _ List.mem_cons_self, hc.mono hkept⟩

/-! ### Requests -/

/-- The property of a pool is kept when the pool grows. -/
def Lasting (F : PoolBuilder → Prop) : Prop := ∀ p p', Extends p p' → F p → F p'

theorem lasting_true : Lasting fun _ => True := fun _ _ _ _ => trivial

theorem Lasting.indexed {F : PoolBuilder → Prop} (hF : Lasting F) (w : Wanted) (n : Nat) :
    Lasting fun p => p.Indexed w n ∧ F p :=
  fun p p' h hp => ⟨h.index _ _ hp.1, hF p p' h hp.2⟩

/-- Started with a pool that satisfies `F`, the request asks for the parts in their order, and its
answer is the index of `w`. -/
structure Interns (F : PoolBuilder → Prop) (r : Request) (parts : List Wanted) (w : Wanted) :
    Prop where
  kept : ∀ p, Extends p (r p).2
  interned : ∀ asked p, Interned asked p → F p → (r p).2.slots ≤ 65534 →
    Interned (asked ++ parts) (r p).2 ∧ (r p).2.Indexed w (r p).1 ∧ F (r p).2

variable {F : PoolBuilder → Prop} {r : Request} {parts parts' : List Wanted} {w' : Wanted}

theorem interns_add (hF : Lasting F) (w : Wanted) (c : Constant) (hc : ∀ p, F p → w.Spells p c) :
    Interns F (add w.key c) [w] w where
  kept := extends_add w.key c
  interned _ p hp hFp hslots :=
    ⟨hp.add hslots (hc p hFp), lookup_add w.key c p, hF p _ (extends_add w.key c p) hFp⟩

theorem Interns.bind {f : Nat → Request} (hr : Interns F r parts w)
    (hf : ∀ n, Interns (fun p => p.Indexed w n ∧ F p) (f n) parts' w') :
    Interns F (r >>= f) (parts ++ parts') w' where
  kept p := (hr.kept p).trans ((hf _).kept _)
  interned asked p hp hFp hslots := by
    have hroom : (r p).2.slots ≤ 65534 := ((hf (r p).1).kept (r p).2).slots_le.trans hslots
    obtain ⟨hinterned, hindexed⟩ := hr.interned asked p hp hFp hroom
    obtain ⟨hinterned', hanswer, -, hFp'⟩ := (hf _).interned _ _ hinterned hindexed hslots
    rw [List.append_assoc] at hinterned'
    exact ⟨hinterned', hanswer, hFp'⟩

theorem interns_literal (hF : Lasting F) (text : Text.Literal) :
    Interns F (literal text) [.utf8 text] (.utf8 text) :=
  interns_add hF (.utf8 text) _ fun _ _ => rfl

theorem interns_utf8 (hF : Lasting F) (s : String) :
    Interns F (utf8 s) [.ofText s] (.ofText s) :=
  interns_literal hF (.text s.toList)

theorem interns_classRef (hF : Lasting F) (name : String) :
    Interns F (classRef name) (Wanted.parts (.classRef name)) (.classRef name) :=
  (interns_utf8 hF name).bind fun a =>
    interns_add (hF.indexed _ a) (.classRef name) _ fun _ h => ⟨a, h.1, rfl⟩

theorem interns_string (hF : Lasting F) (text : Text.Literal) :
    Interns F (string text) (Wanted.parts (.string text)) (.string text) :=
  (interns_literal hF text).bind fun a =>
    interns_add (hF.indexed _ a) (.string text) _ fun _ h => ⟨a, h.1, rfl⟩

theorem interns_nameAndType (hF : Lasting F) (name desc : String) :
    Interns F (nameAndType name desc) (Wanted.parts (.nameAndType name desc))
      (.nameAndType name desc) :=
  (interns_utf8 hF name).bind fun a =>
    (interns_utf8 (hF.indexed _ a) desc).bind fun b =>
      interns_add ((hF.indexed _ a).indexed _ b) (.nameAndType name desc) _ fun _ h =>
        ⟨a, b, h.2.1, h.1, rfl⟩

theorem interns_member (hF : Lasting F) (kind : MemberTag) (m : MemberRef) :
    Interns F (member kind m) (Wanted.parts (.member kind m)) (.member kind m) :=
  (interns_classRef hF m.owner).bind fun a =>
    (interns_nameAndType (hF.indexed _ a) m.name m.desc).bind fun b =>
      interns_add ((hF.indexed _ a).indexed _ b) (.member kind m) _ fun _ h =>
        ⟨a, b, h.2.1, h.1, rfl⟩

theorem interns_invokeDynamic (hF : Lasting F) (name desc : String) :
    Interns F (invokeDynamic name desc) (Wanted.parts (.invokeDynamic name desc))
      (.invokeDynamic name desc) :=
  (interns_nameAndType hF name desc).bind fun b =>
    interns_add (hF.indexed _ b) (.invokeDynamic name desc) _ fun _ h => ⟨b, h.1, rfl⟩

/-- Every request asks for the parts of its constant. -/
theorem interns_request (w : Wanted) : Interns (fun _ => True) w.request w.parts w := by
  cases w with
  | utf8 text => exact interns_literal lasting_true text
  | integer value => exact interns_add lasting_true (.integer value) _ fun _ _ => rfl
  | long value => exact interns_add lasting_true (.long value) _ fun _ _ => rfl
  | classRef name => exact interns_classRef lasting_true name
  | string text => exact interns_string lasting_true text
  | nameAndType name desc => exact interns_nameAndType lasting_true name desc
  | member kind m => exact interns_member lasting_true kind m
  | invokeDynamic name desc => exact interns_invokeDynamic lasting_true name desc

/-! ### Sequences of requests -/

theorem mapM_request_cons (w : Wanted) (ws : List Wanted) (p : PoolBuilder) :
    (w :: ws).mapM Wanted.request p =
      ((w.request p).1 :: (ws.mapM Wanted.request (w.request p).2).1,
        (ws.mapM Wanted.request (w.request p).2).2) := by
  rw [List.mapM_cons]
  rfl

theorem extends_requests (ws : List Wanted) (p : PoolBuilder) :
    Extends p (ws.mapM Wanted.request p).2 := by
  induction ws generalizing p with
  | nil => exact .refl p
  | cons w ws ih =>
      rw [mapM_request_cons]
      exact ((interns_request w).kept p).trans (ih _)

/-- The pool and its answers after a sequence of requests. -/
structure Answered (ws : List Wanted) (ns : List Nat) (p : PoolBuilder) : Prop where
  interned : Interned (ws.flatMap Wanted.parts) p
  indexed : List.Forall₂ p.Indexed ws ns

theorem interned_requests {ws : List Wanted} (h : Interned asked p)
    (hslots : (ws.mapM Wanted.request p).2.slots ≤ 65534) :
    Interned (asked ++ ws.flatMap Wanted.parts) (ws.mapM Wanted.request p).2 ∧
      List.Forall₂ (ws.mapM Wanted.request p).2.Indexed ws (ws.mapM Wanted.request p).1 := by
  induction ws generalizing asked p with
  | nil =>
      rw [List.flatMap_nil, List.append_nil]
      exact ⟨h, .nil⟩
  | cons w ws ih =>
      have hkept := extends_requests ws (w.request p).2
      rw [mapM_request_cons] at hslots ⊢
      obtain ⟨hw, hindexed, -⟩ :=
        (interns_request w).interned asked p h trivial (hkept.slots_le.trans hslots)
      obtain ⟨hws, hrest⟩ := ih hw hslots
      rw [List.append_assoc] at hws
      exact ⟨hws, .cons (hkept.index _ _ hindexed) hrest⟩

/-- **A new pool answers every sequence of requests with the indexes of the constants**, as long as
there is room. -/
theorem answered_requests {ws : List Wanted}
    (hslots : (ws.mapM Wanted.request {}).2.slots ≤ 65534) :
    Answered ws (ws.mapM Wanted.request {}).1 (ws.mapM Wanted.request {}).2 := by
  obtain ⟨hinterned, hindexed⟩ := interned_requests interned_empty hslots
  exact ⟨hinterned, hindexed⟩

end PoolBuilder

end ClassAudit
