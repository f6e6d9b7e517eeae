import ClassAudit.Proofs.BodyLayout
import ClassAudit.Proofs.Emission
import ClassAudit.Proofs.StepMeaning

/-!
# Written steps are decoded

The bytes of a step are decoded to an action that means the same as the step. Short and wide
forms of local variables, of increments and of constants are read back alike; the operands of
switches are found behind their padding; what an index stands for is found in the finished
table; and a branch leads to the position of its label, up to a multiple of the range of its
offset.

## Main definitions

* `Step.Decodes` - bytes that are decoded to an action that means the same as a step.

## Main statements

* `Step.exists_bare`, `Step.accepts_slot`, `Step.accepts_member`, `Step.accepts_tableSwitch`,
  `Step.accepts_lookupSwitch` - the families of instructions.
* `Step.decodes_of_written` - the bytes of every step are decoded to what it means.
-/

namespace ClassAudit

open PoolBuilder

/-! ### Families of instructions -/

namespace Step

variable {v : Vocabulary} {t : ConstantPool} {labels : List (String × Nat)} {pc : Nat}
  {bytes : List UInt8}

/-- Pushes a constant after a look-up that nothing depends on. -/
theorem accepts_const {α : Type} (result : Except Malformed α) (op : Opcode) (pos : Nat) :
    (do discard (Decode.lookup result); return Action.const op).Accepts pos []
      (· = Action.const op) :=
  (((Read.yields_lookup result pos).map _).accepts fun _ _ => trivial).bind_pure fun _ _ => rfl

/-- A constant is pushed from the pool. -/
theorem accepts_push (t : ConstantPool) (pc index : Nat) :
    ∃ code operands, encodePush index = code :: operands ∧
      (Decode.one t pc code.toNat).Accepts (pc + 1) operands fun a : Action =>
        ∃ op, a = .const op := by
  rw [encodePush]
  split
  · refine ⟨Opcode.ldc.code, [Binary.byte index], rfl, ?_⟩
    have hread : (Read.u1 "ldc index").Accepts (pc + 1) [Binary.byte index] fun _ => True :=
      (Read.yields_u1 index _ _).accepts fun _ _ => trivial
    exact hread.bind fun n _ => (accepts_const _ _ _).imp fun a ha => ⟨_, ha⟩
  · refine ⟨Opcode.ldcW.code, Binary.u2 index, rfl, ?_⟩
    have hread : (Read.u2 "ldc index").Accepts (pc + 1) (Binary.u2 index) fun _ => True :=
      (Read.yields_u2 index _ _).accepts fun _ _ => trivial
    have h := hread.bind fun n _ => accepts_const (t.entry n Decode.loadable) Opcode.ldcW _
    rw [List.append_nil] at h
    exact h.imp fun a ha => ⟨_, ha⟩

theorem accepts_long (t : ConstantPool) (pc index : Nat) :
    (Decode.one t pc Opcode.ldc2W.code.toNat).Accepts (pc + 1) (Binary.u2 index)
      (· = Action.const .ldc2W) := by
  have hread : (Read.u2 "ldc index").Accepts (pc + 1) (Binary.u2 index) fun _ => True :=
    (Read.yields_u2 index _ _).accepts fun _ _ => trivial
  have h := hread.bind fun n _ => accepts_const (t.entry n Decode.loadable) Opcode.ldc2W _
  rwa [List.append_nil] at h

section Bare

variable {op : Opcode} {code : Nat}

theorem agrees_bare {a : Action} (hkind : a.kind = op.bareKind) (hopcode : a.opcode? = some op)
    (htype : a.valueType = op.bareType) (hslot : a.slot? = none) (hcall : a.call? = none)
    (howner : a.owner = "") (hname : a.name = "") (hdesc : a.desc = "") : (plain op).Agrees a :=
  ⟨hkind, .inr hopcode, hslot, htype, hcall, howner, hname, hdesc⟩

theorem agrees_const (hcode : op.code.toNat = code) (h : 0x01 ≤ code ∧ code ≤ 0x0f) :
    (plain op).Agrees (.const op) := by
  refine agrees_bare ?_ rfl ?_ rfl rfl rfl rfl rfl
  · rw [Opcode.bareKind, hcode, if_pos h]
    rfl
  · rw [Opcode.bareType, hcode, if_neg (by omega)]
    rfl

theorem agrees_stack (hcode : op.code.toNat = code) (h : 0x57 ≤ code ∧ code ≤ 0x5f) :
    (plain op).Agrees (.stack op) := by
  refine agrees_bare ?_ rfl ?_ rfl rfl rfl rfl rfl
  · rw [Opcode.bareKind, hcode, if_neg (by omega), if_pos h]
    rfl
  · rw [Opcode.bareType, hcode, if_neg (by omega)]
    rfl

theorem agrees_other (hcode : op.code.toNat = code) (hconst : ¬(0x01 ≤ code ∧ code ≤ 0x0f))
    (hstack : ¬(0x57 ≤ code ∧ code ≤ 0x5f)) (hreturn : ¬(0xac ≤ code ∧ code ≤ 0xb1))
    (hthrow : code ≠ 0xbf) : (plain op).Agrees (.plain op) := by
  refine agrees_bare ?_ rfl ?_ rfl rfl rfl rfl rfl
  · rw [Opcode.bareKind, hcode, if_neg hconst, if_neg hstack, if_neg hreturn, if_neg hthrow]
    rfl
  · rw [Opcode.bareType, hcode, if_neg (by omega)]
    rfl

/-- An instruction without operands is decoded from its opcode alone. -/
theorem exists_bare (t : ConstantPool) (pc : Nat) (h : op.Bare) :
    ∃ a, Decode.one t pc op.code.toNat = pure a ∧ (plain op).Agrees a ∧ a.targets = [] := by
  have hop : (⟨UInt8.ofNat op.code.toNat⟩ : Opcode) = op := by simp
  obtain ⟨code, hcode⟩ : ∃ code, op.code.toNat = code := ⟨_, rfl⟩
  simp only [Opcode.Bare, hcode] at h
  rw [hcode] at hop ⊢
  obtain h | h | h | h | h := h
  · by_cases hzero : code = 0
    · refine ⟨.plain op, ?_, agrees_other hcode (by omega) (by omega) (by omega) (by omega), rfl⟩
      simp (disch := omega) only [Decode.one, Decode.push, if_pos, hop]
    · refine ⟨.const op, ?_, agrees_const hcode (by omega), rfl⟩
      simp (disch := omega) only [Decode.one, Decode.push, if_pos, if_neg, hop]
  · refine ⟨.plain op, ?_, agrees_other hcode (by omega) (by omega) (by omega) (by omega), rfl⟩
    simp (disch := omega) only [Decode.one, Decode.access, if_pos, if_neg, hop]
  · by_cases hstore : code ≤ 0x56
    · refine ⟨.plain op, ?_, agrees_other hcode (by omega) (by omega) (by omega) (by omega), rfl⟩
      simp (disch := omega) only [Decode.one, Decode.access, if_pos, if_neg, hop]
    · by_cases hstack : code ≤ 0x5f
      · refine ⟨.stack op, ?_, agrees_stack hcode (by omega), rfl⟩
        simp (disch := omega) only [Decode.one, Decode.compute, if_pos, if_neg, hop]
      · refine ⟨.plain op, ?_, agrees_other hcode (by omega) (by omega) (by omega) (by omega), rfl⟩
        simp (disch := omega) only [Decode.one, Decode.compute, if_pos, if_neg, hop]
  · -- the six returns, by type
    obtain rfl | rfl | rfl | rfl | rfl | rfl : code = 0xac ∨ code = 0xad ∨ code = 0xae ∨
        code = 0xaf ∨ code = 0xb0 ∨ code = 0xb1 := by omega
    all_goals
      refine ⟨_, rfl, agrees_bare ?_ (congrArg some hop) ?_ rfl rfl rfl rfl rfl, rfl⟩
      · rw [Opcode.bareKind, hcode]
        rfl
      · rw [Opcode.bareType, hcode]
        rfl
  · simp only [List.mem_cons, List.not_mem_nil, or_false] at h
    by_cases hthrow : code = 0xbf
    · obtain rfl := hthrow
      refine ⟨.throw, rfl, agrees_bare ?_ (congrArg some hop) ?_ rfl rfl rfl rfl rfl, rfl⟩
      · rw [Opcode.bareKind, hcode]
        rfl
      · rw [Opcode.bareType, hcode]
        rfl
    · refine ⟨.plain op, ?_, agrees_other hcode (by omega) (by omega) (by omega) hthrow, rfl⟩
      simp (disch := omega) only [Decode.one, Decode.object, if_pos, if_neg, hop]

end Bare

/-! ### Local variables -/

theorem place_lt (type : ValueType) : type.place < 5 := by cases type <;> decide

theorem yields_typeAt {type : ValueType} (h : type ≠ .void) (pos : Nat) :
    (Decode.typeAt type.place).Yields pos [] (.ok type) := by
  rw [Decode.typeAt, if_pos (place_lt type)]
  cases type with
  | void => exact absurd rfl h
  | _ => exact Read.yields_pure _ pos

theorem toNat_byte {n : Nat} (h : n < 256) : (Binary.byte n).toNat = n := by
  have hvalue := Binary.value_byte n
  rw [Binary.wrap_of_lt h] at hvalue
  simpa [Binary.value] using hvalue

/-- An access to a local variable is decoded from its shortest form. -/
theorem accepts_slot {first : Nat} {make : ValueType → Int → Action} {type : ValueType}
    {op short : Opcode} {slot : Int} (htype : type ≠ .void) (hslot : 0 ≤ slot ∧ slot ≤ 65535)
    (hop : op.code.toNat = first + type.place)
    (hshort : short.code.toNat = first + 5 + 4 * type.place) (hfirst : first ≤ 0x36)
    (hone : ∀ code, first ≤ code → code < first + 25 →
      Decode.one t pc code = Decode.access first make code)
    (hwide : ∀ n : Nat, n < 65536 →
      (Decode.wide pc).Yields (pc + 1) (op.code :: Binary.u2 n) (.ok (make type n))) :
    ∃ code operands, encodeSlot op short slot = code :: operands ∧
      (Decode.one t pc code.toNat).Accepts (pc + 1) operands (· = make type slot) := by
  obtain ⟨n, rfl⟩ := Int.eq_ofNat_of_zero_le hslot.1
  have hplace := place_lt type
  have hmake (a : Action) (h : Except.ok (make type n) = Except.ok (ε := Malformed) a) :
      a = make type n := (Except.ok.inj h).symm
  rw [encodeSlot]
  by_cases hsmall : (n : Int) ≤ 3
  · rw [if_pos hsmall]
    refine ⟨_, [], rfl, ?_⟩
    have hcode : (Binary.byte (short.code.toNat + (n : Int))).toNat =
        first + 5 + 4 * type.place + n := by
      rw [hshort, ← Nat.cast_add, toNat_byte (by omega)]
    have hdiv : (first + 5 + 4 * type.place + n - (first + 5)) / 4 = type.place := by omega
    have hmod : (first + 5 + 4 * type.place + n - (first + 5)) % 4 = n := by omega
    rw [hcode, hone _ (by omega) (by omega), Decode.access, if_neg (by omega), if_pos (by omega),
      Decode.distance_eq (by omega) (by omega)]
    simp only [hdiv, hmod]
    refine Read.Yields.accepts ((yields_typeAt htype _).bind_last ?_) hmake
    exact Read.yields_pure _ _
  rw [if_neg hsmall]
  by_cases hbig : (n : Int) > 255
  · rw [isWideSlot, if_pos (decide_eq_true hbig)]
    exact ⟨Opcode.wide.code, _, rfl, (hwide n (by omega)).accepts hmake⟩
  · rw [isWideSlot, if_neg (by simpa using hbig)]
    refine ⟨op.code, _, rfl, ?_⟩
    have hread := Read.yields_u1 n "local index" (pc + 1)
    rw [Binary.wrap_of_lt (by omega)] at hread
    rw [hop, hone _ (by omega) (by omega), Decode.access, if_pos (by omega),
      Decode.distance_eq (by omega) (by omega), Nat.add_sub_cancel_left]
    refine Read.Yields.accepts ((yields_typeAt htype _).bind_ok (hread.bind_last ?_)) hmake
    exact Read.yields_pure _ _

/-- A load is decoded to the same variable of the same type. -/
theorem accepts_load {type : ValueType} {slot : Int} (htype : type ≠ .void)
    (hslot : 0 ≤ slot ∧ slot ≤ 65535) :
    ∃ code operands, encodeSlot type.loadOpcode (Opcode.iload0.plus (4 * type.place)) slot =
        code :: operands ∧
      (Decode.one t pc code.toNat).Accepts (pc + 1) operands (· = Action.load type slot) := by
  have hop : type.loadOpcode.code.toNat = 0x15 + type.place := by cases type <;> rfl
  refine accepts_slot htype hslot hop (by cases type <;> rfl) (by decide)
    (fun code h h' => ?_) fun n hn => ?_
  · rw [Decode.one, if_neg (by omega), if_pos (by omega)]
  · have hcode := Read.yields_value [type.loadOpcode.code] "wide opcode" (pc + 1)
    have hvalue : Binary.value [type.loadOpcode.code] = 0x15 + type.place := by
      simp [Binary.value, hop]
    have hplace := place_lt type
    rw [hvalue] at hcode
    refine hcode.bind_cons ((Read.yields_u2_of_lt hn _ _).bind_last ?_)
    rw [if_pos (by omega), Decode.distance_eq (by omega) (by omega), Nat.add_sub_cancel_left]
    exact (yields_typeAt htype _).bind_last (Read.yields_pure _ _)

/-- A store is decoded to the same variable of the same type. -/
theorem accepts_store {type : ValueType} {slot : Int} (htype : type ≠ .void)
    (hslot : 0 ≤ slot ∧ slot ≤ 65535) :
    ∃ code operands, encodeSlot type.storeOpcode (Opcode.istore0.plus (4 * type.place)) slot =
        code :: operands ∧
      (Decode.one t pc code.toNat).Accepts (pc + 1) operands (· = Action.store type slot) := by
  have hop : type.storeOpcode.code.toNat = 0x36 + type.place := by cases type <;> rfl
  refine accepts_slot htype hslot hop (by cases type <;> rfl) (by decide)
    (fun code h h' => ?_) fun n hn => ?_
  · rw [Decode.one, if_neg (by omega), if_neg (by omega), if_pos (by omega)]
  · have hcode := Read.yields_value [type.storeOpcode.code] "wide opcode" (pc + 1)
    have hvalue : Binary.value [type.storeOpcode.code] = 0x36 + type.place := by
      simp [Binary.value, hop]
    have hplace := place_lt type
    rw [hvalue] at hcode
    refine hcode.bind_cons ((Read.yields_u2_of_lt hn _ _).bind_last ?_)
    rw [if_neg (by omega), if_pos (by omega), Decode.distance_eq (by omega) (by omega),
      Nat.add_sub_cancel_left]
    exact (yields_typeAt htype _).bind_last (Read.yields_pure _ _)

/-- An increment is decoded from its short or its wide form. -/
theorem accepts_inc {slot delta : Int} (hslot : 0 ≤ slot ∧ slot ≤ 65535) :
    ∃ code operands, (if isWideInc slot delta
        then Opcode.wide.code :: Opcode.iinc.code :: (Binary.u2 slot ++ Binary.u2 delta)
        else [Opcode.iinc.code, Binary.byte slot, Binary.byte delta]) = code :: operands ∧
      (Decode.one t pc code.toNat).Accepts (pc + 1) operands (· = Action.inc slot) := by
  obtain ⟨n, rfl⟩ := Int.eq_ofNat_of_zero_le hslot.1
  have hmake (a : Action) (h : Except.ok (Action.inc n) = Except.ok (ε := Malformed) a) :
      a = .inc n := (Except.ok.inj h).symm
  split
  · refine ⟨Opcode.wide.code, _, rfl, ?_⟩
    have hcode : (Read.u1 "wide opcode").Yields (pc + 1) [Opcode.iinc.code] (.ok 0x84) :=
      Read.yields_value [Opcode.iinc.code] _ _
    refine Read.Yields.accepts (hcode.bind_cons ?_) hmake
    refine (Read.yields_u2_of_lt (by omega) _ _).bind_ok ?_
    exact (Read.yields_skip (Binary.length_u2 delta) _ _).bind_last (Read.yields_pure _ _)
  · rename_i hwide
    refine ⟨Opcode.iinc.code, _, rfl, ?_⟩
    have hn : n < 256 := by
      simp only [isWideInc, isWideSlot, Bool.or_eq_true, decide_eq_true_eq, not_or] at hwide
      omega
    have hread := Read.yields_u1 n "iinc index" (pc + 1)
    rw [Binary.wrap_of_lt hn] at hread
    refine Read.Yields.accepts (hread.bind_cons ?_) hmake
    exact (Read.yields_skip (n := 1) rfl _ _).bind_last (Read.yields_pure _ _)

/-! ### Members, classes and call sites -/

/-- Behind the index of a member is that member, when texts are clear. -/
theorem accepts_member {m : MemberRef} {tag : Tag} {tags : List Tag} {n pos : Nat}
    (hm : v.member m) (hsize : t.entries.size ≤ 65536) (htag : tag ∈ tags)
    (h : ∃ m', v.member m' ∧ m'.joined = m.joined ∧ t.HasMemberLike n tag m') :
    (Decode.member t tags).Accepts pos (Binary.u2 n) fun m' =>
      v.Clear → ' ' ∉ m.name.toList → ' ' ∉ m.desc.toList → m' = m := by
  obtain ⟨m', hm', hjoined, c, a, b, hc, rfl, href, howner, name, desc, hsame, hname⟩ := h
  refine Read.accepts_lookup (PoolBuilder.lt_of_holds hsize hc) _ (t.memberRef · tags)
    fun found hfound hclear hn hd => ?_
  obtain rfl := hclear.member m' m hm' hm hjoined
  obtain ⟨rfl, rfl⟩ := eq_of_joined_eq hn hd hsame
  have hmember : t.HasMember n c m' := ⟨a, b, hc, href, howner, hname⟩
  rw [ConstantPool.memberRef_of_hasMember hmember htag] at hfound
  exact (Except.ok.inj hfound).symm

theorem accepts_classOperand {name : String} {n pos : Nat} (hsize : t.entries.size ≤ 65536)
    (h : t.HasClass n name) :
    (Decode.classOperand t).Accepts pos (Binary.u2 n) (· = name) := by
  have hn : n < 65536 := by
    obtain ⟨a, hc, -⟩ := h
    exact PoolBuilder.lt_of_holds hsize hc
  refine Read.accepts_lookup hn _ t.className fun found hfound => ?_
  rw [ConstantPool.className_of_hasClass h] at hfound
  exact (Except.ok.inj hfound).symm

/-- Behind the index of a call site is that call site, when texts are clear. -/
theorem callSite_eq {name desc : String} {n : Nat} (hs : v.site name desc) (hclear : v.Clear)
    (hn : ' ' ∉ name.toList) (hd : ' ' ∉ desc.toList)
    (h : ∃ name' desc', v.site name' desc' ∧ name' ++ desc' = name ++ desc ∧
      t.HasSiteLike n name' desc') : Decode.callSite t n = .ok (name, desc) := by
  obtain ⟨name', desc', hs', hjoined, a, b, hc, name'', desc'', hsame, hname⟩ := h
  obtain ⟨rfl, rfl⟩ := hclear.site _ _ _ _ hs' hs hjoined
  obtain ⟨rfl, rfl⟩ := eq_of_joined_eq hn hd hsame
  have hentry : t.entry n [.invokeDynamic] = .ok (.invokeDynamic a b) :=
    ConstantPool.entry_eq_ok_iff.mpr ⟨hc, List.mem_singleton.mpr rfl⟩
  rw [Decode.callSite, hentry]
  exact ConstantPool.nameAndType_of_hasNameAndType hname

/-! ### Targets -/

/-- The distance to a label, as it was written. -/
def Away (labels : List (String × Nat)) (pc : Nat) (label : String) (offset : Int) : Prop :=
  ∃ target, labels.lookup label = some target ∧ offset = (target : Int) - pc

/-- A target is the position of its label, up to the range of its offset. -/
theorem aims_of_away {label : String} {offset : Int} (h : Away labels pc label offset) {bits : Nat}
    (hbits : 16 ≤ bits) :
    ∃ (target : Nat) (k : Int), labels.lookup label = some target ∧
      pc + Binary.signed bits (Binary.wrap bits offset) = target + k * 65536 := by
  obtain ⟨target, hlabel, rfl⟩ := h
  obtain ⟨k, hk⟩ := Binary.exists_signed_wrap_eq bits ((target : Int) - pc)
  have hpow : (2 : Int) ^ bits = 2 ^ (bits - 16) * 65536 := by
    rw [show (65536 : Int) = 2 ^ 16 by norm_num, ← pow_add, Nat.sub_add_cancel hbits]
  refine ⟨target, k * 2 ^ (bits - 16), hlabel, ?_⟩
  rw [hk, hpow]
  ring

theorem accepts_branch16 {label : String} {offset : Int} (h : Away labels pc label offset)
    (pos : Nat) :
    (Decode.branch16 pc).Accepts pos (Binary.u2 offset) fun target =>
      AimsAt labels [label] [target] :=
  ((Read.yields_u2 offset _ pos).accepts fun _ hn => hn).bind_pure fun n hn => by
    obtain rfl := Except.ok.inj hn
    exact .cons (aims_of_away h le_rfl) .nil

/-- A jump is decoded with the target that it was written with. -/
theorem accepts_jump {op : Opcode} {label : String} {offset : Int} (hs : (jump op label).Proper)
    (h : Away labels pc label offset) :
    (Decode.one t pc op.code.toNat).Accepts (pc + 1) (Binary.u2 offset) fun a =>
      (jump op label).Agrees a ∧ AimsAt labels [label] a.targets := by
  have hop : (⟨UInt8.ofNat op.code.toNat⟩ : Opcode) = op := by simp
  obtain ⟨code, hcode⟩ : ∃ code, op.code.toNat = code := ⟨_, rfl⟩
  have hrange : (0x99 ≤ code ∧ code ≤ 0xa7) ∨ code = 0xc6 ∨ code = 0xc7 := by
    obtain hs | rfl | rfl := hs
    · exact .inl (hcode ▸ hs)
    · exact .inr (.inl hcode.symm)
    · exact .inr (.inr hcode.symm)
  rw [hcode] at hop ⊢
  by_cases hgoto : code = 0xa7
  · obtain rfl := hgoto
    have hop' : op = .goto := hop.symm
    refine (accepts_branch16 h (pc + 1)).bind_pure fun target haims => ⟨?_, haims⟩
    exact ⟨by rw [Step.kind, if_pos hop']; rfl, .inr (congrArg some hop), rfl, rfl, rfl, rfl, rfl,
      rfl⟩
  · have hne : op ≠ .goto := by
      rintro rfl
      exact hgoto hcode.symm
    simp (disch := omega) only [Decode.one, Decode.transfer, if_pos, if_neg, hop]
    refine (accepts_branch16 h (pc + 1)).bind_pure fun target haims => ⟨?_, haims⟩
    exact ⟨by rw [Step.kind, if_neg hne]; rfl, .inr rfl, rfl, rfl, rfl, rfl, rfl, rfl⟩

/-! ### Switches -/

theorem accepts_switchPadding (pc : Nat) :
    Decode.switchPadding.Accepts (pc + 1) (List.replicate (switchPad pc) 0) fun _ => True :=
  (Read.yields_bind_position (Read.yields_skip List.length_replicate _ _)).accepts
    fun _ _ => trivial

theorem accepts_s4 (n : Int) (item : String) (pos : Nat) :
    (Read.s4 item).Accepts pos (Binary.u4 n) (· = Binary.signed 32 (Binary.wrap 32 n)) :=
  (Read.yields_s4 n item pos).accepts fun _ h => (Except.ok.inj h).symm

/-- What depends on the number of bytes left. -/
theorem accepts_remaining {α : Type} {f : Nat → Read α} {P : α → Prop} {pos : Nat}
    (h : ∀ left, bytes.length ≤ left → left < 65536 → (f left).Accepts pos bytes P) :
    (Read.remaining >>= f).Accepts pos bytes P := by
  intro tail a c' hlength hrun
  refine h (bytes ++ tail).length ?_ hlength tail a c' hlength hrun
  rw [List.length_append]
  exact Nat.le_add_right _ _

theorem accepts_fail {α : Type} (cause : Malformed.Cause) (offset : Option Nat)
    {P : α → Prop} {pos : Nat} : (Read.fail cause offset : Read α).Accepts pos bytes P :=
  fun _ _ _ _ h => (nomatch h)

/-- A number that is read from its four bytes and is small if what was written is small. -/
theorem eq_of_small {n : Nat} {read : Int} {k : Int} (hk : read = n + k * 2 ^ 32)
    (hn : n < 65536) (hlow : 0 ≤ read) (hhigh : read < 65536) : read = n := by
  have hpow : (2 : Int) ^ 32 = 4294967296 := by norm_num
  rw [hpow] at hk
  omega

theorem aimsAt_of_away {names : List String} {offsets : List Int}
    (h : List.Forall₂ (Away labels pc) names offsets) :
    AimsAt labels names (offsets.map fun o => pc + Binary.signed 32 (Binary.wrap 32 o)) :=
  List.forall₂_map_right_iff.mpr (h.imp fun _ _ ho => aims_of_away ho (by decide))

/-- The targets of a table switch are read in order, the default first. -/
theorem accepts_tableSwitch {low other : Int} {default : String} {targets : List String}
    {offsets : List Int} (hother : Away labels pc default other)
    (hoffsets : List.Forall₂ (Away labels pc) targets offsets) :
    (Decode.tableSwitch pc).Accepts (pc + 1) (List.replicate (switchPad pc) 0 ++
      Binary.u4 other ++ Binary.u4 low ++ Binary.u4 (low + targets.length - 1) ++
      offsets.flatMap Binary.u4) fun a =>
        ∃ ts, a = .tableSwitch ts ∧ AimsAt labels (default :: targets) ts := by
  simp only [List.append_assoc]
  refine (accepts_switchPadding pc).bind fun _ _ => (accepts_s4 other _ _).bind fun d hd => ?_
  refine (accepts_s4 low _ _).bind fun low' hlow => ?_
  refine (accepts_s4 (low + targets.length - 1) _ _).bind fun high' hhigh => ?_
  split
  · exact accepts_fail _ _
  rename_i hle
  refine accepts_remaining fun left hleft hsmall => ?_
  split
  · exact accepts_fail _ _
  rename_i hroom
  have hlength := length_flatMap_of_forall Binary.length_u4 offsets
  obtain ⟨k₁, hk₁⟩ := Binary.exists_signed_wrap_eq 32 low
  obtain ⟨k₂, hk₂⟩ := Binary.exists_signed_wrap_eq 32 (low + targets.length - 1)
  have hcount : high' - low' + 1 = (offsets.length : Nat) := by
    refine eq_of_small (k := k₂ - k₁) ?_ (by omega) (by omega) (by omega)
    rw [hhigh, hlow, hk₁, hk₂, hoffsets.length_eq]
    ring
  rw [hcount, Int.toNat_natCast]
  refine ((Read.yields_times_flatMap (fun o pos => Read.yields_s4 o _ pos) offsets _).accepts
    fun _ h => h).bind_pure fun read hread => ⟨_, rfl, ?_⟩
  obtain rfl := Except.ok.inj hread
  rw [hd, List.map_map]
  exact .cons (aims_of_away hother (by decide)) (aimsAt_of_away hoffsets)

/-- The targets of a lookup switch are read in order, the default first. -/
theorem accepts_lookupSwitch {other : Int} {default : String} {cases : List (Int × String)}
    {offsets : List (Int × Int)} (hother : Away labels pc default other)
    (hoffsets : List.Forall₂ (fun pair x => Away labels pc pair.2 x.2) cases offsets) :
    (Decode.lookupSwitch pc).Accepts (pc + 1) (List.replicate (switchPad pc) 0 ++
      Binary.u4 other ++ Binary.u4 cases.length ++
      offsets.flatMap fun x => Binary.u4 x.1 ++ Binary.u4 x.2) fun a =>
        ∃ ts, a = .lookupSwitch ts ∧ AimsAt labels (default :: cases.map (·.2)) ts := by
  simp only [List.append_assoc]
  refine (accepts_switchPadding pc).bind fun _ _ => (accepts_s4 other _ _).bind fun d hd => ?_
  refine (accepts_s4 cases.length _ _).bind fun pairs hpairs => ?_
  refine accepts_remaining fun left hleft hsmall => ?_
  split
  · exact accepts_fail _ _
  rename_i hroom
  have hlength := length_flatMap_of_forall
    (f := fun x : Int × Int => Binary.u4 x.1 ++ Binary.u4 x.2) (n := 8) (by simp) offsets
  obtain ⟨k, hk⟩ := Binary.exists_signed_wrap_eq 32 cases.length
  have hcount : pairs = (offsets.length : Nat) := by
    refine eq_of_small (k := k) ?_ (by omega) (by omega) (by omega)
    rw [hpairs, hk, hoffsets.length_eq]
  rw [hcount, Int.toNat_natCast]
  have hpair (x : Int × Int) (pos : Nat) : (do
      Read.skip 4 "lookupswitch match"
      Read.s4 "lookupswitch offset").Yields pos (Binary.u4 x.1 ++ Binary.u4 x.2)
        (.ok (Binary.signed 32 (Binary.wrap 32 x.2))) :=
    (Read.yields_skip (Binary.length_u4 x.1) _ pos).bind_ok (Read.yields_s4 x.2 _ _)
  refine ((Read.yields_times_flatMap hpair offsets _).accepts
    fun _ h => h).bind_pure fun read hread => ⟨_, rfl, ?_⟩
  obtain rfl := Except.ok.inj hread
  rw [hd, List.map_map]
  refine .cons (aims_of_away hother (by decide)) ?_
  rw [List.forall₂_map_left_iff, List.forall₂_map_right_iff]
  exact hoffsets.imp fun pair x hx => aims_of_away hx (by decide)

/-! ### Steps -/

/-- What a computation that writes a step says about its bytes, in terms of the finished table. -/
theorem Written.post {s : Step} (hw : s.Written v t labels pc bytes)
    {post : PoolBuilder → List UInt8 → Prop} (hwrites : Writes v (s.encode labels pc) post) :
    ∃ p, p.table.Within t ∧ post p bytes := by
  obtain ⟨p, p', hencode, hsound, hslots, hwithin⟩ := hw
  exact ⟨p', hwithin, (hwrites p bytes p' hencode).2 hsound hslots⟩

/-- An index that was asked for while the step was written. -/
theorem Written.answer {s : Step} (hw : s.Written v t labels pc bytes) {r : Request}
    {post : ConstantPool → Nat → Prop} {f : Nat → List UInt8}
    (hr : Supplies v (fun _ => True) r post)
    (hencode : s.encode labels pc = (Emit.request r >>= fun n => pure (f n))) :
    ∃ n t', t'.Within t ∧ post t' n ∧ bytes = f n := by
  have hwrites : Writes v (s.encode labels pc) fun p bytes => ∃ n, post p.table n ∧ bytes = f n :=
    hencode ▸ writes_answer hr f
  obtain ⟨p, hwithin, n, hn, rfl⟩ := hw.post hwrites
  exact ⟨n, p.table, hwithin, hn, rfl⟩

/-- Labels, source lines and frames take no bytes. -/
theorem Written.eq_nil {s : Step} (hw : s.Written v t labels pc bytes)
    (hs : s.isInstruction = false) : bytes = [] := by
  obtain ⟨p, p', hencode, -⟩ := hw
  cases s with
  | label | line | frame =>
      obtain ⟨rfl, -⟩ := Prod.mk.inj (Except.ok.inj hencode)
      rfl
  | _ => exact nomatch hs

theorem Written.eq_of_pure {s : Step} (hw : s.Written v t labels pc bytes) {w : List UInt8}
    (hencode : s.encode labels pc = pure w) : bytes = w := by
  obtain ⟨p, p', hrun, -⟩ := hw
  rw [hencode] at hrun
  exact (Prod.mk.inj (Except.ok.inj hrun)).1.symm

/-- The bytes are decoded to an action that means the same as the step, when texts are clear, and
leads to the same labels. -/
def Decodes (v : Vocabulary) (t : ConstantPool) (labels : List (String × Nat)) (pc : Nat)
    (s : Step) (bytes : List UInt8) : Prop :=
  ∃ code operands, bytes = code :: operands ∧
    (Decode.one t pc code.toNat).Accepts (pc + 1) operands fun a =>
      (v.Clear → s.Unspaced → s.Agrees a) ∧ AimsAt labels s.targets a.targets

/-- Bytes that are decoded to a known action. -/
theorem decodes_of_eq {s : Step} {b : Action} (h : ∃ code operands, bytes = code :: operands ∧
      (Decode.one t pc code.toNat).Accepts (pc + 1) operands (· = b))
    (hagrees : s.Agrees b) (htargets : AimsAt labels s.targets b.targets) :
    s.Decodes v t labels pc bytes := by
  obtain ⟨code, operands, hbytes, haccepts⟩ := h
  refine ⟨code, operands, hbytes, haccepts.imp ?_⟩
  rintro _ rfl
  exact ⟨fun _ _ => hagrees, htargets⟩

theorem decodes_plain {op : Opcode} (hw : (plain op).Written v t labels pc bytes)
    (hs : op.Bare) : (plain op).Decodes v t labels pc bytes := by
  obtain rfl := hw.eq_of_pure rfl
  obtain ⟨a, hone, hagrees, htargets⟩ := exists_bare t pc hs
  refine ⟨op.code, [], rfl, ?_⟩
  rw [hone]
  exact Read.accepts_pure ⟨fun _ _ => hagrees, htargets ▸ .nil⟩

theorem decodes_inc {slot delta : Int} (hw : (inc slot delta).Written v t labels pc bytes)
    (hslot : 0 ≤ slot ∧ slot ≤ 65535) : (inc slot delta).Decodes v t labels pc bytes := by
  have hencode : encode labels pc (inc slot delta) = pure (if isWideInc slot delta
      then Opcode.wide.code :: Opcode.iinc.code :: (Binary.u2 slot ++ Binary.u2 delta)
      else [Opcode.iinc.code, Binary.byte slot, Binary.byte delta]) := by
    rw [encode]
    split <;> rfl
  obtain rfl := hw.eq_of_pure hencode
  exact decodes_of_eq (accepts_inc hslot) ⟨rfl, .inr rfl, rfl, rfl, rfl, rfl, rfl, rfl⟩ .nil

/-- The step pushes a constant by an opcode that the writer chooses. -/
theorem decodes_of_const {s : Step} (h : ∃ code operands, bytes = code :: operands ∧
      (Decode.one t pc code.toNat).Accepts (pc + 1) operands fun a : Action => ∃ op, a = .const op)
    (hagrees : ∀ op, s.Agrees (.const op)) (htargets : s.targets = []) :
    s.Decodes v t labels pc bytes := by
  obtain ⟨code, operands, hbytes, haccepts⟩ := h
  refine ⟨code, operands, hbytes, haccepts.imp ?_⟩
  rintro _ ⟨op, rfl⟩
  exact ⟨fun _ _ => hagrees op, htargets ▸ .nil⟩

theorem decodes_int {value : Int} (hw : (int value).Written v t labels pc bytes) :
    (int value).Decodes v t labels pc bytes := by
  refine decodes_of_const ?_ (fun op => ⟨rfl, .inl rfl, rfl, rfl, rfl, rfl, rfl, rfl⟩) rfl
  obtain ⟨code, operands, hform, -, hencode⟩ | ⟨-, hencode⟩ := int_forms value
  · obtain rfl := hw.eq_of_pure (hencode labels pc)
    refine ⟨code, operands, rfl, ?_⟩
    obtain ⟨hlow, hhigh, rfl⟩ | ⟨rfl, hlength⟩ | ⟨rfl, hlength⟩ := hform
    · rw [Decode.one, if_pos (by omega), Decode.push, if_neg (by omega), if_pos (by omega)]
      exact Read.accepts_pure ⟨_, rfl⟩
    · exact (Read.accepts_skip hlength _).bind_pure fun _ _ => ⟨_, rfl⟩
    · exact (Read.accepts_skip hlength _).bind_pure fun _ _ => ⟨_, rfl⟩
  · obtain ⟨n, t', -, -, rfl⟩ := hw.answer (supplies_integer value) (hencode labels pc)
    exact accepts_push t pc n

theorem decodes_string {text : Text.Literal} (hw : (string text).Written v t labels pc bytes) :
    (string text).Decodes v t labels pc bytes := by
  obtain ⟨n, t', -, -, rfl⟩ := hw.answer (supplies_string text) rfl
  exact decodes_of_const (accepts_push t pc n)
    (fun op => ⟨rfl, .inl rfl, rfl, rfl, rfl, rfl, rfl, rfl⟩) rfl

theorem decodes_long {value : Int} (hw : (long value).Written v t labels pc bytes) :
    (long value).Decodes v t labels pc bytes := by
  obtain ⟨n, t', -, -, rfl⟩ := hw.answer (supplies_long value) rfl
  exact decodes_of_eq ⟨_, _, rfl, accepts_long t pc n⟩
    ⟨rfl, .inr rfl, rfl, rfl, rfl, rfl, rfl, rfl⟩ .nil

/-- A member that the step uses is found again in the finished table. -/
theorem Written.member {s : Step} (hw : s.Written v t labels pc bytes) {m : MemberRef}
    (hm : v.member m) {kind : MemberTag} {f : Nat → List UInt8} (tags : List Tag)
    (hencode : s.encode labels pc =
      (Emit.request (PoolBuilder.member kind m) >>= fun n => pure (f n)))
    (hsize : t.entries.size ≤ 65536) (htag : kind.tag ∈ tags) :
    ∃ n, bytes = f n ∧ ∀ pos, (Decode.member t tags).Accepts pos (Binary.u2 n) fun m' =>
      v.Clear → ' ' ∉ m.name.toList → ' ' ∉ m.desc.toList → m' = m := by
  obtain ⟨n, t', hwithin, ⟨m', hm', hjoined, hlike⟩, rfl⟩ :=
    hw.answer (supplies_member hm kind) hencode
  exact ⟨n, rfl, fun pos =>
    accepts_member hm hsize htag ⟨m', hm', hjoined, hwithin.hasMemberLike hlike⟩⟩

/-- Each use of a field is decoded by its place in the table of these uses. -/
theorem one_field (t : ConstantPool) (pc : Nat) (access : FieldAccess) :
    Decode.one t pc access.opcode.code.toNat = (do
      return .field access (← Decode.member t [.fieldRef])) := by
  have hone : Decode.one t pc access.opcode.code.toNat =
      Decode.fieldUse t access.opcode.code.toNat := by
    cases access <;> rfl
  have hget : Access.get Decode.fieldUses (Decode.distance 0xb2 access.opcode.code.toNat) =
      .ok access := by
    cases access <;> decide
  rw [hone, Decode.fieldUse, hget, Read.access_ok, pure_bind]

theorem decodes_field {access : FieldAccess} {m : MemberRef}
    (hw : (field access m).Written v t labels pc bytes) (hm : v.member m)
    (hsize : t.entries.size ≤ 65536) : (field access m).Decodes v t labels pc bytes := by
  obtain ⟨n, rfl, hread⟩ := hw.member hm [.fieldRef] rfl hsize (List.mem_singleton.mpr rfl)
  refine ⟨access.opcode.code, Binary.u2 n, rfl, ?_⟩
  rw [one_field]
  refine (hread _).bind_pure fun m' hm' => ⟨fun hclear hspaced => ?_, .nil⟩
  obtain rfl := hm' hclear hspaced.1 hspaced.2
  exact ⟨by cases access <;> rfl, .inr (by cases access <;> rfl), rfl, rfl, rfl, rfl, rfl, rfl⟩

theorem decodes_invoke {kind : InvokeKind} {m : MemberRef}
    (hw : (invoke kind m).Written v t labels pc bytes) (hm : v.member m)
    (hsize : t.entries.size ≤ 65536) (hkind : kind ≠ .interface) :
    (invoke kind m).Decodes v t labels pc bytes := by
  cases kind with
  | interface => exact absurd rfl hkind
  | virtual =>
      obtain ⟨n, rfl, hread⟩ := hw.member hm [.methodRef] rfl hsize (by simp [MemberTag.tag])
      refine ⟨_, Binary.u2 n, rfl, (hread _).bind_pure fun m' hm' => ?_⟩
      refine ⟨fun hclear hspaced => ?_, .nil⟩
      obtain rfl := hm' hclear hspaced.1 hspaced.2
      exact ⟨rfl, .inr rfl, rfl, rfl, rfl, rfl, rfl, rfl⟩
  | special | static =>
      obtain ⟨n, rfl, hread⟩ := hw.member hm [.methodRef, .interfaceMethodRef] rfl hsize
        (by simp [MemberTag.tag])
      refine ⟨_, Binary.u2 n, rfl, (hread _).bind_pure fun m' hm' => ?_⟩
      refine ⟨fun hclear hspaced => ?_, .nil⟩
      obtain rfl := hm' hclear hspaced.1 hspaced.2
      exact ⟨rfl, .inr rfl, rfl, rfl, rfl, rfl, rfl, rfl⟩

theorem decodes_interface {m : MemberRef} (hw : (invoke .interface m).Written v t labels pc bytes)
    (hm : v.member m) (hsize : t.entries.size ≤ 65536) :
    (invoke .interface m).Decodes v t labels pc bytes := by
  cases hargs : argSlots m.desc with
  | none =>
      obtain ⟨p, p', hencode, -⟩ := hw
      obtain ⟨n, p₁, -, hrest⟩ := run_bind_eq_ok.mp hencode
      simp only [hargs] at hrest
      exact nomatch hrest
  | some args =>
      have hencode : encode labels pc (invoke .interface m) =
          (Emit.request (PoolBuilder.member .interfaceMethod m) >>= fun n =>
            pure (Opcode.invokeinterface.code ::
              (Binary.u2 n ++ [Binary.byte (args + 1), 0]))) := by
        simp only [encode, hargs]
      obtain ⟨n, rfl, hread⟩ := hw.member hm [.interfaceMethodRef] hencode hsize
        (List.mem_singleton.mpr rfl)
      refine ⟨_, _, rfl, (hread _).bind fun m' hm' => ?_⟩
      refine (Read.accepts_skip rfl _).bind_pure fun _ _ => ⟨fun hclear hspaced => ?_, .nil⟩
      obtain rfl := hm' hclear hspaced.1 hspaced.2
      exact ⟨rfl, .inr rfl, rfl, rfl, rfl, rfl, rfl, rfl⟩

theorem decodes_invokeDynamic {name desc : String}
    (hw : (invokeDynamic name desc).Written v t labels pc bytes) (hsite : v.site name desc)
    (hsize : t.entries.size ≤ 65536) : (invokeDynamic name desc).Decodes v t labels pc bytes := by
  obtain ⟨n, t', hwithin, ⟨name', desc', hsite', hjoined, hlike⟩, rfl⟩ :=
    hw.answer (supplies_invokeDynamic hsite) rfl
  have hlike' := hwithin.hasSiteLike hlike
  have hn : n < 65536 := by
    obtain ⟨a, b, hc, -⟩ := hlike'
    exact lt_of_holds hsize hc
  refine ⟨_, _, rfl, ?_⟩
  refine ((Read.yields_u2_of_lt hn _ _).accepts fun _ h => h).bind fun index hindex => ?_
  obtain rfl := Except.ok.inj hindex
  refine Read.Accepts.bind ((Read.yields_lookup (Decode.callSite t n) _).accepts fun _ h => h)
    fun x hx => ?_
  refine (Read.accepts_skip rfl _).bind_pure fun _ _ => ⟨fun hclear hspaced => ?_, .nil⟩
  rw [callSite_eq hsite hclear hspaced.1 hspaced.2 ⟨name', desc', hsite', hjoined, hlike'⟩] at hx
  obtain rfl := Except.ok.inj hx
  exact ⟨rfl, .inr rfl, rfl, rfl, rfl, rfl, rfl, rfl⟩

theorem decodes_type {op : Opcode} {owner : String}
    (hw : (type op owner).Written v t labels pc bytes)
    (hs : op ∈ [.new, .anewarray, .checkcast, .instanceof]) (hsize : t.entries.size ≤ 65536) :
    (type op owner).Decodes v t labels pc bytes := by
  obtain ⟨n, t', hwithin, ⟨hclass, -⟩, rfl⟩ := hw.answer (supplies_classRef stable_true owner) rfl
  have hread (pos : Nat) : (Decode.classOperand t).Accepts pos (Binary.u2 n) (· = owner) :=
    accepts_classOperand hsize (hwithin.hasClass hclass)
  refine ⟨_, _, rfl, ?_⟩
  simp only [List.mem_cons, List.not_mem_nil, or_false] at hs
  obtain rfl | rfl | rfl | rfl := hs
  all_goals
    refine (hread _).bind_pure ?_
    rintro _ rfl
    exact ⟨fun _ _ => ⟨rfl, .inr rfl, rfl, rfl, rfl, rfl, rfl, rfl⟩, .nil⟩

theorem decodes_multiNewArray {desc : String} {dims : Int}
    (hw : (multiNewArray desc dims).Written v t labels pc bytes) (hsize : t.entries.size ≤ 65536) :
    (multiNewArray desc dims).Decodes v t labels pc bytes := by
  obtain ⟨n, t', hwithin, ⟨hclass, -⟩, rfl⟩ := hw.answer (supplies_classRef stable_true desc) rfl
  refine ⟨_, _, rfl, (accepts_classOperand hsize (hwithin.hasClass hclass)).bind ?_⟩
  rintro _ rfl
  refine (Read.accepts_skip rfl _).bind_pure fun _ _ => ⟨fun _ _ => ?_, .nil⟩
  exact ⟨rfl, .inr rfl, rfl, rfl, rfl, rfl, rfl, rfl⟩

theorem decodes_jump {op : Opcode} {target : String}
    (hw : (jump op target).Written v t labels pc bytes) (hs : (jump op target).Proper) :
    (jump op target).Decodes v t labels pc bytes := by
  have hwrites : Writes v (encode labels pc (jump op target)) fun _ bytes =>
      ∃ offset, Away labels pc target offset ∧ bytes = op.code :: Binary.u2 offset :=
    (writes_distance v labels pc target).bind (fun _ => kept_const _) fun offset =>
      writes_pure fun _ haway => ⟨offset, haway, rfl⟩
  obtain ⟨p, -, offset, haway, rfl⟩ := hw.post hwrites
  exact ⟨_, _, rfl, (accepts_jump hs haway).imp fun a ha => ⟨fun _ _ => ha.1, ha.2⟩⟩

theorem decodes_tableSwitch {low : Int} {default : String} {targets : List String}
    (hw : (tableSwitch low default targets).Written v t labels pc bytes) :
    (tableSwitch low default targets).Decodes v t labels pc bytes := by
  have hwrites : Writes v (encode labels pc (tableSwitch low default targets)) fun _ bytes =>
      ∃ other offsets, Away labels pc default other ∧
        List.Forall₂ (Away labels pc) targets offsets ∧
        bytes = Opcode.tableswitch.code :: (List.replicate (switchPad pc) 0 ++ Binary.u4 other ++
          Binary.u4 low ++ Binary.u4 (low + targets.length - 1) ++ offsets.flatMap Binary.u4) := by
    refine (writes_distance v labels pc default).bind (fun _ => kept_const _) fun other => ?_
    refine (Writes.mapM (fun label _ => writes_distance v labels pc label)
      fun _ _ => kept_const _).bind (fun _ => kept_const _) fun offsets => ?_
    exact writes_pure fun _ hoffsets hother => ⟨other, offsets, hother, hoffsets, rfl⟩
  obtain ⟨p, -, other, offsets, hother, hoffsets, rfl⟩ := hw.post hwrites
  refine ⟨_, _, rfl, (accepts_tableSwitch hother hoffsets).imp ?_⟩
  rintro _ ⟨ts, rfl, haims⟩
  exact ⟨fun _ _ => ⟨rfl, .inr rfl, rfl, rfl, rfl, rfl, rfl, rfl⟩, haims⟩

theorem decodes_lookupSwitch {default : String} {cases : List (Int × String)}
    (hw : (lookupSwitch default cases).Written v t labels pc bytes) :
    (lookupSwitch default cases).Decodes v t labels pc bytes := by
  have hwrites : Writes v (encode labels pc (lookupSwitch default cases)) fun _ bytes =>
      ∃ other offsets, Away labels pc default other ∧
        List.Forall₂ (fun (pair : Int × String) (x : Int × Int) => Away labels pc pair.2 x.2)
          cases offsets ∧
        bytes = Opcode.lookupswitch.code :: (List.replicate (switchPad pc) 0 ++ Binary.u4 other ++
          Binary.u4 cases.length ++ offsets.flatMap fun x => Binary.u4 x.1 ++ Binary.u4 x.2) := by
    refine (writes_distance v labels pc default).bind (fun _ => kept_const _) fun other => ?_
    have hpair (pair : Int × String) : Writes v (do
        return (pair.1, ← distance labels pc pair.2) : Emit (Int × Int)) fun _ x =>
          Away labels pc pair.2 x.2 :=
      (writes_distance v labels pc pair.2).bind (fun _ => kept_const _) fun offset =>
        writes_pure fun _ haway => haway
    refine (Writes.mapM (fun pair _ => hpair pair) fun _ _ => kept_const _).bind
      (fun _ => kept_const _) fun offsets => ?_
    exact writes_pure fun _ hoffsets hother => ⟨other, offsets, hother, hoffsets, rfl⟩
  obtain ⟨p, -, other, offsets, hother, hoffsets, rfl⟩ := hw.post hwrites
  refine ⟨_, _, rfl, (accepts_lookupSwitch hother hoffsets).imp ?_⟩
  rintro _ ⟨ts, rfl, haims⟩
  exact ⟨fun _ _ => ⟨rfl, .inr rfl, rfl, rfl, rfl, rfl, rfl, rfl⟩, haims⟩

/-- **The bytes of a step are decoded to an action that means the same.** -/
theorem decodes_of_written {s : Step} (hw : s.Written v t labels pc bytes) (hknown : s.Known v)
    (hs : s.Proper) (hi : s.isInstruction = true) (hsize : t.entries.size ≤ 65536) :
    s.Decodes v t labels pc bytes := by
  cases s with
  | label | line | frame => exact nomatch hi
  | plain op => exact decodes_plain hw hs
  | load type slot =>
      obtain rfl := hw.eq_of_pure rfl
      exact decodes_of_eq (accepts_load hs.1 hs.2)
        ⟨rfl, .inr rfl, rfl, rfl, rfl, rfl, rfl, rfl⟩ .nil
  | store type slot =>
      obtain rfl := hw.eq_of_pure rfl
      exact decodes_of_eq (accepts_store hs.1 hs.2)
        ⟨rfl, .inr rfl, rfl, rfl, rfl, rfl, rfl, rfl⟩ .nil
  | inc slot delta => exact decodes_inc hw hs
  | int value => exact decodes_int hw
  | string text => exact decodes_string hw
  | long value => exact decodes_long hw
  | field access m => exact decodes_field hw hknown hsize
  | invoke kind m =>
      by_cases hkind : kind = .interface
      · subst hkind
        exact decodes_interface hw hknown hsize
      · exact decodes_invoke hw hknown hsize hkind
  | invokeDynamic name desc => exact decodes_invokeDynamic hw hknown hsize
  | type op owner => exact decodes_type hw hs hsize
  | newArray element =>
      obtain rfl := hw.eq_of_pure rfl
      refine decodes_of_eq (b := .plain .newarray) ⟨_, _, rfl, ?_⟩
        ⟨rfl, .inr rfl, rfl, rfl, rfl, rfl, rfl, rfl⟩ .nil
      exact (Read.accepts_skip rfl _).bind_pure fun _ _ => rfl
  | multiNewArray desc dims => exact decodes_multiNewArray hw hsize
  | jump op target => exact decodes_jump hw hs
  | tableSwitch low default targets => exact decodes_tableSwitch hw
  | lookupSwitch default cases => exact decodes_lookupSwitch hw

end Step

end ClassAudit
