import ClassAudit.Proofs.PoolLookup
import ClassAudit.Proofs.ReaderAccesses

/-!
# Reading never leaves a table

A reader of class files goes to tables by index: to the bytes of a word, of a text and of a
descriptor, to the places of the constant pool, to the constants behind a class, a name or a
member, to the content of an attribute, and to the lists of value types and of uses of a field. An
access past the end of its table would be the fault `Malformed.Cause.outside`. No byte string leads
to it. Words and attributes are accessed after their length was compared, texts and descriptors up
to an end that the loops watch, and the pool has a place for every constant that its count
announces; references inside the pool are checked when it is read, and opcodes are told apart
before a place in a list is computed from them.

## Main definitions

* `Malformed.Contained` - a fault of the bytes, and no access outside a table.
* `Contained`, `Read.Contained` - a computation whose faults are all contained.

## Main statements

* `Decode.contained_one`, `Code.contained_readContent`, `ClassModel.contained_read` - every part
  of the reader is contained when the pool is checked, or checks it itself.
* `ClassModel.parse_contained` - reading a class file ends with a class or with a fault of the
  bytes.
-/

namespace ClassAudit

/-- A fault of the bytes: no table was asked for an entry that it does not have. -/
def Malformed.Contained (m : Malformed) : Prop := ∀ index size, m.cause ≠ .outside index size

/-- If the computation fails, it is for a fault of the bytes. -/
def Contained {α : Type} (result : Except Malformed α) : Prop :=
  ∀ m, result = .error m → m.Contained

/-- Wherever the reader is started, it fails for faults of the bytes only. -/
def Read.Contained {α : Type} (r : Read α) : Prop := ∀ c, ClassAudit.Contained (r c)

variable {α β : Type}

/-! ### Computations -/

theorem contained_ok (a : α) : Contained (.ok a : Except Malformed α) :=
  fun _ h => nomatch h

theorem contained_error {m : Malformed} (h : m.Contained) :
    Contained (.error m : Except Malformed α) := by
  rintro _ ⟨⟩
  exact h

theorem Contained.bind {x : Except Malformed α} {f : α → Except Malformed β} (hx : Contained x)
    (hf : ∀ a, x = .ok a → Contained (f a)) : Contained (x >>= f) := by
  cases x with
  | error m => exact contained_error (hx m rfl)
  | ok a => exact hf a rfl

theorem Contained.map {x : Except Malformed α} (hx : Contained x) (f : α → β) :
    Contained (x.map f) := by
  cases x with
  | error m => exact contained_error (hx m rfl)
  | ok a => exact contained_ok (f a)

namespace Read

theorem contained_pure (a : α) : (pure a : Read α).Contained := fun c => contained_ok (a, c)

theorem contained_position : Read.position.Contained := fun c => contained_ok (c.pos, c)

theorem contained_remaining : Read.remaining.Contained :=
  fun c => contained_ok (c.rest.length, c)

theorem contained_atEnd : Read.atEnd.Contained := fun c => contained_ok (c.rest.isEmpty, c)

/-- A sequence is contained if its first part is, and its second part on every value that the
first part can give. -/
theorem Contained.bind_of_run {r : Read α} {f : α → Read β} (hr : r.Contained)
    (hf : ∀ c a c', r c = .ok (a, c') → (f a).Contained) : (r >>= f).Contained :=
  fun c => (hr c).bind fun x hx => hf c x.1 x.2 hx x.2

theorem Contained.bind {r : Read α} {f : α → Read β} (hr : r.Contained)
    (hf : ∀ a, (f a).Contained) : (r >>= f).Contained :=
  hr.bind_of_run fun _ a _ _ => hf a

theorem Contained.map {r : Read α} (hr : r.Contained) (f : α → β) : (f <$> r).Contained :=
  hr.bind fun a => contained_pure (f a)

/-- Reads a value and makes something of it. -/
theorem Contained.bind_pure {r : Read α} (hr : r.Contained) (f : α → β) :
    (r >>= fun a => pure (f a)).Contained :=
  hr.bind fun a => contained_pure (f a)

theorem Contained.ite {p : Prop} [Decidable p] {r s : Read α} (hr : p → r.Contained)
    (hs : ¬p → s.Contained) : (if p then r else s).Contained := by
  split
  · exact hr ‹p›
  · exact hs ‹¬p›

theorem contained_fail {cause : Malformed.Cause} {offset : Option Nat}
    (h : ∀ index size, cause ≠ .outside index size) :
    (Read.fail cause offset : Read α).Contained :=
  fun _ => contained_error h

theorem contained_bytes (n : Nat) (item : String) : (Read.bytes n item).Contained := by
  intro c
  rcases Nat.lt_or_ge c.rest.length n with hlt | hle
  · rw [bytes_of_lt hlt]
    exact contained_error fun _ _ => Malformed.Cause.noConfusion
  · rw [bytes_of_le hle]
    exact contained_ok _

theorem contained_word (width : Nat) (item : String) : (Read.word width item).Contained := by
  rw [word_eq]
  exact (contained_bytes width item).map _

theorem contained_u1 (item : String) : (Read.u1 item).Contained := contained_word 1 item

theorem contained_u2 (item : String) : (Read.u2 item).Contained := contained_word 2 item

theorem contained_u4 (item : String) : (Read.u4 item).Contained := contained_word 4 item

theorem contained_s4 (item : String) : (Read.s4 item).Contained := (contained_u4 item).map _

theorem contained_skip (n : Nat) (item : String) : (Read.skip n item).Contained :=
  (contained_bytes n item).map _

theorem Contained.discard {r : Read α} (hr : r.Contained) : (discard r : Read PUnit).Contained :=
  hr.map _

theorem Contained.times {r : Read α} (hr : r.Contained) (n : Nat) : (Read.times n r).Contained := by
  induction n with
  | zero => exact contained_pure []
  | succ n ih => exact hr.bind fun a => ih.bind_pure (a :: ·)

theorem Contained.within {r : Read α} (hr : r.Contained) (place : Malformed.Place) :
    (Read.within place r).Contained := by
  intro c m hm
  rw [Read.within] at hm
  cases hrun : r c with
  | ok x =>
      rw [hrun] at hm
      cases hm
  | error m' =>
      rw [hrun] at hm
      obtain rfl : m'.inside place = m := Except.error.inj hm
      exact hr c m' hrun

theorem Contained.runOn {r : Read α} (hr : r.Contained) (data : List UInt8) :
    ClassAudit.Contained (Read.runOn data r) :=
  (hr _).map _

theorem contained_lookup {result : Except Malformed α} (h : ClassAudit.Contained result) :
    (Decode.lookup result).Contained :=
  fun _ => h.map _

end Read

/-! ### Constant pools -/

namespace ConstantPool

/-- A look-up checks its index before it goes to the table. -/
theorem contained_entry (p : ConstantPool) (index : Nat) (tags : List Tag) :
    Contained (p.entry index tags) := by
  rw [entry_eq]
  cases hfault : p.fault? index tags with
  | some fault => exact contained_error fun _ _ => Malformed.Cause.noConfusion
  | none =>
      obtain ⟨c, hc, -⟩ := fault?_eq_none_iff.mp hfault
      simp only [hc.2]
      exact contained_ok c

theorem contained_text (p : ConstantPool) (index : Nat) : Contained (p.text index) := by
  refine (p.contained_entry index _).bind fun c hc => ?_
  obtain ⟨hholds, htag⟩ := entry_eq_ok_iff.mp hc
  rw [textAt, hholds.2]
  cases c with
  | utf8 chars => exact contained_ok _
  | _ => exact absurd (List.mem_singleton.mp htag) (by simp [Constant.tag])

variable {p : ConstantPool}

/-- The text of a class name is looked up without a check; a checked table keeps the look-up
inside. -/
theorem Checked.contained_className (h : p.Checked) (index : Nat) :
    Contained (p.className index) := by
  refine (p.contained_entry index _).bind fun c hc => ?_
  obtain ⟨hholds, htag⟩ := entry_eq_ok_iff.mp hc
  cases c with
  | classRef a =>
      obtain ⟨text, htext⟩ := h.exists_text hholds (List.mem_singleton.mpr rfl)
      show Contained (p.textAt a)
      rw [textAt_of_holds htext]
      exact contained_ok text
  | _ => exact absurd (List.mem_singleton.mp htag) (by simp [Constant.tag])

-- The table has to be a checked one.
example : (⟨#[none, some (.classRef 9)]⟩ : ConstantPool).className 1 =
    .error { cause := .outside 9 2, offset := none } := rfl

theorem Checked.contained_nameAndType (h : p.Checked) (index : Nat) :
    Contained (p.nameAndType index) := by
  refine (p.contained_entry index _).bind fun c hc => ?_
  obtain ⟨hholds, htag⟩ := entry_eq_ok_iff.mp hc
  cases c with
  | nameAndType a b =>
      obtain ⟨text₁, h₁⟩ := h.exists_text hholds (a := a) (by simp [requirements])
      obtain ⟨text₂, h₂⟩ := h.exists_text hholds (a := b) (by simp [requirements])
      show Contained (p.textAt a >>= fun x => p.textAt b >>= fun y => pure (x, y))
      rw [textAt_of_holds h₁, textAt_of_holds h₂]
      exact contained_ok (text₁, text₂)
  | _ => exact absurd (List.mem_singleton.mp htag) (by simp [Constant.tag])

theorem Checked.contained_memberRef (h : p.Checked) (index : Nat) (tags : List Tag) :
    Contained (p.memberRef index tags) := by
  cases hentry : p.entry index tags with
  | error m =>
      rw [memberRef, hentry]
      exact contained_error (p.contained_entry index tags m hentry)
  | ok c =>
      obtain ⟨hholds, htag⟩ := entry_eq_ok_iff.mp hentry
      by_cases hmember : c.tag ∈ memberTags
      · obtain ⟨m, hm⟩ := h.hasMember hholds hmember
        rw [memberRef_of_hasMember hm htag]
        exact contained_ok m
      · rw [memberRef, hentry]
        cases c with
        | fieldRef | methodRef | interfaceMethodRef =>
            exact absurd hmember (by simp [Constant.tag, memberTags])
        | _ => exact contained_ok _

end ConstantPool

/-- Reading a constant does not look into the table. -/
theorem Constant.contained_read (index : Nat) : (Constant.read index).Contained := by
  have hone (make : Nat → Constant) : (Constant.readOne make).Contained :=
    (Read.contained_u2 _).map make
  have htwo (make : Nat → Nat → Constant) : (Constant.readTwo make).Contained :=
    (Read.contained_u2 _).bind fun a => (Read.contained_u2 _).bind_pure (make a)
  refine Read.contained_position.bind fun start => (Read.contained_u1 _).bind fun tag => ?_
  split
  case h_1 =>
    rw [readText_eq]
    refine (Read.contained_u2 _).bind fun n => (Read.contained_bytes n _).bind fun raw => ?_
    split
    · exact Read.contained_pure _
    · exact Read.contained_fail fun _ _ => Malformed.Cause.noConfusion
  case h_17 =>
    refine (Read.contained_u1 _).bind fun kind => Read.Contained.ite (fun _ => ?_) fun _ => ?_
    · exact (Read.contained_u2 _).bind_pure (methodHandle kind)
    · exact Read.contained_fail fun _ _ => Malformed.Cause.noConfusion
  case h_18 => exact Read.contained_fail fun _ _ => Malformed.Cause.noConfusion
  case h_2 | h_3 | h_4 | h_5 => exact (Read.contained_bytes _ _).map _
  case h_6 | h_7 | h_8 | h_9 | h_10 => exact hone _
  all_goals exact htwo _

namespace ConstantPool

theorem contained_readEntries (places index : Nat) : (readEntries places index).Contained := by
  fun_induction readEntries places index with
  | case1 => exact Read.contained_pure []
  | case2 index => exact (Constant.contained_read index).bind_pure fun c => [some c]
  | case3 places index ihWide ihNarrow =>
      refine (Constant.contained_read index).bind fun c => ?_
      refine Read.Contained.ite (fun _ => ?_) fun _ => ?_
      · exact ihWide.bind_pure fun rest => some c :: none :: rest
      · exact ihNarrow.bind_pure fun rest => some c :: rest

theorem contained_read : ConstantPool.read.Contained := by
  rw [read_eq]
  refine Read.contained_position.bind fun start => (Read.contained_u2 _).bind fun count => ?_
  refine Read.Contained.ite (fun _ => Read.contained_fail fun _ _ => Malformed.Cause.noConfusion)
    fun _ => (contained_readEntries _ _).bind fun entries => ?_
  dsimp only
  split
  · exact Read.contained_fail fun _ _ => Malformed.Cause.noConfusion
  · exact Read.contained_pure _

/-- Every pool that is read is checked. -/
theorem checked_of_read {c c' : Cursor} {pool : ConstantPool}
    (h : ConstantPool.read c = .ok (pool, c')) : pool.Checked := by
  rw [read_eq] at h
  obtain ⟨start, c₁, -, h⟩ := run_bind_eq_ok.mp h
  obtain ⟨count, c₂, -, h⟩ := run_bind_eq_ok.mp h
  split at h
  · exact nomatch h
  obtain ⟨entries, c₃, -, h⟩ := run_bind_eq_ok.mp h
  cases hfault : (⟨(none :: entries).toArray⟩ : ConstantPool).firstFault? with
  | some fault =>
      rw [hfault] at h
      exact nomatch h
  | none =>
      rw [hfault] at h
      obtain ⟨rfl, -⟩ := Prod.mk.inj (Except.ok.inj h)
      exact firstFault?_eq_none_iff.mp hfault

end ConstantPool

/-! ### Code arrays -/

namespace Decode

theorem contained_typeAt {place : Nat} (h : place < 5) : (typeAt place).Contained := by
  rw [typeAt, if_pos h]
  exact Read.contained_pure _

theorem contained_branch16 (pc : Nat) : (branch16 pc).Contained :=
  (Read.contained_u2 _).bind_pure _

theorem contained_branch32 (pc : Nat) : (branch32 pc).Contained :=
  (Read.contained_s4 _).bind_pure _

theorem contained_switchPadding : switchPadding.Contained :=
  Read.contained_position.bind fun _ => Read.contained_skip _ _

theorem contained_tableSwitch (pc : Nat) : (tableSwitch pc).Contained := by
  refine contained_switchPadding.bind fun _ => (Read.contained_s4 _).bind fun default => ?_
  refine (Read.contained_s4 _).bind fun low => (Read.contained_s4 _).bind fun high => ?_
  refine Read.Contained.ite (fun _ => Read.contained_fail fun _ _ => Malformed.Cause.noConfusion)
    fun _ => Read.contained_remaining.bind fun left => ?_
  refine Read.Contained.ite (fun _ => Read.contained_fail fun _ _ => Malformed.Cause.noConfusion)
    fun _ => ?_
  exact ((Read.contained_s4 _).times _).bind_pure _

theorem contained_lookupSwitch (pc : Nat) : (lookupSwitch pc).Contained := by
  refine contained_switchPadding.bind fun _ => (Read.contained_s4 _).bind fun default => ?_
  refine (Read.contained_s4 _).bind fun pairs => Read.contained_remaining.bind fun left => ?_
  refine Read.Contained.ite (fun _ => Read.contained_fail fun _ _ => Malformed.Cause.noConfusion)
    fun _ => ?_
  exact (((Read.contained_skip _ _).bind fun _ => Read.contained_s4 _).times _).bind_pure _

theorem contained_wide (pc : Nat) : (wide pc).Contained := by
  refine (Read.contained_u1 _).bind fun code => (Read.contained_u2 _).bind fun slot => ?_
  refine Read.Contained.ite (fun h => ?_) fun _ => Read.Contained.ite (fun h => ?_) fun _ =>
    Read.Contained.ite (fun _ => ?_) fun _ => Read.Contained.ite (fun _ => ?_) fun _ => ?_
  · exact (contained_typeAt (by rw [distance_eq h.1] <;> omega)).bind_pure _
  · exact (contained_typeAt (by rw [distance_eq h.1] <;> omega)).bind_pure _
  · exact Read.contained_pure _
  · exact (Read.contained_skip _ _).bind_pure _
  · exact Read.contained_fail fun _ _ => Malformed.Cause.noConfusion

variable {pool : ConstantPool}

theorem contained_member (h : pool.Checked) (tags : List Tag) : (member pool tags).Contained :=
  (Read.contained_u2 _).bind fun index => Read.contained_lookup (h.contained_memberRef index tags)

theorem contained_classOperand (h : pool.Checked) : (classOperand pool).Contained :=
  (Read.contained_u2 _).bind fun index => Read.contained_lookup (h.contained_className index)

theorem contained_push (pool : ConstantPool) (code : Nat) : (push pool code).Contained := by
  have hconst (index : Nat) (op : Opcode) :
      (do discard (lookup (pool.entry index loadable)); return Action.const op).Contained :=
    (Read.contained_lookup (pool.contained_entry index _)).discard.bind_pure _
  refine .ite (fun _ => Read.contained_pure _) fun _ => .ite (fun _ => Read.contained_pure _)
    fun _ => .ite (fun _ => (Read.contained_skip _ _).bind_pure _) fun _ =>
    .ite (fun _ => (Read.contained_skip _ _).bind_pure _) fun _ => .ite (fun _ => ?_) fun _ => ?_
  · exact (Read.contained_u1 _).bind fun index => hconst index _
  · exact (Read.contained_u2 _).bind fun index => hconst index _

theorem contained_access {first code : Nat} (h : first ≤ code) (make : ValueType → Int → Action) :
    (access first make code).Contained := by
  refine .ite (fun _ => ?_) fun _ => .ite (fun _ => ?_) fun _ => Read.contained_pure _
  · exact (contained_typeAt (by rw [distance_eq h] <;> omega)).bind fun _ =>
      (Read.contained_u1 _).bind_pure _
  · exact (contained_typeAt (by rw [distance_eq] <;> omega)).bind_pure _

theorem contained_compute (code : Nat) : (compute code).Contained := by
  refine .ite (fun _ => Read.contained_pure _) fun _ => .ite (fun _ => ?_) fun _ =>
    Read.contained_pure _
  exact (Read.contained_u1 _).bind fun _ => (Read.contained_skip _ _).bind_pure _

theorem contained_transfer (pc : Nat) {code : Nat} (_ : 0x98 < code) :
    (transfer pc code).Contained := by
  refine .ite (fun _ => (contained_branch16 pc).bind_pure _) fun _ =>
    .ite (fun _ => (contained_branch16 pc).bind_pure _) fun _ =>
    .ite (fun _ => (contained_branch32 pc).bind_pure _) fun _ =>
    .ite (fun _ => (contained_branch16 pc).bind_pure _) fun _ =>
    .ite (fun _ => (contained_branch32 pc).bind_pure _) fun _ =>
    .ite (fun _ => (Read.contained_skip _ _).bind_pure _) fun _ =>
    .ite (fun _ => contained_tableSwitch pc) fun _ =>
    .ite (fun _ => contained_lookupSwitch pc) fun _ => .ite (fun _ => ?_) fun _ =>
    Read.contained_pure _
  exact (contained_typeAt (by rw [distance_eq] <;> omega)).bind_pure _

theorem contained_callSite (h : pool.Checked) (index : Nat) :
    Contained (callSite pool index) := by
  refine (pool.contained_entry index _).bind fun c _ => ?_
  split
  · exact h.contained_nameAndType _
  · exact contained_ok _

theorem contained_use (h : pool.Checked) {code : Nat} (hcode : 0xb2 ≤ code) :
    (use pool code).Contained := by
  refine .ite (fun hfield => ?_) fun _ =>
    .ite (fun _ => (contained_member h _).bind_pure _) fun _ =>
    .ite (fun _ => (contained_member h _).bind_pure _) fun _ =>
    .ite (fun _ => (contained_member h _).bind_pure _) fun _ => .ite (fun _ => ?_) fun _ => ?_
  · obtain ⟨access, heq⟩ := exists_fieldUse_eq pool hcode hfield
    rw [heq]
    exact (contained_member h _).bind_pure _
  · exact (contained_member h _).bind fun _ => (Read.contained_skip _ _).bind_pure _
  · exact (Read.contained_u2 _).bind fun index =>
      (Read.contained_lookup (contained_callSite h index)).bind fun _ =>
        (Read.contained_skip _ _).bind_pure _

theorem contained_object (h : pool.Checked) (pc code : Nat) :
    (object pool pc code).Contained := by
  refine .ite (fun _ => (contained_classOperand h).bind_pure _) fun _ =>
    .ite (fun _ => (Read.contained_skip _ _).bind_pure _) fun _ =>
    .ite (fun _ => (contained_classOperand h).bind_pure _) fun _ =>
    .ite (fun _ => Read.contained_pure _) fun _ => .ite (fun _ => Read.contained_pure _) fun _ =>
    .ite (fun _ => contained_wide pc) fun _ => .ite (fun _ => ?_) fun _ =>
    Read.contained_fail fun _ _ => Malformed.Cause.noConfusion
  exact (contained_classOperand h).bind fun _ => (Read.contained_skip _ _).bind_pure _

/-- Decoding one instruction with a checked pool is contained. -/
theorem contained_one (h : pool.Checked) (pc code : Nat) : (one pool pc code).Contained :=
  .ite (fun _ => contained_push pool code) fun _ =>
    .ite (fun _ => contained_access (by omega) _) fun _ =>
    .ite (fun _ => contained_access (by omega) _) fun _ =>
    .ite (fun _ => contained_compute code) fun _ =>
    .ite (fun _ => contained_transfer pc (by omega)) fun _ =>
    .ite (fun _ => contained_use h (by omega)) fun _ => contained_object h pc code

theorem contained_upTo (h : pool.Checked) (fuel : Nat) : (upTo pool fuel).Contained := by
  induction fuel with
  | zero => exact Read.contained_pure []
  | succ fuel ih =>
      refine Read.contained_atEnd.bind fun stop => ?_
      refine .ite (fun _ => Read.contained_pure []) fun _ => ?_
      refine Read.contained_position.bind fun pc => (Read.contained_u1 _).bind fun code => ?_
      exact (contained_one h pc code).bind fun action => ih.bind_pure _

/-- Decoding a code array with a checked pool is contained. -/
theorem contained_body (h : pool.Checked) (code : List UInt8) :
    Contained (body pool code) :=
  (contained_upTo h code.length).runOn code

end Decode

/-! ### Attributes -/

namespace StackMap

theorem contained_skipType : skipType.Contained := by
  refine Read.contained_position.bind fun start => (Read.contained_u1 _).bind fun tag => ?_
  refine .ite (fun _ => Read.contained_skip _ _) fun _ => .ite (fun _ => ?_) fun _ =>
    Read.contained_pure _
  exact Read.contained_fail fun _ _ => Malformed.Cause.noConfusion

theorem contained_skipTypes (n : Nat) : (skipTypes n).Contained :=
  (contained_skipType.times n).discard

theorem contained_delta : delta.Contained := by
  refine Read.contained_position.bind fun start => (Read.contained_u1 _).bind fun type => ?_
  refine .ite (fun _ => Read.contained_pure _) fun _ => .ite (fun _ => ?_) fun _ =>
    .ite (fun _ => Read.contained_fail fun _ _ => Malformed.Cause.noConfusion) fun _ => ?_
  · exact (contained_skipTypes 1).bind_pure _
  refine (Read.contained_u2 _).bind fun d => .ite (fun _ => ?_) fun _ => .ite (fun _ => ?_) fun _ =>
    .ite (fun _ => ?_) fun _ => ?_
  · exact (contained_skipTypes 1).bind_pure _
  · exact Read.contained_pure d
  · exact (contained_skipTypes _).bind_pure _
  · exact (Read.contained_u2 _).bind fun _ => (contained_skipTypes _).bind fun _ =>
      (Read.contained_u2 _).bind fun _ => (contained_skipTypes _).bind_pure _

theorem contained_frames (n next : Nat) : (frames n next).Contained := by
  induction n generalizing next with
  | zero => exact Read.contained_pure []
  | succ n ih => exact contained_delta.bind fun d => (ih _).bind_pure _

theorem contained_positions (data : List UInt8) : Contained (positions data) :=
  ((Read.contained_u2 _).bind fun n => contained_frames n 0).runOn data

end StackMap

namespace Code

variable {pool : ConstantPool}

theorem contained_readAttribute (pool : ConstantPool) : (readAttribute pool).Contained := by
  refine (Read.contained_u2 _).bind fun index => ?_
  refine ((Read.contained_lookup (pool.contained_text index)).within _).bind fun name => ?_
  refine Read.contained_position.bind fun start => (Read.contained_u4 _).bind fun length => ?_
  refine Read.contained_remaining.bind fun left => .ite (fun _ => ?_) fun _ => ?_
  · exact Read.contained_fail fun _ _ => Malformed.Cause.noConfusion
  · exact (Read.contained_bytes length name).bind_pure _

theorem contained_lineTable : lineTable.Contained :=
  (Read.contained_u2 _).bind fun n => Read.Contained.times
    ((Read.contained_u2 _).bind fun _ => (Read.contained_u2 _).bind_pure _) n

theorem contained_localTable (pool : ConstantPool) : (localTable pool).Contained := by
  refine (Read.contained_u2 _).bind fun n => Read.Contained.times ?_ n
  refine (Read.contained_u2 _).bind fun start => (Read.contained_u2 _).bind fun length => ?_
  refine (Read.contained_u2 _).bind fun nameIndex => (Read.contained_u2 _).bind fun descIndex => ?_
  refine (Read.contained_u2 _).bind fun slot => ?_
  refine (Read.contained_lookup (pool.contained_text nameIndex)).bind fun name => ?_
  exact (Read.contained_lookup (pool.contained_text descIndex)).discard.bind_pure _

theorem contained_add (pool : ConstantPool) (t : Tables) (name : String) (content : List UInt8) :
    Contained (t.add pool name content) := by
  rw [Tables.add]
  split
  · exact (contained_lineTable.runOn content).bind fun _ _ => contained_ok _
  · split
    · exact ((contained_localTable pool).runOn content).bind fun _ _ => contained_ok _
    · split
      · exact (StackMap.contained_positions content).bind fun _ _ => contained_ok _
      · exact contained_ok t

theorem contained_readTables (pool : ConstantPool) (n : Nat) (t : Tables) :
    (readTables pool n t).Contained := by
  induction n generalizing t with
  | zero => exact Read.contained_pure t
  | succ n ih =>
      refine (contained_readAttribute pool).bind fun named => ?_
      exact (Read.contained_lookup (contained_add pool t _ _)).bind fun t' => ih t'

theorem contained_handler (h : pool.Checked) (starts : List Nat) (codeLength : Nat) :
    (handler pool starts codeLength).Contained := by
  refine (Read.contained_u2 _).bind fun start => (Read.contained_u2 _).bind fun stop => ?_
  refine (Read.contained_u2 _).bind fun target => (Read.contained_u2 _).bind fun type => ?_
  refine .ite (fun _ => Read.contained_fail fun _ _ => Malformed.Cause.noConfusion) fun _ =>
    .ite (fun _ => ?_) fun _ => ?_
  · exact (Read.contained_lookup (h.contained_className type)).discard.bind_pure _
  · exact (Read.contained_pure _).bind_pure _

/-- The tables of a body are read without leaving the pool. -/
theorem contained_readTablesOf (h : pool.Checked) (codeLength : Nat)
    (instructions : List Instruction) :
    (readTablesOf pool codeLength instructions).Contained := by
  rw [readTablesOf]
  split
  · exact Read.contained_fail fun _ _ => Malformed.Cause.noConfusion
  refine (Read.contained_u2 _).bind fun handlerCount => ?_
  refine ((contained_handler h _ codeLength).times handlerCount).bind fun handlers => ?_
  exact (Read.contained_u2 _).bind fun n => (contained_readTables pool n {}).bind_pure _

/-- Reading a code attribute with a checked pool is contained. -/
theorem contained_readContent (h : pool.Checked) : (readContent pool).Contained := by
  refine (Read.contained_skip _ _).bind fun _ => Read.contained_position.bind fun lengthPos => ?_
  refine (Read.contained_u4 _).bind fun codeLength => .ite (fun _ => ?_) fun _ => ?_
  · exact Read.contained_fail fun _ _ => Malformed.Cause.noConfusion
  refine (Read.contained_bytes codeLength _).bind fun code => ?_
  exact (Read.contained_lookup (Decode.contained_body h code)).bind fun instructions =>
    contained_readTablesOf h codeLength instructions

theorem contained_read (h : pool.Checked) (data : List UInt8) : Contained (read pool data) :=
  ((contained_readContent h).runOn data).map _

end Code

/-! ### Classes -/

namespace ClassModel

variable {pool : ConstantPool}

theorem contained_readMember (pool : ConstantPool) (kind : MemberKind) :
    (readMember pool kind).Contained := by
  refine (Read.contained_u2 _).bind fun access => (Read.contained_u2 _).bind fun nameIndex => ?_
  refine ((Read.contained_lookup (pool.contained_text nameIndex)).within _).bind fun name => ?_
  refine (Read.contained_u2 _).bind fun descIndex => ?_
  refine ((Read.contained_lookup (pool.contained_text descIndex)).within _).bind fun desc => ?_
  refine (Read.contained_u2 _).bind fun count => ?_
  exact (((Code.contained_readAttribute pool).within _).times count).bind_pure _

theorem contained_readField (pool : ConstantPool) : (readField pool).Contained := by
  rw [readField_eq]
  exact (contained_readMember pool .field).bind fun _ => .ite (fun _ => Read.contained_pure _) fun _ =>
    Read.contained_fail fun _ _ => Malformed.Cause.noConfusion

theorem contained_readMethod (h : pool.Checked) : (readMethod pool).Contained := by
  rw [readMethod_eq]
  refine (contained_readMember pool .method).bind fun m => ?_
  split
  · exact Read.contained_fail fun _ _ => Malformed.Cause.noConfusion
  split
  · exact Read.contained_pure _
  refine .ite (fun _ => Read.contained_fail fun _ _ => Malformed.Cause.noConfusion) fun _ => ?_
  exact ((Read.contained_lookup (Code.contained_read h _)).within _).bind_pure _

theorem contained_readSourceFile (pool : ConstantPool) (n : Nat) (source : String) :
    (readSourceFile pool n source).Contained := by
  induction n generalizing source with
  | zero => exact Read.contained_pure source
  | succ n ih =>
      rw [readSourceFile_succ]
      refine (Code.contained_readAttribute pool).bind fun named => .ite (fun _ => ?_) fun _ =>
        ih source
      exact ((Read.contained_lookup (pool.contained_text _)).within _).bind fun source' =>
        ih source'

/-- What follows the constant pool of a class file is contained when the pool is checked. -/
theorem contained_readBody (h : pool.Checked) (major minor : Nat) :
    (readBody pool major minor).Contained := by
  have hname (place : Malformed.Place) (index : Nat) :
      (Read.within place (Decode.lookup (pool.className index))).Contained :=
    (Read.contained_lookup (h.contained_className index)).within place
  refine (Read.contained_u2 _).bind fun access => (Read.contained_u2 _).bind fun thisIndex => ?_
  refine (hname _ thisIndex).bind fun name => (Read.contained_u2 _).bind fun superIndex => ?_
  refine Read.Contained.bind (.ite (fun _ => Read.contained_pure "") fun _ => hname _ superIndex)
    fun superName => ?_
  refine (Read.contained_u2 _).bind fun interfaceCount => ?_
  refine (((Read.contained_u2 _).bind fun index => hname _ index).times interfaceCount).bind
    fun interfaces => ?_
  refine (Read.contained_u2 _).bind fun fieldCount => ?_
  refine ((contained_readField pool).times fieldCount).bind fun fields => ?_
  refine (Read.contained_u2 _).bind fun methodCount => ?_
  refine ((contained_readMethod h).times methodCount).bind fun methods => ?_
  refine (Read.contained_u2 _).bind fun attributeCount => ?_
  refine (contained_readSourceFile pool attributeCount "").bind fun sourceFile => ?_
  refine Read.contained_remaining.bind fun left => .ite (fun _ => ?_) fun _ => Read.contained_pure _
  exact Read.contained_position.bind fun pos =>
    Read.contained_fail fun _ _ => Malformed.Cause.noConfusion

/-- Reading a class file is contained: the pool that its names are looked up in was checked. -/
theorem contained_read : ClassModel.read.Contained := by
  refine (Read.contained_u4 _).bind fun magic' => .ite (fun _ => ?_) fun _ => ?_
  · exact Read.contained_fail fun _ _ => Malformed.Cause.noConfusion
  refine (Read.contained_u2 _).bind fun minor => (Read.contained_u2 _).bind fun major => ?_
  refine .ite (fun _ => ?_) fun _ => ?_
  · exact Read.contained_fail fun _ _ => Malformed.Cause.noConfusion
  exact ConstantPool.contained_read.bind_of_run fun c pool c' hpool =>
    contained_readBody (ConstantPool.checked_of_read hpool) major minor

/-- **Reading never leaves a table.** Every byte string is read to a class or to a fault of the
bytes: no access by index went past the end of its table, the first one that does being told as a
fault of its own. Bytes are taken from what is left of the input only, in the amount that was asked
for. And in every pool that is read, the nested look-ups
behind a class, a name with its descriptor or a member stay inside the pool, find constants of the
right kinds and cannot fail once the first constant has the wanted kind. -/
theorem parse_contained (data : List UInt8) :
    ((∃ model, parse data = .ok model) ∨ ∃ m, parse data = .error m ∧ m.Contained) ∧
    (∀ (n : Nat) (item : String) (c c' : Cursor) (taken : List UInt8),
      Read.bytes n item c = .ok (taken, c') →
        c.rest = taken ++ c'.rest ∧ taken.length = n ∧ c'.pos = c.pos + n) ∧
    ∀ (c c' : Cursor) (pool : ConstantPool), ConstantPool.read c = .ok (pool, c') →
      (∀ index name, pool.className index = .ok name → pool.HasClass index name) ∧
      (∀ index name desc, pool.nameAndType index = .ok (name, desc) →
        pool.HasNameAndType index name desc) ∧
      ∀ index tags e, tags ⊆ ConstantPool.memberTags → pool.entry index tags = .ok e →
        ∃ m, pool.HasMember index e m ∧ pool.memberRef index tags = .ok m := by
  refine ⟨?_, fun n item c c' taken h => ?_, fun c c' pool h => ⟨?_, ?_, ?_⟩⟩
  · cases hparse : parse data with
    | ok model => exact .inl ⟨model, rfl⟩
    | error m => exact .inr ⟨m, rfl, contained_read.runOn data m hparse⟩
  · exact Read.eq_append_of_bytes h
  · intro index name hname
    exact (ConstantPool.checked_of_read h).className_eq_ok_iff.mp hname
  · intro index name desc hname
    exact (ConstantPool.checked_of_read h).nameAndType_eq_ok_iff.mp hname
  · intro index tags e hsub hentry
    obtain ⟨hholds, htag⟩ := ConstantPool.entry_eq_ok_iff.mp hentry
    obtain ⟨m, hm⟩ := (ConstantPool.checked_of_read h).hasMember hholds (hsub htag)
    exact ⟨m, hm, ConstantPool.memberRef_of_hasMember hm htag⟩

end ClassModel

end ClassAudit
