import ClassAudit.Proofs.ReaderAccesses
import ClassAudit.Proofs.ReaderTriples

/-!
# Where the offset of a fault is counted from

A class file holds structures that are read by readers of their own: the content of a code
attribute, and inside it the code array and the tables of the body. A fault tells its offset in
the innermost of them. Constants, members and attributes have no reader of their own, so outside
of method bodies an offset is a position in the file. Inside a body it is not: it is too small by
the number of bytes before the structure, and the message does not say so.

The argument goes through every reader: it stays in the byte string that it was started on, so the
position of its cursor, which its faults are told with, is a position in this byte string.

## Main definitions

* `Region` - the structures with readers of their own; `Region.At` - where they lie.
* `Malformed.Located` - what the offset of a fault says about the structure it is counted in.
* `Read.Reports` - a reader that stays in its structure and reports offsets in it.

## Main statements

* `Decode.reports_one` - the operands of an opcode.
* `Code.keeps_readContent` - a code attribute with everything inside it.
* `ClassModel.parse_fault_position` - the structure that an offset is counted in, and when this is
  the file.
* `ClassModel.offset_not_position` - two files whose faults are told at other positions.
-/

namespace ClassAudit

variable {α β : Type}

/-! ### Structures inside a class file -/

/-- The structures of a class file that are read by readers of their own. -/
inductive Region where
  | file
  /-- The content of an attribute that holds the body of a method. -/
  | codeAttribute
  | codeArray
  /-- The content of an attribute of a body. -/
  | table (name : String)
deriving DecidableEq, Repr

/-- A structure of the second kind lies directly inside one of the first kind. -/
inductive Region.Encloses : Region → Region → Prop
  | codeAttribute : Encloses .file .codeAttribute
  | codeArray : Encloses .codeAttribute .codeArray
  | table (name : String) : Encloses .codeAttribute (.table name)

/-- In the file `data`, a structure of the given kind begins at byte number `base`. -/
inductive Region.At (data : List UInt8) : Region → Nat → List UInt8 → Prop
  | file : At data .file 0 data
  | inner {outer inner : Region} {base start : Nat} {whole part : List UInt8}
      (houter : At data outer base whole) (hkind : outer.Encloses inner)
      (hpart : Counted whole start part) : At data inner (base + start) part

namespace Region

/-- The reader of the structure fails on `part` with the fault `m`. -/
def Refuses (pool : ConstantPool) (part : List UInt8) (m : Malformed) : Region → Prop
  | .file => ClassModel.parse part = .error m
  | .codeAttribute => Code.read pool part = .error m
  | .codeArray => Decode.body pool part = .error m
  | .table name => ∃ t, Code.Tables.add pool t name part = .error m

namespace At

variable {data part : List UInt8} {region : Region} {base : Nat}

/-- Every structure is a stretch of the file. -/
theorem exists_append (h : At data region base part) :
    ∃ before after, data = before ++ part ++ after ∧ before.length = base := by
  induction h with
  | file => exact ⟨[], [], by simp, rfl⟩
  | inner _ _ hpart ih =>
      obtain ⟨before, after, hdata, hbase⟩ := ih
      obtain ⟨before', count, after', hwhole, hcount, -, hstart⟩ := hpart
      refine ⟨before ++ before' ++ count, after' ++ after, ?_, ?_⟩
      · rw [hdata, hwhole]
        simp only [List.append_assoc]
      · simp only [List.length_append]
        omega

/-- A byte of a structure, found in the file. -/
theorem getElem?_add (h : At data region base part) {k : Nat} {b : UInt8}
    (hb : part[k]? = some b) : data[base + k]? = some b := by
  obtain ⟨before, after, hdata, hbase⟩ := h.exists_append
  obtain ⟨hk, -⟩ := List.getElem?_eq_some_iff.mp hb
  rw [hdata, List.append_assoc, ← hbase, List.getElem?_append_right (Nat.le_add_right _ _),
    Nat.add_sub_cancel_left, List.getElem?_append_left hk, hb]

/-- The length of a structure stands before it, so nothing but the file begins with the file. -/
theorem base_pos (h : At data region base part) (hregion : region ≠ .file) : 0 < base := by
  cases h with
  | file => exact absurd rfl hregion
  | inner _ _ hpart =>
      obtain ⟨_, _, _, -, -, -, hstart⟩ := hpart
      omega

theorem length_lt (h : At data region base part) (hregion : region ≠ .file) :
    part.length < data.length := by
  obtain ⟨before, after, hdata, hbase⟩ := h.exists_append
  have hpos := h.base_pos hregion
  simp only [hdata, List.length_append]
  omega

end At

end Region

/-! ### Faults -/

namespace Malformed

/-- Is it the end of the input, or a byte that is no opcode? The offsets of these two causes are
followed here. -/
def Cause.isTracked : Cause → Bool
  | truncated _ _ _ => true
  | badOpcode _ => true
  | _ => false

/-- The fault lies in the body of a method. -/
def InBody (m : Malformed) : Prop := ∃ name desc, Place.body name desc ∈ m.places

/-- The offset is a position in `part`: where the input ends too early, the bytes that are left
are those of `part`, and a byte that is no opcode stands at the offset. -/
structure Located (region : Region) (part : List UInt8) (m : Malformed) : Prop where
  truncated : ∀ item need have_, m.cause = .truncated item need have_ →
    have_ < need ∧ ∃ k, m.offset = some k ∧ k + have_ = part.length
  badOpcode : ∀ code, m.cause = .badOpcode code →
    region = .codeArray ∧ ∃ k b, m.offset = some k ∧ part[k]? = some b ∧ b.toNat = code
  not_inBody : ¬m.InBody

variable {region : Region} {part : List UInt8}

theorem not_inBody_nil {cause : Cause} {offset : Option Nat} :
    ¬InBody { cause, offset } :=
  fun ⟨_, _, h⟩ => nomatch h

theorem located_of_not_tracked {m : Malformed} (h : m.cause.isTracked = false)
    (hbody : ¬m.InBody) : m.Located region part where
  truncated _ _ _ hcause := by rw [hcause] at h; exact nomatch h
  badOpcode _ hcause := by rw [hcause] at h; exact nomatch h
  not_inBody := hbody

/-- Structures that are no bodies may be named around a fault. -/
theorem Located.inside {m : Malformed} (h : m.Located region part) {place : Place}
    (hplace : ∀ name desc, place ≠ .body name desc) : (m.inside place).Located region part where
  truncated := h.truncated
  badOpcode := h.badOpcode
  not_inBody := by
    rintro ⟨name, desc, hmem⟩
    obtain heq | hmem := List.mem_cons.mp hmem
    · exact hplace name desc heq.symm
    · exact h.not_inBody ⟨name, desc, hmem⟩

end Malformed

/-- Started in `whole`, the reader stays in `whole`, and the offsets of its faults are positions
in it. -/
def Read.Reports (region : Region) (whole : List UInt8) (r : Read α) : Prop :=
  r.Keeps whole (Malformed.Located region whole)

namespace Read

/-! ### Bytes -/

section Bytes

variable {region : Region} {whole : List UInt8}

theorem reports_fail {cause : Malformed.Cause} {offset : Option Nat}
    (h : cause.isTracked = false) : (Read.fail cause offset : Read α).Reports region whole :=
  triple_fail (Malformed.located_of_not_tracked h Malformed.not_inBody_nil)

theorem reports_access (a : Access α) : (Read.access a).Reports region whole := by
  cases a with
  | ok a => exact keeps_pure a
  | error e => exact reports_fail rfl

theorem Reports.within {r : Read α} (hr : r.Reports region whole) {place : Malformed.Place}
    (hplace : ∀ name desc, place ≠ .body name desc) :
    (Read.within place r).Reports region whole :=
  Keeps.within (hr.mono fun _ hm => hm.inside hplace)

/-- The one reader that finds the end of the input: the bytes that are left are those that follow
the offset. -/
theorem reports_bytes (n : Nat) (item : String) : (Read.bytes n item).Reports region whole := by
  refine keeps_bytes fun have_ k hlt hlength => ⟨?_, fun _ h => (nomatch h), ?_⟩
  · rintro _ _ _ ⟨⟩
    exact ⟨hlt, k, rfl, hlength⟩
  · exact Malformed.not_inBody_nil

theorem reports_word (width : Nat) (item : String) :
    (Read.word width item).Reports region whole := by
  rw [word_eq]
  exact (reports_bytes width item).map _

theorem reports_u1 (item : String) : (Read.u1 item).Reports region whole := reports_word 1 item

theorem reports_u2 (item : String) : (Read.u2 item).Reports region whole := reports_word 2 item

theorem reports_u4 (item : String) : (Read.u4 item).Reports region whole := reports_word 4 item

theorem reports_s4 (item : String) : (Read.s4 item).Reports region whole :=
  (reports_u4 item).map _

theorem reports_skip (n : Nat) (item : String) : (Read.skip n item).Reports region whole :=
  (reports_bytes n item).map _

end Bytes

end Read

/-! ### Constant pools -/

/-- A fault of a look-up: it is not at a byte, and no structure is named around it. -/
def Malformed.OfLookup (m : Malformed) : Prop := m.cause.isTracked = false ∧ m.places = []

theorem Malformed.OfLookup.located {m : Malformed} (h : m.OfLookup) {region : Region}
    {part : List UInt8} : m.Located region part := by
  refine located_of_not_tracked h.1 ?_
  rintro ⟨_, _, hmem⟩
  rw [h.2] at hmem
  exact nomatch hmem

namespace ConstantPool

variable (p : ConstantPool) (index : Nat)

theorem faults_entry (tags : List Tag) : Faults Malformed.OfLookup (p.entry index tags) := by
  rw [entry_eq]
  split
  · exact faults_error ⟨rfl, rfl⟩
  split
  · exact faults_ok _
  · exact faults_error ⟨rfl, rfl⟩

theorem faults_textAt : Faults Malformed.OfLookup (p.textAt index) := by
  rw [textAt]
  split
  · exact faults_ok _
  · exact faults_ok _
  · exact faults_error ⟨rfl, rfl⟩

theorem faults_text : Faults Malformed.OfLookup (p.text index) :=
  (p.faults_entry index _).bind fun _ => p.faults_textAt index

theorem faults_className : Faults Malformed.OfLookup (p.className index) := by
  refine (p.faults_entry index _).bind fun c => ?_
  split
  · exact p.faults_textAt _
  · exact faults_ok _

theorem faults_nameAndType : Faults Malformed.OfLookup (p.nameAndType index) := by
  refine (p.faults_entry index _).bind fun c => ?_
  split
  · exact (p.faults_textAt _).bind fun _ => (p.faults_textAt _).bind fun _ => faults_ok _
  · exact faults_ok _

theorem faults_classNameAt : Faults Malformed.OfLookup (p.classNameAt index) := by
  rw [classNameAt]
  split
  · exact p.faults_textAt _
  · exact faults_ok _
  · exact faults_error ⟨rfl, rfl⟩

theorem faults_memberRef (tags : List Tag) :
    Faults Malformed.OfLookup (p.memberRef index tags) := by
  have hmember (owner nt : Nat) : Faults Malformed.OfLookup (memberRef.member p owner nt) :=
    (p.faults_classNameAt owner).bind fun _ => (p.faults_nameAndType nt).bind fun _ => faults_ok _
  refine (p.faults_entry index tags).bind fun c => ?_
  split
  · exact hmember _ _
  · exact hmember _ _
  · exact hmember _ _
  · exact faults_ok _

end ConstantPool

section Regions

variable {region : Region} {whole : List UInt8}

/-- A look-up between two reads does not move, and its faults have no offset. -/
theorem Read.reports_lookup {result : Except Malformed α}
    (h : Faults Malformed.OfLookup result) : (Decode.lookup result).Reports region whole :=
  Read.keeps_lookup fun m hm => (h m hm).located

theorem Constant.reports_read (index : Nat) : (Constant.read index).Reports region whole := by
  have hone (make : Nat → Constant) : (Constant.readOne make).Reports region whole :=
    (Read.reports_u2 _).map make
  have htwo (make : Nat → Nat → Constant) : (Constant.readTwo make).Reports region whole :=
    (Read.reports_u2 _).bind fun a => (Read.reports_u2 _).bind_pure (make a)
  refine Read.keeps_position.bind fun start => (Read.reports_u1 _).bind fun tag => ?_
  split
  case h_1 =>
    rw [readText_eq]
    refine (Read.reports_u2 _).bind fun n => (Read.reports_bytes n _).bind fun raw => ?_
    split
    · exact Read.keeps_pure _
    · exact Read.reports_fail rfl
  case h_17 =>
    refine (Read.reports_u1 _).bind fun kind => .ite ?_ (Read.reports_fail rfl)
    exact (Read.reports_u2 _).bind_pure (methodHandle kind)
  case h_18 => exact Read.reports_fail rfl
  case h_2 | h_3 | h_4 | h_5 => exact (Read.reports_bytes _ _).map _
  case h_6 | h_7 | h_8 | h_9 | h_10 => exact hone _
  all_goals exact htwo _

namespace ConstantPool

theorem reports_readEntries (places index : Nat) :
    (readEntries places index).Reports region whole := by
  fun_induction readEntries places index with
  | case1 => exact Read.keeps_pure []
  | case2 index => exact (Constant.reports_read index).bind_pure fun c => [some c]
  | case3 places index ihWide ihNarrow =>
      refine (Constant.reports_read index).bind fun c => .ite ?_ ?_
      · exact ihWide.bind_pure fun rest => some c :: none :: rest
      · exact ihNarrow.bind_pure fun rest => some c :: rest

theorem reports_read : ConstantPool.read.Reports region whole := by
  rw [read_eq]
  refine Read.keeps_position.bind fun start => (Read.reports_u2 _).bind fun count => ?_
  refine .ite (Read.reports_fail rfl) ((reports_readEntries _ _).bind fun entries => ?_)
  dsimp only
  split
  · exact Read.reports_fail rfl
  · exact Read.keeps_pure _

end ConstantPool

/-! ### Code arrays -/

namespace Decode

theorem reports_typeAt (place : Nat) : (typeAt place).Reports region whole :=
  .ite (Read.keeps_pure _) (Read.reports_fail rfl)

theorem reports_branch16 (pc : Nat) : (branch16 pc).Reports region whole :=
  (Read.reports_u2 _).bind_pure _

theorem reports_branch32 (pc : Nat) : (branch32 pc).Reports region whole :=
  (Read.reports_s4 _).bind_pure _

theorem reports_member (pool : ConstantPool) (tags : List Tag) :
    (member pool tags).Reports region whole :=
  (Read.reports_u2 _).bind fun index => Read.reports_lookup (pool.faults_memberRef index tags)

theorem reports_classOperand (pool : ConstantPool) : (classOperand pool).Reports region whole :=
  (Read.reports_u2 _).bind fun index => Read.reports_lookup (pool.faults_className index)

theorem reports_switchPadding : switchPadding.Reports region whole :=
  Read.keeps_position.bind fun _ => Read.reports_skip _ _

theorem reports_tableSwitch (pc : Nat) : (tableSwitch pc).Reports region whole := by
  refine reports_switchPadding.bind fun _ => (Read.reports_s4 _).bind fun default => ?_
  refine (Read.reports_s4 _).bind fun low => (Read.reports_s4 _).bind fun high => ?_
  refine .ite (Read.reports_fail rfl) (Read.keeps_remaining.bind fun left => ?_)
  exact .ite (Read.reports_fail rfl) (((Read.reports_s4 _).times _).bind_pure _)

theorem reports_lookupSwitch (pc : Nat) : (lookupSwitch pc).Reports region whole := by
  refine reports_switchPadding.bind fun _ => (Read.reports_s4 _).bind fun default => ?_
  refine (Read.reports_s4 _).bind fun pairs => Read.keeps_remaining.bind fun left => ?_
  refine .ite (Read.reports_fail rfl) ?_
  exact (((Read.reports_skip _ _).bind fun _ => Read.reports_s4 _).times _).bind_pure _

theorem reports_wide (pc : Nat) : (wide pc).Reports region whole := by
  refine (Read.reports_u1 _).bind fun code => (Read.reports_u2 _).bind fun slot => ?_
  refine .ite ((reports_typeAt _).bind_pure _) (.ite ((reports_typeAt _).bind_pure _)
    (.ite (Read.keeps_pure _) (.ite ?_ (Read.reports_fail rfl))))
  exact (Read.reports_skip _ _).bind_pure _

theorem reports_push (pool : ConstantPool) (code : Nat) :
    (push pool code).Reports region whole := by
  have hconst (index : Nat) (op : Opcode) :
      (do discard (lookup (pool.entry index loadable)); return Action.const op).Reports
        region whole :=
    (Read.reports_lookup (pool.faults_entry index _)).discard.bind_pure _
  refine .ite (Read.keeps_pure _) (.ite (Read.keeps_pure _)
    (.ite ((Read.reports_skip _ _).bind_pure _) (.ite ((Read.reports_skip _ _).bind_pure _)
      (.ite ?_ ?_))))
  · exact (Read.reports_u1 _).bind fun index => hconst index _
  · exact (Read.reports_u2 _).bind fun index => hconst index _

theorem reports_access (first : Nat) (make : ValueType → Int → Action) (code : Nat) :
    (access first make code).Reports region whole := by
  refine .ite ?_ (.ite ((reports_typeAt _).bind_pure _) (Read.keeps_pure _))
  exact (reports_typeAt _).bind fun _ => (Read.reports_u1 _).bind_pure _

theorem reports_compute (code : Nat) : (compute code).Reports region whole := by
  refine .ite (Read.keeps_pure _) (.ite ?_ (Read.keeps_pure _))
  exact (Read.reports_u1 _).bind fun _ => (Read.reports_skip _ _).bind_pure _

theorem reports_transfer (pc code : Nat) : (transfer pc code).Reports region whole :=
  .ite ((reports_branch16 pc).bind_pure _) (.ite ((reports_branch16 pc).bind_pure _)
    (.ite ((reports_branch32 pc).bind_pure _) (.ite ((reports_branch16 pc).bind_pure _)
    (.ite ((reports_branch32 pc).bind_pure _) (.ite ((Read.reports_skip _ _).bind_pure _)
    (.ite (reports_tableSwitch pc) (.ite (reports_lookupSwitch pc)
    (.ite ((reports_typeAt _).bind_pure _) (Read.keeps_pure _)))))))))

theorem faults_callSite (pool : ConstantPool) (index : Nat) :
    Faults Malformed.OfLookup (callSite pool index) := by
  refine (pool.faults_entry index _).bind fun c => ?_
  split
  · exact pool.faults_nameAndType _
  · exact faults_ok _

theorem reports_use (pool : ConstantPool) (code : Nat) : (use pool code).Reports region whole := by
  refine .ite ?_ (.ite ((reports_member pool _).bind_pure _)
    (.ite ((reports_member pool _).bind_pure _) (.ite ((reports_member pool _).bind_pure _)
    (.ite ?_ ?_))))
  · exact (Read.reports_access _).bind fun _ => (reports_member pool _).bind_pure _
  · exact (reports_member pool _).bind fun _ => (Read.reports_skip _ _).bind_pure _
  · exact (Read.reports_u2 _).bind fun index =>
      (Read.reports_lookup (faults_callSite pool index)).bind fun _ =>
        (Read.reports_skip _ _).bind_pure _

/-- The byte that is no opcode is the one that was read at `pc`. -/
theorem reports_object {code : List UInt8} (pool : ConstantPool) {pc op : Nat}
    (hop : ∃ b, code[pc]? = some b ∧ b.toNat = op) :
    (object pool pc op).Reports .codeArray code := by
  refine .ite ((reports_classOperand pool).bind_pure _)
    (.ite ((Read.reports_skip _ _).bind_pure _) (.ite ((reports_classOperand pool).bind_pure _)
    (.ite (Read.keeps_pure _) (.ite (Read.keeps_pure _) (.ite (reports_wide pc)
    (.ite ?_ (Read.triple_fail ?_)))))))
  · exact (reports_classOperand pool).bind fun _ => (Read.reports_skip _ _).bind_pure _
  · obtain ⟨b, hb, hcode⟩ := hop
    refine ⟨fun _ _ _ h => (nomatch h), ?_, Malformed.not_inBody_nil⟩
    rintro _ ⟨⟩
    exact ⟨rfl, pc, b, rfl, hb, hcode⟩

/-- The operands of the opcode that was read at `pc`. -/
theorem reports_one {code : List UInt8} (pool : ConstantPool) {pc op : Nat}
    (hop : ∃ b, code[pc]? = some b ∧ b.toNat = op) : (one pool pc op).Reports .codeArray code :=
  .ite (reports_push pool op) (.ite (reports_access 0x15 _ op) (.ite (reports_access 0x36 _ op)
    (.ite (reports_compute op) (.ite (reports_transfer pc op)
    (.ite (reports_use pool op) (reports_object pool hop))))))

theorem reports_upTo {code : List UInt8} (pool : ConstantPool) (fuel : Nat) :
    (upTo pool fuel).Reports .codeArray code := by
  induction fuel with
  | zero => exact Read.keeps_pure []
  | succ fuel ih =>
      refine Read.keeps_atEnd.bind fun stop => .ite (Read.keeps_pure []) ?_
      refine Read.triple_position.bind fun pc => ?_
      refine (Read.triple_u1_at (Read.reports_u1 _) pc).bind fun op => .of_fact fun hop => ?_
      exact (reports_one pool hop).bind fun action => ih.bind_pure _

/-- Offsets in a code array are counted from its beginning. -/
theorem faults_body (pool : ConstantPool) (code : List UInt8) :
    Faults (Malformed.Located .codeArray code) (body pool code) :=
  (reports_upTo pool code.length).runOn

end Decode

/-! ### Attributes -/

namespace StackMap

theorem reports_skipType : skipType.Reports region whole := by
  refine Read.keeps_position.bind fun start => (Read.reports_u1 _).bind fun tag => ?_
  exact .ite (Read.reports_skip _ _) (.ite (Read.reports_fail rfl) (Read.keeps_pure _))

theorem reports_skipTypes (n : Nat) : (skipTypes n).Reports region whole :=
  (reports_skipType.times n).discard

theorem reports_delta : delta.Reports region whole := by
  refine Read.keeps_position.bind fun start => (Read.reports_u1 _).bind fun type => ?_
  refine .ite (Read.keeps_pure _) (.ite ((reports_skipTypes 1).bind_pure _)
    (.ite (Read.reports_fail rfl) ((Read.reports_u2 _).bind fun d => ?_)))
  refine .ite ((reports_skipTypes 1).bind_pure _) (.ite (Read.keeps_pure d)
    (.ite ((reports_skipTypes _).bind_pure _) ?_))
  exact (Read.reports_u2 _).bind fun _ => (reports_skipTypes _).bind fun _ =>
    (Read.reports_u2 _).bind fun _ => (reports_skipTypes _).bind_pure _

theorem reports_frames (n next : Nat) : (frames n next).Reports region whole := by
  induction n generalizing next with
  | zero => exact Read.keeps_pure []
  | succ n ih => exact reports_delta.bind fun d => (ih _).bind_pure _

theorem reports_table : table.Reports region whole :=
  (Read.reports_u2 _).bind fun n => reports_frames n 0

end StackMap

namespace Code

variable (pool : ConstantPool)

/-- The content of an attribute stands behind its length. -/
theorem triple_readAttribute :
    (readAttribute pool).Triple (Cursor.In whole)
      (fun named c => c.In whole ∧ ∃ start, Counted whole start named.2)
      (Malformed.Located region whole) := by
  have hname (index : Nat) :
      (Read.within .attributeName (Decode.lookup (pool.text index))).Reports region whole :=
    (Read.reports_lookup (pool.faults_text index)).within fun _ _ => Malformed.Place.noConfusion
  refine Read.Triple.bind (Read.reports_u2 _) fun index => ?_
  refine Read.Triple.bind (hname index) fun name => ?_
  refine Read.Triple.bind Read.keeps_position fun start => ?_
  refine (Read.triple_u4_counts (Read.reports_u4 _)).bind fun length => ?_
  refine Read.triple_remaining.bind fun left => .ite (Read.triple_fail ?_) ?_
  · exact Malformed.located_of_not_tracked rfl Malformed.not_inBody_nil
  refine (Read.triple_bytes_counted (Read.reports_bytes length name)).bind fun content => ?_
  exact Read.triple_pure fun _ hc => hc

theorem reports_readAttribute : (readAttribute pool).Reports region whole :=
  (triple_readAttribute pool).imp fun _ _ h => h.1

theorem reports_lineTable : lineTable.Reports region whole :=
  (Read.reports_u2 _).bind fun n => Read.Keeps.times
    ((Read.reports_u2 _).bind fun _ => (Read.reports_u2 _).bind_pure _) n

theorem reports_localTable : (localTable pool).Reports region whole := by
  refine (Read.reports_u2 _).bind fun n => Read.Keeps.times ?_ n
  refine (Read.reports_u2 _).bind fun start => (Read.reports_u2 _).bind fun length => ?_
  refine (Read.reports_u2 _).bind fun nameIndex => (Read.reports_u2 _).bind fun descIndex => ?_
  refine (Read.reports_u2 _).bind fun slot => ?_
  refine (Read.reports_lookup (pool.faults_text nameIndex)).bind fun name => ?_
  exact (Read.reports_lookup (pool.faults_text descIndex)).discard.bind_pure _

/-- Offsets in the table of an attribute are counted from its beginning. -/
theorem faults_add (t : Tables) (name : String) (content : List UInt8) :
    Faults (Malformed.Located (.table name) content) (t.add pool name content) := by
  rw [Tables.add]
  split
  · exact Faults.bind reports_lineTable.runOn fun _ => faults_ok _
  · split
    · exact Faults.bind (reports_localTable pool).runOn fun _ => faults_ok _
    · split
      · exact Faults.bind StackMap.reports_table.runOn fun _ => faults_ok _
      · exact faults_ok t

theorem reports_handler (starts : List Nat) (codeLength : Nat) :
    (handler pool starts codeLength).Reports region whole := by
  refine (Read.reports_u2 _).bind fun start => (Read.reports_u2 _).bind fun stop => ?_
  refine (Read.reports_u2 _).bind fun target => (Read.reports_u2 _).bind fun type => ?_
  refine .ite (Read.reports_fail rfl) (.ite ?_ ((Read.keeps_pure _).bind_pure _))
  exact (Read.reports_lookup (pool.faults_className type)).discard.bind_pure _

end Code

end Regions

namespace Code

variable (pool : ConstantPool) {content : List UInt8}

/-- The fault lies in a structure directly inside the content of a code attribute. -/
def InnerFault (content : List UInt8) (m : Malformed) : Prop :=
  ∃ region start part, Region.Encloses .codeAttribute region ∧ Counted content start part ∧
    region.Refuses pool part m ∧ m.Located region part

/-- The fault lies in the content of a code attribute, or in a structure inside it. -/
def ContentFault (content : List UInt8) (m : Malformed) : Prop :=
  m.Located .codeAttribute content ∨ InnerFault pool content m

variable {pool}

theorem keeps_of_reports {r : Read α} (h : r.Reports .codeAttribute content) :
    r.Keeps content (ContentFault pool content) :=
  h.mono fun _ => .inl

theorem keeps_readTables (n : Nat) (t : Tables) :
    (readTables pool n t).Keeps content (ContentFault pool content) := by
  induction n generalizing t with
  | zero => exact Read.keeps_pure t
  | succ n ih =>
      refine ((triple_readAttribute pool).mono fun _ => .inl).bind fun named =>
        .of_fact fun ⟨start, hcounted⟩ => ?_
      refine Read.Keeps.bind (Read.keeps_lookup fun m hm => ?_) ih
      exact .inr ⟨.table named.1, start, named.2, .table _, hcounted, ⟨t, hm⟩,
        faults_add pool t _ _ m hm⟩

theorem keeps_readTablesOf (codeLength : Nat) (instructions : List Instruction) :
    (readTablesOf pool codeLength instructions).Keeps content (ContentFault pool content) := by
  rw [readTablesOf]
  split
  · exact keeps_of_reports (Read.reports_fail rfl)
  refine (keeps_of_reports (Read.reports_u2 _)).bind fun handlerCount => ?_
  refine (keeps_of_reports ((reports_handler pool _ codeLength).times handlerCount)).bind
    fun handlers => ?_
  refine (keeps_of_reports (Read.reports_u2 _)).bind fun n => ?_
  exact (keeps_readTables n {}).bind_pure _

/-- The faults of a code attribute with everything inside it. -/
theorem keeps_readContent : (readContent pool).Keeps content (ContentFault pool content) := by
  refine Read.Triple.bind (keeps_of_reports (Read.reports_skip _ _)) fun _ => ?_
  refine Read.Triple.bind Read.keeps_position fun lengthPos => ?_
  refine (Read.triple_u4_counts (keeps_of_reports (Read.reports_u4 _))).bind fun codeLength => ?_
  refine .ite (Read.triple_fail (.inl ?_)) ?_
  · exact Malformed.located_of_not_tracked rfl Malformed.not_inBody_nil
  refine (Read.triple_bytes_counted (keeps_of_reports (Read.reports_bytes codeLength _))).bind
    fun code => .of_fact fun ⟨start, hcounted⟩ => ?_
  refine Read.Keeps.bind (Read.keeps_lookup fun m hm => ?_) (keeps_readTablesOf codeLength)
  exact .inr ⟨.codeArray, start, code, .codeArray, hcounted, hm, Decode.faults_body pool code m hm⟩

end Code

/-! ### Classes -/

namespace ClassModel

variable {pool : ConstantPool} {data : List UInt8}

/-- The fault lies in a structure of the body of a method: it is the fault of the reader of the
structure, with the method named around it. -/
def BodyFault (data : List UInt8) (m : Malformed) : Prop :=
  ∃ pool region base part fault name desc, Region.At data region base part ∧ region ≠ .file ∧
    region.Refuses pool part fault ∧ fault.Located region part ∧
    m = fault.inside (.body name desc)

/-- The fault lies in the file itself, or in the body of a method. -/
def FileFault (data : List UInt8) (m : Malformed) : Prop :=
  m.Located .file data ∨ BodyFault data m

theorem keeps_of_reports {r : Read α} (h : r.Reports .file data) :
    r.Keeps data (FileFault data) :=
  h.mono fun _ => .inl

/-- A code attribute that stands in the file. -/
theorem bodyFault_of_read {content : List UInt8} {start : Nat}
    (hcounted : Counted data start content) {fault : Malformed}
    (hread : Code.read pool content = .error fault) (name desc : String) :
    BodyFault data (fault.inside (.body name desc)) := by
  have hcontent : Region.At data .codeAttribute (0 + start) content :=
    .inner .file .codeAttribute hcounted
  obtain hfault | ⟨region, start', part, hkind, hpart, hrefuses, hfault⟩ :=
    Code.keeps_readContent.runOn.map _ fault hread
  · exact ⟨pool, _, _, content, fault, name, desc, hcontent, by decide, hread, hfault, rfl⟩
  · refine ⟨pool, region, _, part, fault, name, desc, .inner hcontent hkind hpart, ?_, hrefuses,
      hfault, rfl⟩
    rintro rfl
    exact nomatch hkind

/-- The contents of the attributes of a member stand in the file. -/
theorem triple_readMember (kind : MemberKind) :
    (readMember pool kind).Triple (Cursor.In data)
      (fun info c => c.In data ∧ ∀ named ∈ info.attributes, ∃ start, Counted data start named.2)
      (Malformed.Located .file data) := by
  have hname (place : Malformed.Place) (hplace : ∀ name desc, place ≠ .body name desc)
      (index : Nat) : (Read.within place (Decode.lookup (pool.text index))).Reports .file data :=
    (Read.reports_lookup (pool.faults_text index)).within hplace
  refine Read.Triple.bind (Read.reports_u2 _) fun access => ?_
  refine Read.Triple.bind (Read.reports_u2 _) fun nameIndex => ?_
  refine Read.Triple.bind (hname _ (by simp) nameIndex) fun name => ?_
  refine Read.Triple.bind (Read.reports_u2 _) fun descIndex => ?_
  refine Read.Triple.bind (hname _ (by simp) descIndex) fun desc => ?_
  refine Read.Triple.bind (Read.reports_u2 _) fun count => ?_
  have hattribute : (Read.within (.member kind name) (Code.readAttribute pool)).Triple
      (Cursor.In data) (fun named c => c.In data ∧ ∃ start, Counted data start named.2)
      (Malformed.Located .file data) :=
    Read.Triple.within ((Code.triple_readAttribute pool).mono fun m hm => hm.inside (by simp))
  exact (hattribute.times count).bind fun attributes => Read.triple_pure fun _ hc => hc

theorem reports_readField : (readField pool).Reports .file data := by
  rw [readField_eq]
  refine Read.Triple.bind (triple_readMember .field) fun info => .of_fact fun _ => ?_
  exact .ite (Read.keeps_pure _) (Read.reports_fail rfl)

/-- A method is read in the file, but its body is not. -/
theorem keeps_readMethod : (readMethod pool).Keeps data (FileFault data) := by
  rw [readMethod_eq]
  refine Read.Triple.bind ((triple_readMember .method).mono fun _ => .inl) fun info =>
    .of_fact fun hattributes => ?_
  split
  · exact keeps_of_reports (Read.reports_fail rfl)
  split
  · exact Read.keeps_pure _
  rename_i content hlookup
  refine .ite (keeps_of_reports (Read.reports_fail rfl)) (Read.Keeps.bind ?_ fun body => ?_)
  · obtain ⟨_, _, hsplit, -⟩ := List.lookup_eq_some_iff.mp hlookup
    obtain ⟨start, hcounted⟩ := hattributes ("Code", content) (by simp [hsplit])
    refine Read.Keeps.within (Read.keeps_lookup fun fault hread => .inr ?_)
    exact bodyFault_of_read hcounted hread info.name info.desc
  · exact Read.keeps_pure _

theorem reports_readSourceFile (n : Nat) (source : String) :
    (readSourceFile pool n source).Reports .file data := by
  induction n generalizing source with
  | zero => exact Read.keeps_pure source
  | succ n ih =>
      rw [readSourceFile_succ]
      refine (Code.reports_readAttribute pool).bind fun named => .ite ?_ (ih source)
      refine Read.Keeps.bind (Read.Reports.within ?_ (by simp)) ih
      exact Read.reports_lookup (pool.faults_text _)

/-- What follows the constant pool is read in the file, except for the bodies of the methods. -/
theorem keeps_readBody (major minor : Nat) :
    (readBody pool major minor).Keeps data (FileFault data) := by
  have hu2 (item : String) : (Read.u2 item).Keeps data (FileFault data) :=
    keeps_of_reports (Read.reports_u2 item)
  have hname (place : Malformed.Place) (hplace : ∀ name desc, place ≠ .body name desc)
      (index : Nat) : (Read.within place (Decode.lookup (pool.className index))).Keeps data
        (FileFault data) :=
    keeps_of_reports ((Read.reports_lookup (pool.faults_className index)).within hplace)
  refine (hu2 _).bind fun access => (hu2 _).bind fun thisIndex => ?_
  refine (hname _ (by simp) thisIndex).bind fun name => (hu2 _).bind fun superIndex => ?_
  refine Read.Keeps.bind (.ite (Read.keeps_pure "") (hname _ (by simp) superIndex))
    fun superName => ?_
  refine (hu2 _).bind fun interfaceCount => ?_
  refine (((hu2 _).bind fun index => hname _ (by simp) index).times interfaceCount).bind
    fun interfaces => ?_
  refine (hu2 _).bind fun fieldCount => ?_
  refine (keeps_of_reports (reports_readField.times fieldCount)).bind fun fields => ?_
  refine (hu2 _).bind fun methodCount => (keeps_readMethod.times methodCount).bind fun methods => ?_
  refine (hu2 _).bind fun attributeCount => ?_
  refine (keeps_of_reports (reports_readSourceFile attributeCount "")).bind fun sourceFile => ?_
  refine Read.keeps_remaining.bind fun left => .ite ?_ (Read.keeps_pure _)
  exact Read.keeps_position.bind fun pos => keeps_of_reports (Read.reports_fail rfl)

/-- The faults of a class file. -/
theorem keeps_read : ClassModel.read.Keeps data (FileFault data) := by
  have hfail (cause : Malformed.Cause) (offset : Option Nat) (h : cause.isTracked = false) :
      (Read.fail cause offset : Read ClassModel).Keeps data (FileFault data) :=
    keeps_of_reports (Read.reports_fail h)
  refine (keeps_of_reports (Read.reports_u4 _)).bind fun magic' => .ite (hfail _ _ rfl) ?_
  refine (keeps_of_reports (Read.reports_u2 _)).bind fun minor => ?_
  refine (keeps_of_reports (Read.reports_u2 _)).bind fun major => .ite (hfail _ _ rfl) ?_
  exact (keeps_of_reports ConstantPool.reports_read).bind fun pool => keeps_readBody major minor

/-- **Where the offset of a fault is counted from.** Every fault of a class file is the fault of the
reader of one structure: the file, or, with the method named around it, a code attribute in the
file, or a code array or a table in such an attribute. Where the input ends too early, the bytes
that are left are those that follow the offset in this structure. So they are those that follow
the offset in the file exactly if the fault lies in no method body. A byte that is no opcode stands
at its offset in a code array, which begins behind the first byte of the file. -/
theorem parse_fault_position {data : List UInt8} {m : Malformed} (h : parse data = .error m) :
    ∃ pool region base part fault, Region.At data region base part ∧
      region.Refuses pool part fault ∧
      (region = .file ∧ m = fault ∨
        region ≠ .file ∧ ∃ name desc, m = fault.inside (.body name desc)) ∧
      (region = .file ↔ ¬m.InBody) ∧
      (∀ item need have_, m.cause = .truncated item need have_ →
        have_ < need ∧ ∃ k, m.offset = some k ∧ k + have_ = part.length ∧
          (k + have_ = data.length ↔ ¬m.InBody)) ∧
      ∀ code, m.cause = .badOpcode code →
        region = .codeArray ∧ 0 < base ∧
          ∃ k b, m.offset = some k ∧ data[base + k]? = some b ∧ b.toNat = code := by
  obtain hm | ⟨pool, region, base, part, fault, name, desc, hat, hregion, hrefuses, hm, rfl⟩ :=
    keeps_read.runOn m h
  · refine ⟨default, .file, 0, data, m, .file, h, .inl ⟨rfl, rfl⟩, ?_, ?_, ?_⟩
    · exact iff_of_true rfl hm.not_inBody
    · intro item need have_ hcause
      obtain ⟨hlt, k, hk, hlength⟩ := hm.truncated item need have_ hcause
      exact ⟨hlt, k, hk, hlength, iff_of_true hlength hm.not_inBody⟩
    · intro code hcause
      exact nomatch (hm.badOpcode code hcause).1
  · have hbody : (fault.inside (.body name desc)).InBody := ⟨name, desc, List.mem_cons_self⟩
    refine ⟨pool, region, base, part, fault, hat, hrefuses, .inr ⟨hregion, name, desc, rfl⟩, ?_,
      ?_, ?_⟩
    · exact iff_of_false hregion (not_not.mpr hbody)
    · intro item need have_ hcause
      obtain ⟨hlt, k, hk, hlength⟩ := hm.truncated item need have_ hcause
      have hshort := hat.length_lt hregion
      refine ⟨hlt, k, hk, hlength, iff_of_false ?_ (not_not.mpr hbody)⟩
      omega
    · intro code hcause
      obtain ⟨harray, k, b, hk, hb, hcode⟩ := hm.badOpcode code hcause
      exact ⟨harray, hat.base_pos hregion, k, b, hk, hat.getElem?_add hb, hcode⟩

/-- The class file of a class `A` with one method `A()V`, up to the end of the method's code
attribute. -/
def fileUpToBody (content : List UInt8) : List UInt8 :=
  [0xca, 0xfe, 0xba, 0xbe, 0, 0, 0, 52, 0, 5, 7, 0, 2, 1, 0, 1, 0x41, 1, 0, 3, 0x28, 0x29, 0x56,
    1, 0, 4, 0x43, 0x6f, 0x64, 0x65, 0, 1, 0, 1, 0, 0, 0, 0, 0, 0, 0, 1, 0, 1, 0, 2, 0, 3, 0, 1,
    0, 4] ++ Binary.u4 content.length ++ content

/-- A code array of one byte is announced, and the attribute ends: 64 bytes come before this
place. -/
theorem parse_fileUpToBody_cut :
    parse (fileUpToBody [0, 0, 0, 0, 0, 0, 0, 1]) =
      .error { cause := .truncated "code" 1 0, offset := some 8, places := [.body "A" "()V"] } := by
  decide +kernel

/-- The code array is a byte that is no opcode: 64 bytes come before it. -/
theorem parse_fileUpToBody_badOpcode :
    parse (fileUpToBody [0, 0, 0, 0, 0, 0, 0, 1, 0xcb]) =
      .error { cause := .badOpcode 0xcb, offset := some 0, places := [.body "A" "()V"] } := by
  decide +kernel

/-- The offset of the cut body is counted in a structure of eight bytes inside the file. -/
theorem parse_fault_position_cut :
    parse (fileUpToBody [0, 0, 0, 0, 0, 0, 0, 1]) =
      .error { cause := .truncated "code" 1 0, offset := some 8, places := [.body "A" "()V"] } ∧
    ∃ pool region base part fault,
      Region.At (fileUpToBody [0, 0, 0, 0, 0, 0, 0, 1]) region base part ∧
        region.Refuses pool part fault ∧ region ≠ .file ∧ part.length = 8 := by
  obtain ⟨pool, region, base, part, fault, hat, hrefuses, -, hfile, htruncated, -⟩ :=
    parse_fault_position parse_fileUpToBody_cut
  obtain ⟨-, k, hk, hlength, -⟩ := htruncated "code" 1 0 rfl
  obtain rfl := Option.some.inj hk
  refine ⟨parse_fileUpToBody_cut, pool, region, base, part, fault, hat, hrefuses,
    fun hregion => ?_, hlength.symm⟩
  exact hfile.mp hregion ⟨"A", "()V", List.mem_cons_self⟩

/-- Offsets are not positions in the file: neither where the input ends too early, nor where a byte
is no opcode. -/
theorem offset_not_position :
    (¬∀ data m item need have_ k, parse data = .error m →
      m.cause = .truncated item need have_ → m.offset = some k → k + have_ = data.length) ∧
    ¬∀ (data : List UInt8) (m : Malformed) (code k : Nat), parse data = .error m →
      m.cause = .badOpcode code → m.offset = some k → data[k]?.map UInt8.toNat = some code := by
  constructor
  · intro hall
    have hlength := hall _ _ _ _ _ _ parse_fileUpToBody_cut rfl rfl
    exact absurd hlength (by decide)
  · intro hall
    have hbyte := hall _ _ _ _ parse_fileUpToBody_badOpcode rfl rfl
    exact absurd hbyte (by decide)

end ClassModel

end ClassAudit
