import ClassAudit.Proofs.CodeRoundTrip

/-!
# Written classes

The bytes of a class are written while its pool grows, and the pool itself is written last. So
what the bytes refer to is said in terms of the finished table: names, fields, methods and
attributes are spelled by it.

## Main definitions

* `ConstantPool.SpellsText`, `ConstantPool.SpellsClass`, `ConstantPool.SpellsMember` - bytes that
  refer to the table.
* `MethodDraft.Spelled` - the bytes of a method.
* `ClassParts`, `ClassParts.Valid` - the parts of a written class.
* `ClassDraft.vocabulary` - the members and call sites that a class uses.

## Main statements

* `ClassDraft.writes_encodeBody` - a class is written in its parts.
* `ClassDraft.encode_eq_ok` - what a written class file consists of.
-/

namespace ClassAudit

open PoolBuilder

/-! ### Bytes that refer to the table -/

namespace ConstantPool

/-- The index of a text. -/
def SpellsText (t : ConstantPool) (text : String) (bytes : List UInt8) : Prop :=
  ∃ n, t.Holds n (.utf8 text.toList) ∧ bytes = Binary.u2 n

/-- The index of a class. -/
def SpellsClass (t : ConstantPool) (name : String) (bytes : List UInt8) : Prop :=
  ∃ n, t.HasClass n name ∧ bytes = Binary.u2 n

/-- The bytes of a field or a method. -/
def SpellsMember (t : ConstantPool) (access : Int) (name desc : String)
    (attributes : List (String × List UInt8)) (bytes : List UInt8) : Prop :=
  ∃ nameBytes descBytes pieces, t.SpellsText name nameBytes ∧ t.SpellsText desc descBytes ∧
    List.Forall₂ t.Names attributes pieces ∧
    bytes = Binary.u2 access ++ nameBytes ++ descBytes ++ Binary.u2 pieces.length ++
      pieces.flatten

end ConstantPool

theorem kept_spellsText (text : String) (bytes : List UInt8) :
    Kept fun p => p.table.SpellsText text bytes :=
  .exists fun n => (stable_holds n _).kept.and (kept_const _)

theorem kept_spellsClass (name : String) (bytes : List UInt8) :
    Kept fun p => p.table.SpellsClass name bytes :=
  .exists fun n => (stable_hasClass n name).kept.and (kept_const _)

theorem kept_spellsMember (access : Int) (name desc : String)
    (attributes : List (String × List UInt8)) (bytes : List UInt8) :
    Kept fun p => p.table.SpellsMember access name desc attributes bytes := by
  refine .exists fun nameBytes => .exists fun descBytes => .exists fun pieces => ?_
  exact (kept_spellsText name nameBytes).and ((kept_spellsText desc descBytes).and
    ((Kept.forall₂ kept_names attributes pieces).and (kept_const _)))

/-- A written code attribute stays what it is while the pool grows. -/
theorem CodeParts.kept_valid (v : Vocabulary) (m : MethodDraft) (c : CodeParts) :
    Kept fun p => c.Valid v p.table m := by
  intro p p' hp h
  obtain ⟨entries, hentries, hfilter⟩ := h.locals
  exact ⟨h.steps, h.laid.imp fun pc s bytes _ => Step.kept_written v _ pc s bytes p p' hp,
    h.handlers, Kept.forall₂ kept_names _ _ p p' hp h.attributes, h.few, entries,
    Kept.forall₂ (MethodDraft.kept_declares _ _) _ _ p p' hp hentries, hfilter⟩

namespace MethodDraft

/-- The bytes of a method: it has a code attribute exactly if it has steps. -/
def Spelled (v : Vocabulary) (t : ConstantPool) (m : MethodDraft) (bytes : List UInt8) : Prop :=
  if m.steps = [] then t.SpellsMember m.access m.name m.desc [] bytes
  else ∃ c : CodeParts, c.Valid v t m ∧
    t.SpellsMember m.access m.name m.desc [("Code", c.bytes m.maxLocals)] bytes

theorem kept_spelled (v : Vocabulary) (m : MethodDraft) (bytes : List UInt8) :
    Kept fun p => m.Spelled v p.table bytes := by
  unfold Spelled
  split
  · exact kept_spellsMember _ _ _ _ bytes
  · exact .exists fun c => (c.kept_valid v m).and (kept_spellsMember _ _ _ _ bytes)

end MethodDraft

namespace ClassDraft

variable {v : Vocabulary}

/-! ### Writing the parts -/

/-- A word that holds the answer to a request. -/
theorem writes_word {r : Request} {post : ConstantPool → Nat → Prop}
    (h : Supplies v (fun _ => True) r post) :
    Writes v (request r) fun p bytes => ∃ n, post p.table n ∧ bytes = Binary.u2 n := by
  intro p bytes p' heq
  obtain ⟨rfl, rfl⟩ := Prod.mk.inj (Except.ok.inj heq)
  exact ⟨h.grows p, fun hp hslots => ⟨_, (h.sound p hp trivial hslots).2, rfl⟩⟩

theorem writes_text (v : Vocabulary) (text : String) :
    Writes v (request (PoolBuilder.utf8 text)) fun p bytes => p.table.SpellsText text bytes :=
  (writes_word (supplies_utf8 stable_true text)).imp fun _ _ ⟨n, hn, hbytes⟩ => ⟨n, hn.1, hbytes⟩

theorem writes_class (v : Vocabulary) (name : String) :
    Writes v (request (PoolBuilder.classRef name)) fun p bytes =>
      p.table.SpellsClass name bytes :=
  (writes_word (supplies_classRef stable_true name)).imp fun _ _ ⟨n, hn, hbytes⟩ =>
    ⟨n, hn.1, hbytes⟩

theorem writes_encodeField (v : Vocabulary) (f : FieldDraft) :
    Writes v (encodeField f) fun p bytes =>
      p.table.SpellsMember f.access f.name f.desc [] bytes := by
  refine (writes_text v f.name).bind (kept_spellsText f.name) fun name => ?_
  refine (writes_text v f.desc).bind (kept_spellsText f.desc) fun desc => ?_
  refine writes_pure fun _ hdesc hname => ⟨name, desc, [], hname, hdesc, .nil, ?_⟩
  exact (List.append_nil _).symm

/-- Faults may be reworded. -/
theorem writes_mapError {ε ε' α : Type} {w : StateT PoolBuilder (Except ε) α}
    {post : PoolBuilder → α → Prop} (hw : Writes v w post) (f : ε → ε') :
    Writes v (fun p => (w p).mapError f : StateT PoolBuilder (Except ε') α) post := by
  intro p a p' h
  exact hw p a p' (except_mapError_eq_ok.mp h)

/-- The bytes of a method spell it. -/
theorem writes_encodeMethod {m : MethodDraft} (hknown : ∀ s ∈ m.steps, s.Known v) :
    Writes v (encodeMethod m) fun p bytes => m.Spelled v p.table bytes := by
  refine (writes_text v m.name).bind (kept_spellsText m.name) fun name => ?_
  refine (writes_text v m.desc).bind (kept_spellsText m.desc) fun desc => ?_
  refine .ite (fun hempty => ?_) fun hempty => ?_
  · refine writes_pure fun _ hdesc hname => ?_
    rw [MethodDraft.Spelled, if_pos (List.isEmpty_iff.mp hempty)]
    exact ⟨name, desc, [], hname, hdesc, .nil, (List.append_nil _).symm⟩
  · refine (writes_mapError (m.writes_encodeCode hknown) _).bind (fun bytes => ?_) fun code => ?_
    · exact .exists fun c => (c.kept_valid v m).and (kept_names _ bytes)
    refine writes_pure ?_
    rintro p ⟨c, hc, hcode⟩ hdesc hname
    rw [MethodDraft.Spelled, if_neg fun h => hempty (List.isEmpty_iff.mpr h)]
    refine ⟨c, hc, name, desc, [code], hname, hdesc, .cons hcode .nil, ?_⟩
    simp

/-- The superclass that a class is written with: every class but the root class has one. -/
def superclass (c : ClassDraft) : String :=
  if c.superName ≠ "" then c.superName else if c.name ≠ objectClass then objectClass else ""

/-- The bytes of the superclass; a class without superclass has the index 0. -/
def SuperSpelled (t : ConstantPool) (c : ClassDraft) (bytes : List UInt8) : Prop :=
  if c.superclass = "" then bytes = Binary.u2 0 else t.SpellsClass c.superclass bytes

theorem kept_superSpelled (c : ClassDraft) (bytes : List UInt8) :
    Kept fun p => c.SuperSpelled p.table bytes := by
  unfold SuperSpelled
  split
  · exact kept_const _
  · exact kept_spellsClass _ bytes

/-- The bytes of the superclass spell it; only the root class has none. -/
theorem writes_encodeSuper (v : Vocabulary) (c : ClassDraft) :
    Writes v c.encodeSuper fun p bytes => c.SuperSpelled p.table bytes := by
  refine .ite (fun hsuper => ?_) fun hsuper => .ite (fun hname => ?_) fun hname => ?_
  · have hne : c.superName ≠ "" := by simpa using hsuper
    refine (writes_class v c.superName).imp fun _ _ h => ?_
    rwa [SuperSpelled, superclass, if_pos hne, if_neg hne]
  · have hempty : ¬c.superName ≠ "" := by simpa using hsuper
    have hname : c.name ≠ objectClass := by simpa using hname
    have hnonempty : objectClass ≠ "" := by decide
    refine (writes_class v objectClass).imp fun _ _ h => ?_
    rwa [SuperSpelled, superclass, if_neg hempty, if_pos hname, if_neg hnonempty]
  · have hempty : ¬c.superName ≠ "" := by simpa using hsuper
    have hname : ¬c.name ≠ objectClass := by simpa using hname
    refine writes_pure fun _ => ?_
    rw [SuperSpelled, superclass, if_neg hempty, if_neg hname, if_pos rfl]

/-- The bytes of the attributes of a class: its source file, unless it is unknown. -/
def SourceSpelled (t : ConstantPool) (c : ClassDraft) (bytes : List UInt8) : Prop :=
  if c.sourceFile = "" then bytes = Binary.u2 0
  else ∃ source piece, t.SpellsText c.sourceFile source ∧ t.Names ("SourceFile", source) piece ∧
    bytes = Binary.u2 1 ++ piece

theorem kept_sourceSpelled (c : ClassDraft) (bytes : List UInt8) :
    Kept fun p => c.SourceSpelled p.table bytes := by
  unfold SourceSpelled
  split
  · exact kept_const _
  · refine .exists fun source => .exists fun piece => ?_
    exact (kept_spellsText _ source).and ((kept_names _ piece).and (kept_const _))

/-- The bytes of the source file spell it, if there is one. -/
theorem writes_encodeSourceFile (v : Vocabulary) (c : ClassDraft) :
    Writes v c.encodeSourceFile fun p bytes => c.SourceSpelled p.table bytes := by
  unfold SourceSpelled
  refine .ite (fun hempty => writes_pure fun _ => ?_) fun hempty => ?_
  · rw [if_pos (by simpa using hempty)]
  refine (writes_text v c.sourceFile).bind (kept_spellsText c.sourceFile) fun source => ?_
  refine (writes_text v "SourceFile").bind (kept_spellsText _) fun name => ?_
  refine writes_pure ?_
  rintro p ⟨n, hn, rfl⟩ hsource
  rw [if_neg (by simpa using hempty)]
  refine ⟨source, _, hsource, ⟨n, hn, rfl⟩, ?_⟩
  simp only [List.append_assoc]

/-! ### Writing a class -/

end ClassDraft

/-- The parts of what follows the pool of a class file. -/
structure ClassParts where
  name : List UInt8
  superName : List UInt8
  interfaces : List (List UInt8)
  fields : List (List UInt8)
  methods : List (List UInt8)
  attributes : List UInt8

namespace ClassParts

/-- The bytes that follow the pool of a class file. -/
def bytes (parts : ClassParts) (access : Int) : List UInt8 :=
  Binary.u2 access ++ parts.name ++ parts.superName ++
    Binary.u2 parts.interfaces.length ++ parts.interfaces.flatten ++
    Binary.u2 parts.fields.length ++ parts.fields.flatten ++
    Binary.u2 parts.methods.length ++ parts.methods.flatten ++ parts.attributes

/-- The parts belong to the class `c`, and refer to the table `t`. -/
structure Valid (v : Vocabulary) (t : ConstantPool) (c : ClassDraft) (parts : ClassParts) :
    Prop where
  name : t.SpellsClass c.name parts.name
  superName : c.SuperSpelled t parts.superName
  interfaces : List.Forall₂ t.SpellsClass c.interfaces parts.interfaces
  fields : List.Forall₂ (fun f => t.SpellsMember f.access f.name f.desc []) c.fields parts.fields
  methods : List.Forall₂ (fun m => m.Spelled v t) c.methods parts.methods
  attributes : c.SourceSpelled t parts.attributes

end ClassParts

namespace ClassDraft

variable {v : Vocabulary}

/-- The parts of a class are written one after the other. -/
theorem writes_encodeBody {c : ClassDraft} (hknown : ∀ m ∈ c.methods, ∀ s ∈ m.steps, s.Known v) :
    Writes v c.encodeBody fun p body => ∃ parts : ClassParts, parts.Valid v p.table c ∧
      body = parts.bytes c.access := by
  refine (writes_class v c.name).bind (kept_spellsClass c.name) fun name => ?_
  refine (writes_encodeSuper v c).bind (kept_superSpelled c) fun superName => ?_
  refine (Writes.mapM (fun i _ => writes_class v i) kept_spellsClass).bind
    (Kept.forall₂ kept_spellsClass c.interfaces) fun interfaces => ?_
  refine (Writes.mapM (fun f _ => writes_encodeField v f) fun f => kept_spellsMember _ _ _ _).bind
    (Kept.forall₂ (fun f => kept_spellsMember _ _ _ _) c.fields) fun fields => ?_
  refine (Writes.mapM (fun m hm => writes_encodeMethod (hknown m hm))
    fun m => m.kept_spelled v).bind (Kept.forall₂ (fun m => m.kept_spelled v) c.methods)
    fun methods => ?_
  refine (writes_encodeSourceFile v c).bind (kept_sourceSpelled c) fun attributes => ?_
  refine writes_pure fun p hattributes hmethods hfields hinterfaces hsuper hname => ?_
  refine ⟨⟨name, superName, interfaces, fields, methods, attributes⟩,
    ⟨hname, hsuper, hinterfaces, hfields, hmethods, hattributes⟩, ?_⟩
  rw [ClassParts.bytes, ← hinterfaces.length_eq, ← hfields.length_eq, ← hmethods.length_eq]

/-! ### The vocabulary of a class -/

end ClassDraft

/-- The member that a step refers to. -/
def Step.member? : Step → Option MemberRef
  | field _ m => some m
  | invoke _ m => some m
  | _ => none

/-- The name and the descriptor of the call site that a step is. -/
def Step.site? : Step → Option (String × String)
  | invokeDynamic name desc => some (name, desc)
  | _ => none

/-- The number of bytes of a text; other constants have none. -/
def Constant.textLength : Constant → Nat
  | utf8 text => (Text.ModifiedUtf8.encode text).length
  | _ => 0

namespace ClassDraft

/-- The members that the methods of a class refer to. -/
def members (c : ClassDraft) : List MemberRef :=
  c.methods.flatMap fun m => m.steps.filterMap Step.member?

/-- The names and descriptors of the call sites of a class. -/
def sites (c : ClassDraft) : List (String × String) :=
  c.methods.flatMap fun m => m.steps.filterMap Step.site?

/-- The members and the call sites that the methods of a class use. -/
def vocabulary (c : ClassDraft) : Vocabulary where
  member m := m ∈ c.members
  site name desc := (name, desc) ∈ c.sites

/-- The members and call sites of a step are in the vocabulary of its class. -/
theorem known_of_mem {c : ClassDraft} {m : MethodDraft} (hm : m ∈ c.methods) {s : Step}
    (hs : s ∈ m.steps) : s.Known c.vocabulary := by
  have hmember {target : MemberRef} (h : s.member? = some target) : target ∈ c.members :=
    List.mem_flatMap.mpr ⟨m, hm, List.mem_filterMap.mpr ⟨s, hs, h⟩⟩
  have hsite {site : String × String} (h : s.site? = some site) : site ∈ c.sites :=
    List.mem_flatMap.mpr ⟨m, hm, List.mem_filterMap.mpr ⟨s, hs, h⟩⟩
  cases s with
  | field access target => exact hmember rfl
  | invoke kind target => exact hmember rfl
  | invokeDynamic name desc => exact hsite rfl
  | _ => trivial

/-- The version that a class is written with. -/
def majorVersion (c : ClassDraft) : Int := if c.major = 0 then defaultMajor else c.major

/-- The sizes that a class file has room for: two bytes for a count, an index or the length of a
text, and four bytes for the length of an attribute. A larger number would be written without its
highest bytes. The counts do not bound the length of an attribute: a body may have any number of
steps, and from 4 GiB on the length of its attribute would wrap and a reader go on in its middle.
The condition is put on the whole file, which has every attribute in it. -/
structure Fits (c : ClassDraft) : Prop where
  interfaces : c.interfaces.length ≤ 65535
  fields : c.fields.length ≤ 65535
  methods : c.methods.length ≤ 65535
  slots : ∀ x, c.encodeBody {} = .ok x → x.2.slots ≤ 65534
  texts : ∀ x, c.encodeBody {} = .ok x → ∀ constant ∈ x.2.constants.toList,
    constant.textLength ≤ 65535
  length : ∀ bytes, c.encode = .ok bytes → bytes.length < 4294967296

instance {ε α : Type} (r : Except ε α) (P : α → Prop) [DecidablePred P] :
    Decidable (∀ a, r = .ok a → P a) :=
  match r with
  | .ok a => decidable_of_iff (P a) ⟨fun h _ heq => Except.ok.inj heq ▸ h, fun h => h a rfl⟩
  | .error _ => isTrue fun _ heq => nomatch heq

instance (c : ClassDraft) : Decidable c.Fits :=
  decidable_of_iff (c.interfaces.length ≤ 65535 ∧ c.fields.length ≤ 65535 ∧
      c.methods.length ≤ 65535 ∧ (∀ x, c.encodeBody {} = .ok x → x.2.slots ≤ 65534) ∧
      (∀ x, c.encodeBody {} = .ok x → ∀ constant ∈ x.2.constants.toList,
        constant.textLength ≤ 65535) ∧ ∀ bytes, c.encode = .ok bytes → bytes.length < 4294967296)
    ⟨fun ⟨h₁, h₂, h₃, h₄, h₅, h₆⟩ => ⟨h₁, h₂, h₃, h₄, h₅, h₆⟩,
      fun h => ⟨h.interfaces, h.fields, h.methods, h.slots, h.texts, h.length⟩⟩

/-- **What a written class file consists of**: the header, a pool that is read back as a table,
and parts that refer to the table. -/
theorem encode_eq_ok {c : ClassDraft} (hfits : c.Fits) {bytes : List UInt8}
    (h : c.encode = .ok bytes) :
    ∃ (pool : PoolBuilder) (parts : ClassParts), parts.Valid c.vocabulary pool.table c ∧
      pool.table.entries.size ≤ 65536 ∧
      (∀ pos, ConstantPool.read.Yields pos pool.encode (.ok pool.table)) ∧
      bytes = Binary.u4 0xcafebabe ++ Binary.u2 0 ++ Binary.u2 c.majorVersion ++ pool.encode ++
        parts.bytes c.access := by
  obtain ⟨⟨body, pool⟩, hbody, heq⟩ := except_bind_eq_ok.mp h
  obtain rfl := Except.ok.inj heq
  have hslots : pool.slots ≤ 65534 := hfits.slots _ hbody
  obtain ⟨hgrows, hpost⟩ := writes_encodeBody (fun m hm s => known_of_mem hm) {} body pool hbody
  obtain ⟨parts, hparts, rfl⟩ := hpost sound_empty hslots
  have hsound := hgrows.sound hslots sound_empty
  have hfits' : ∀ constant ∈ pool.constants.toList, constant.Fits := by
    intro constant hconstant
    obtain ⟨text, rfl⟩ | hok := hsound.fits constant hconstant
    · exact Nat.lt_succ_of_le (hfits.texts _ hbody _ hconstant)
    · exact hok
  refine ⟨pool, parts, hparts, ?_, fun pos => ?_, rfl⟩
  · rw [size_table]
    omega
  · exact PoolBuilder.yields_read hsound.next_eq hslots hfits' hsound.checked pos

end ClassDraft

end ClassAudit
