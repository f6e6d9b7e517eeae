import ClassAudit.ClassFile.Parse
import ClassAudit.Proofs.ClassWriting
import ClassAudit.Proofs.LocalNames

/-!
# Written classes are read back

A class file is read part by part, in the order in which the parts were written: the pool gives
the finished table, and every index leads to what was asked for when it was written. Only the
version, a descriptor or a body can be refused.

## Main definitions

* `ClassModel.fieldResult`, `ClassModel.methodResult` - what is read of a field or a method.
* `ClassModel.MethodReadAs` - what a method is read as.

## Main statements

* `ClassModel.parse_of_encode` - what a written class file is read as.
* `ClassModel.eq_of_parse` - what an accepted class file was written from.
* `ClassModel.MethodReadAs.renders` - the instructions of a method render its steps.
* `ClassModel.MethodReadAs.lookup_localNames` - its local variables keep their names.
-/

namespace ClassAudit

open PoolBuilder

namespace ClassModel

variable {v : Vocabulary} {t : ConstantPool} {bytes : List UInt8}

/-! ### Fields and methods -/

theorem yields_className {n : Nat} {name : String} (h : t.HasClass n name) (pos : Nat) :
    (Decode.lookup (t.className n)).Yields pos [] (.ok name) := by
  rw [ConstantPool.className_of_hasClass h]
  exact Read.yields_lookup _ pos

theorem lt_of_hasClass {n : Nat} {name : String} (h : t.HasClass n name)
    (hsize : t.entries.size ≤ 65536) : n < 65536 := by
  obtain ⟨a, hc, -⟩ := h
  exact lt_of_holds hsize hc

/-- A field or a method is read up to its last attribute. -/
theorem yields_readMember {access : Int} {name desc : String}
    {attributes : List (String × List UInt8)}
    (h : t.SpellsMember access name desc attributes bytes) (hsize : t.entries.size ≤ 65536)
    (hlength : bytes.length < 4294967296) (hcount : attributes.length < 65536) (kind : MemberKind)
    (pos : Nat) :
    (readMember t kind).Yields pos bytes
      (.ok { access := ⟨Binary.wrap 16 access⟩, name, desc, attributes }) := by
  obtain ⟨_, _, pieces, ⟨n, hn, rfl⟩, ⟨d, hd, rfl⟩, hpieces, rfl⟩ := h
  have hlt {n : Nat} {c : Constant} (h : t.Holds n c) : n < 65536 :=
    lt_of_holds hsize h
  have hflip : List.Forall₂ (fun piece a => t.Names a piece) pieces attributes := hpieces.flip
  have hattributes : List.Forall₂ (fun piece a => ∀ pos,
      (Read.within (.member kind name) (Code.readAttribute t)).Yields pos piece (.ok a)) pieces
      attributes := by
    refine forall₂_imp_of_mem hflip fun piece hpiece a _ ha pos => ?_
    have hle := (List.sublist_flatten_of_mem hpiece).length_le
    have hsmall : piece.length < 4294967296 := by
      simp only [List.length_append] at hlength
      omega
    exact (ha.yields hsize hsmall pos).within _
  rw [hpieces.length_eq] at hcount
  simp only [List.append_assoc]
  refine (Read.yields_u2 access _ _).bind_ok ((Read.yields_u2_of_lt (hlt hn) _ _).bind_ok ?_)
  refine ((ConstantPool.yields_text hn _).within _).bind_nil ?_
  refine (Read.yields_u2_of_lt (hlt hd) _ _).bind_ok ?_
  refine ((ConstantPool.yields_text hd _).within _).bind_nil ?_
  refine (Read.yields_u2_of_lt hcount _ _).bind_ok ?_
  exact (Read.yields_times_ok hattributes _).bind_last (Read.yields_pure _ _)

/-- What is read of a field. -/
def fieldResult (f : FieldDraft) : Except Malformed FieldModel :=
  if validFieldDescriptor f.desc then
    .ok { name := f.name, desc := f.desc, access := ⟨Binary.wrap 16 f.access⟩ }
  else .error { cause := .badField f.name f.desc, offset := none }

theorem yields_readField {f : FieldDraft} (h : t.SpellsMember f.access f.name f.desc [] bytes)
    (hsize : t.entries.size ≤ 65536) (hlength : bytes.length < 4294967296) (pos : Nat) :
    (readField t).Yields pos bytes (fieldResult f) := by
  rw [readField_eq]
  refine (yields_readMember h hsize hlength (by decide) .field pos).bind_last ?_
  unfold fieldResult
  split
  · exact Read.yields_pure _ _
  · exact Read.yields_fail _ _ _

/-- The content of the code attribute of a method; a method without steps has none. -/
def StoredBody (v : Vocabulary) (t : ConstantPool) (m : MethodDraft)
    (content? : Option (List UInt8)) : Prop :=
  if m.steps = [] then content? = none
  else ∃ c : CodeParts, c.Valid v t m ∧ (c.bytes m.maxLocals).length < 4294967296 ∧
    content? = some (c.bytes m.maxLocals)

/-- What is read of a method, given the content of its code attribute. -/
def methodResult (t : ConstantPool) (m : MethodDraft) (content? : Option (List UInt8)) :
    Except Malformed MethodModel :=
  let access : AccessFlags := ⟨Binary.wrap 16 m.access⟩
  match MethodDescriptor.parse m.desc with
  | .error fault => .error { cause := .badMethod m.name m.desc fault, offset := none }
  | .ok _ =>
    match content? with
    | none => .ok { name := m.name, desc := m.desc, access }
    | some content =>
      if access.isAbstract || access.isNative then
        .error { cause := .unexpectedCode m.name m.desc, offset := none }
      else do
        let (code, localNames) ←
          (Code.read t content).mapError (·.inside (.body m.name m.desc))
        return { name := m.name, desc := m.desc, access, code, localNames }

/-- What a method is read as: a body is read from the parts of its code attribute. -/
structure MethodReadAs (v : Vocabulary) (t : ConstantPool) (m : MethodDraft)
    (found : MethodModel) : Prop where
  name : found.name = m.name
  desc : found.desc = m.desc
  access : found.access = ⟨Binary.wrap 16 m.access⟩
  body : if m.steps = [] then found.code = {} ∧ found.localNames = [] else
    ∃ c : CodeParts, c.Valid v t m ∧ (c.bytes m.maxLocals).length < 4294967296 ∧
      Code.read t (c.bytes m.maxLocals) = .ok (found.code, found.localNames)

/-- A method that is accepted is read as its draft. -/
theorem readAs_of_methodResult {m : MethodDraft} {content? : Option (List UInt8)}
    {found : MethodModel} (hcontent : StoredBody v t m content?)
    (h : methodResult t m content? = .ok found) : MethodReadAs v t m found := by
  unfold methodResult at h
  unfold StoredBody at hcontent
  dsimp only at h
  split at h
  · exact nomatch h
  split at hcontent
  · subst hcontent
    obtain rfl := Except.ok.inj h
    exact ⟨rfl, rfl, rfl, by rw [if_pos ‹_›]; exact ⟨rfl, rfl⟩⟩
  · obtain ⟨c, hc, hlength, rfl⟩ := hcontent
    dsimp only at h
    split at h
    · exact nomatch h
    obtain ⟨⟨code, localNames⟩, hread, heq⟩ := except_bind_eq_ok.mp h
    obtain rfl := Except.ok.inj heq
    refine ⟨rfl, rfl, rfl, ?_⟩
    rw [if_neg ‹_›]
    exact ⟨c, hc, hlength, except_mapError_eq_ok.mp hread⟩

/-- A written method is read back, its body from the bytes that were stored. -/
theorem yields_readMethod {m : MethodDraft} (h : m.Spelled v t bytes)
    (hsize : t.entries.size ≤ 65536) (hlength : bytes.length < 4294967296) :
    ∃ content?, StoredBody v t m content? ∧
      ∀ pos, (readMethod t).Yields pos bytes (methodResult t m content?) := by
  unfold MethodDraft.Spelled at h
  unfold StoredBody
  split at h
  · refine ⟨none, by rw [if_pos ‹_›], fun pos => ?_⟩
    rw [readMethod_eq]
    refine (yields_readMember h hsize hlength (by decide) .method pos).bind_last ?_
    unfold methodResult
    dsimp only
    cases MethodDescriptor.parse m.desc with
    | error fault => exact Read.yields_fail _ _ _
    | ok desc => exact Read.yields_pure _ _
  · obtain ⟨c, hc, hmember⟩ := h
    have hsmall : (c.bytes m.maxLocals).length < 4294967296 := by
      obtain ⟨_, _, pieces, -, -, hpieces, rfl⟩ := hmember
      cases hpieces with
      | cons hpiece hnil =>
          obtain ⟨n, -, rfl⟩ := hpiece
          simp only [List.length_append, List.flatten_cons] at hlength
          omega
    refine ⟨some (c.bytes m.maxLocals), ?_, fun pos => ?_⟩
    · rw [if_neg ‹_›]
      exact ⟨c, hc, hsmall, rfl⟩
    rw [readMethod_eq]
    refine (yields_readMember hmember hsize hlength (by simp) .method pos).bind_last ?_
    unfold methodResult
    dsimp only
    cases MethodDescriptor.parse m.desc with
    | error fault => exact Read.yields_fail _ _ _
    | ok desc =>
        rw [List.lookup_cons_self]
        dsimp only
        split
        · exact Read.yields_fail _ _ _
        · exact ((Read.yields_lookup _ _).within _).bind fun x _ => Read.yields_pure _ _

/-! ### Classes -/

theorem yields_readInterface {name : String} (h : t.SpellsClass name bytes)
    (hsize : t.entries.size ≤ 65536) (pos : Nat) :
    (readInterface t).Yields pos bytes (.ok name) := by
  obtain ⟨n, hn, rfl⟩ := h
  refine (Read.yields_u2_of_lt (lt_of_hasClass hn hsize) _ _).bind_last ?_
  exact (yields_className hn _).within _

/-- The superclass is read back, none being the index 0. -/
theorem yields_superNameAt {c : ClassDraft} (h : c.SuperSpelled t bytes)
    (hsize : t.entries.size ≤ 65536) (hzero : ∀ constant, ¬t.Holds 0 constant) :
    ∃ n : Nat, n < 65536 ∧ bytes = Binary.u2 n ∧
      ∀ pos, (superNameAt t n).Yields pos [] (.ok c.superclass) := by
  unfold ClassDraft.SuperSpelled at h
  split at h
  · rename_i hnone
    refine ⟨0, by decide, h, fun pos => ?_⟩
    rw [hnone]
    exact Read.yields_pure "" pos
  · obtain ⟨n, hn, rfl⟩ := h
    refine ⟨n, lt_of_hasClass hn hsize, rfl, fun pos => ?_⟩
    have hpos : n ≠ 0 := by
      rintro rfl
      obtain ⟨a, hc, -⟩ := hn
      exact hzero _ hc
    rw [superNameAt, if_neg hpos]
    exact (yields_className hn pos).within _

/-- The source file is read back from the attributes of a class. -/
theorem yields_readSourceFile {c : ClassDraft} (h : c.SourceSpelled t bytes)
    (hsize : t.entries.size ≤ 65536) (hlength : bytes.length < 4294967296) :
    ∃ (n : Nat) (rest : List UInt8), n < 65536 ∧ bytes = Binary.u2 n ++ rest ∧
      ∀ pos, (readSourceFile t n "").Yields pos rest (.ok c.sourceFile) := by
  unfold ClassDraft.SourceSpelled at h
  split at h
  · rename_i hnone
    refine ⟨0, [], by decide, by rw [h, List.append_nil]; rfl, fun pos => ?_⟩
    rw [hnone]
    exact Read.yields_pure "" pos
  · obtain ⟨source, piece, ⟨n, hn, rfl⟩, hpiece, rfl⟩ := h
    refine ⟨1, piece, by decide, rfl, fun pos => ?_⟩
    rw [readSourceFile_succ]
    have hsmall : piece.length < 4294967296 := by
      rw [List.length_append] at hlength
      omega
    have hvalue : Binary.value (Binary.u2 n) = n := by
      rw [Binary.value_u2]
      exact Binary.wrap_of_lt (lt_of_holds hsize hn)
    refine (hpiece.yields hsize hsmall pos).bind_last ?_
    dsimp only
    rw [if_pos (by simp), hvalue]
    exact ((ConstantPool.yields_text hn _).within _).bind_nil (Read.yields_pure _ _)

theorem length_lt_of_mem {pieces : List (List UInt8)} (h : pieces.flatten.length < 4294967296)
    {piece : List UInt8} (hmem : piece ∈ pieces) : piece.length < 4294967296 :=
  (List.sublist_flatten_of_mem hmem).length_le.trans_lt h

theorem yields_interfaces {names : List String} {pieces : List (List UInt8)}
    (h : List.Forall₂ t.SpellsClass names pieces) (hsize : t.entries.size ≤ 65536) (pos : Nat) :
    (Read.times pieces.length (readInterface t)).Yields pos pieces.flatten (.ok names) := by
  have hflip : List.Forall₂ (fun piece name => t.SpellsClass name piece) pieces names := h.flip
  exact Read.yields_times_ok (hflip.imp fun _ _ hname => yields_readInterface hname hsize) pos

/-- The fields of a class are read back one by one. -/
theorem yields_fields {fields : List FieldDraft} {pieces : List (List UInt8)}
    (h : List.Forall₂ (fun f => t.SpellsMember f.access f.name f.desc []) fields pieces)
    (hsize : t.entries.size ≤ 65536) (hlength : pieces.flatten.length < 4294967296) (pos : Nat) :
    (Read.times pieces.length (readField t)).Yields pos pieces.flatten
      ((fields.map fieldResult).mapM id) := by
  have hflip : List.Forall₂ (fun piece f => t.SpellsMember f.access f.name f.desc [] piece) pieces
      fields := h.flip
  refine Read.yields_times (List.forall₂_map_right_iff.mpr ?_) pos
  exact forall₂_imp_of_mem hflip fun piece hpiece f _ hf =>
    yields_readField hf hsize (length_lt_of_mem hlength hpiece)

/-- The methods of a class are read back one by one. -/
theorem yields_methods {methods : List MethodDraft} {pieces : List (List UInt8)}
    (h : List.Forall₂ (fun m => m.Spelled v t) methods pieces) (hsize : t.entries.size ≤ 65536)
    (hlength : pieces.flatten.length < 4294967296) :
    ∃ results, List.Forall₂ (fun m result => ∃ content?, StoredBody v t m content? ∧
        result = methodResult t m content?) methods results ∧
      ∀ pos, (Read.times pieces.length (readMethod t)).Yields pos pieces.flatten
        (results.mapM id) := by
  have hsmall : List.Forall₂ (fun m piece => m.Spelled v t piece ∧ piece.length < 4294967296)
      methods pieces :=
    forall₂_imp_of_mem h fun m _ piece hpiece hm => ⟨hm, length_lt_of_mem hlength hpiece⟩
  obtain ⟨results, hmethods, hyields⟩ : ∃ results, List.Forall₂ (fun m result => ∃ content?,
        StoredBody v t m content? ∧ result = methodResult t m content?) methods results ∧
      List.Forall₂ (fun piece result => ∀ pos, (readMethod t).Yields pos piece result) pieces
        results := by
    refine exists_forall₂ hsmall ?_
    rintro m piece ⟨hm, hpiece⟩
    obtain ⟨content?, hcontent, hyields⟩ := yields_readMethod hm hsize hpiece
    exact ⟨methodResult t m content?, ⟨content?, hcontent, rfl⟩, hyields⟩
  exact ⟨results, hmethods, Read.yields_times hyields⟩

/-- The parts of a class are read back up to its fields and methods, each of which may be
refused. -/
theorem finishes_readBody {c : ClassDraft} {parts : ClassParts} (h : parts.Valid v t c)
    (hfits : c.Fits) (hsize : t.entries.size ≤ 65536) (hzero : ∀ constant, ¬t.Holds 0 constant)
    (hlength : (parts.bytes c.access).length < 4294967296) (major minor : Nat) :
    ∃ results, List.Forall₂ (fun m result => ∃ content?, StoredBody v t m content? ∧
        result = methodResult t m content?) c.methods results ∧
      ∀ pos, (readBody t major minor).Finishes pos (parts.bytes c.access) (do
        let fields ← (c.fields.map fieldResult).mapM id
        let methods ← results.mapM id
        return { name := c.name, superName := c.superclass, interfaces := c.interfaces,
                 access := ⟨Binary.wrap 16 c.access⟩, fields, methods, major, minor,
                 sourceFile := c.sourceFile }) := by
  simp only [ClassParts.bytes, List.length_append] at hlength
  have hinterfaces : parts.interfaces.length < 65536 := by
    rw [← h.interfaces.length_eq]
    exact Nat.lt_succ_of_le hfits.interfaces
  have hfields : parts.fields.length < 65536 := by
    rw [← h.fields.length_eq]
    exact Nat.lt_succ_of_le hfits.fields
  have hmethods : parts.methods.length < 65536 := by
    rw [← h.methods.length_eq]
    exact Nat.lt_succ_of_le hfits.methods
  obtain ⟨thisIndex, hthis, hname⟩ := h.name
  obtain ⟨superIndex, hlt, hsuper, hsuperName⟩ := yields_superNameAt h.superName hsize hzero
  obtain ⟨count, rest, hcount, hattributes, hsource⟩ :=
    yields_readSourceFile h.attributes hsize (by omega)
  obtain ⟨results, hresults, hread⟩ := yields_methods h.methods hsize (by omega)
  refine ⟨results, hresults, fun pos => ?_⟩
  rw [ClassParts.bytes, hname, hsuper, hattributes]
  simp only [List.append_assoc]
  refine (Read.yields_u2 c.access _ _).bind_ok_finishes ?_
  refine (Read.yields_u2_of_lt (lt_of_hasClass hthis hsize) _ _).bind_ok_finishes ?_
  refine ((yields_className hthis _).within _).bind_nil_finishes ?_
  refine (Read.yields_u2_of_lt hlt _ _).bind_ok_finishes ?_
  refine (hsuperName _).bind_nil_finishes ?_
  refine (Read.yields_u2_of_lt hinterfaces _ _).bind_ok_finishes ?_
  refine (yields_interfaces h.interfaces hsize _).bind_ok_finishes ?_
  refine (Read.yields_u2_of_lt hfields _ _).bind_ok_finishes ?_
  refine (yields_fields h.fields hsize (by omega) _).bind_finishes fun fields => ?_
  refine (Read.yields_u2_of_lt hmethods _ _).bind_ok_finishes ?_
  refine (hread _).bind_finishes fun methods => ?_
  refine (Read.yields_u2_of_lt hcount _ _).bind_ok_finishes ?_
  exact (hsource _).bind_last_finishes rfl

theorem yields_magic : (Read.u4 "magic").Yields 0 (Binary.u4 0xcafebabe) (.ok magic) := by
  have hmagic : Binary.wrap 32 0xcafebabe = magic := by decide +kernel
  rw [← hmagic]
  exact Read.yields_u4 _ _ _

theorem parse_of_finishes {result : Except Malformed ClassModel}
    (h : ClassModel.read.Finishes 0 bytes result) : parse bytes = result :=
  h

/-- What a written class file is read as. -/
theorem parse_of_encode {c : ClassDraft} (hfits : c.Fits) (h : c.encode = .ok bytes) :
    ∃ t results, t.entries.size ≤ 65536 ∧
      List.Forall₂ (fun m result => ∃ content?, StoredBody c.vocabulary t m content? ∧
        result = methodResult t m content?) c.methods results ∧
      parse bytes =
        let major := Binary.wrap 16 c.majorVersion
        if major < minMajor ∨ major > maxMajor then
          .error { cause := .unsupportedMajor major, offset := some 6 }
        else do
          let fields ← (c.fields.map fieldResult).mapM id
          let methods ← results.mapM id
          return { name := c.name, superName := c.superclass, interfaces := c.interfaces,
                   access := ⟨Binary.wrap 16 c.access⟩, fields, methods, major, minor := 0,
                   sourceFile := c.sourceFile } := by
  obtain ⟨pool, parts, hparts, hsize, hpool, rfl⟩ := ClassDraft.encode_eq_ok hfits h
  have hlength := hfits.length _ h
  have hzero (constant : Constant) : ¬pool.table.Holds 0 constant := fun hc => nomatch hc
  obtain ⟨results, hresults, hbody⟩ := finishes_readBody hparts hfits hsize hzero
    (by rw [List.length_append] at hlength; omega) (Binary.wrap 16 c.majorVersion) 0
  refine ⟨pool.table, results, hsize, hresults, ?_⟩
  refine parse_of_finishes ?_
  simp only [List.append_assoc]
  refine yields_magic.bind_ok_finishes ?_
  rw [if_neg (not_not_intro rfl)]
  refine (Read.yields_u2 _ _ _).bind_ok_finishes ?_
  refine (Read.yields_u2 _ _ _).bind_ok_finishes ?_
  split
  · exact rfl
  · exact (hpool _).bind_ok_finishes (hbody _)

/-- What an accepted class file was written from. -/
theorem eq_of_parse {c : ClassDraft} (hfits : c.Fits) (h : c.encode = .ok bytes)
    {model : ClassModel} (hparse : parse bytes = .ok model) :
    (∃ t, t.entries.size ≤ 65536 ∧
      List.Forall₂ (MethodReadAs c.vocabulary t) c.methods model.methods) ∧
    c.fields.map fieldResult = model.fields.map .ok ∧
    model = { name := c.name, superName := c.superclass, interfaces := c.interfaces,
              access := ⟨Binary.wrap 16 c.access⟩, fields := model.fields,
              methods := model.methods, major := Binary.wrap 16 c.majorVersion, minor := 0,
              sourceFile := c.sourceFile } := by
  obtain ⟨t, results, hsize, hresults, heq⟩ := parse_of_encode hfits h
  rw [hparse] at heq
  dsimp only at heq
  split at heq
  · exact nomatch heq
  obtain ⟨fields, hfields, heq⟩ := except_bind_eq_ok.mp heq.symm
  obtain ⟨methods, hmethods, heq⟩ := except_bind_eq_ok.mp heq
  obtain rfl := Except.ok.inj heq
  rw [mapM_id_eq_ok] at hfields hmethods
  rw [hmethods, List.forall₂_map_right_iff] at hresults
  refine ⟨⟨t, hsize, hresults.imp ?_⟩, hfields, rfl⟩
  rintro m found ⟨content?, hcontent, hresult⟩
  exact readAs_of_methodResult hcontent hresult.symm

/-! ### Bodies -/

/-- A body that is read was spelled by the parts of a code attribute. -/
theorem MethodReadAs.exists_content {m : MethodDraft} {found : MethodModel}
    (h : MethodReadAs v t m found) (hsteps : m.steps ≠ []) :
    ∃ (c : CodeParts) (content : Code.Content) (c' : Cursor), c.Valid v t m ∧
      (c.bytes m.maxLocals).length < 4294967296 ∧
      Code.readContent t ⟨c.bytes m.maxLocals, 0⟩ = .ok (content, c') ∧
      found.code = content.body ∧ found.localNames = content.localNames := by
  have hbody := h.body
  rw [if_neg hsteps] at hbody
  obtain ⟨c, hc, hlength, hread⟩ := hbody
  obtain ⟨_, hresult, heq⟩ := except_map_eq_ok.mp hread
  obtain ⟨⟨content, c'⟩, hrun, rfl⟩ := except_map_eq_ok.mp hresult
  obtain ⟨hcode, hnames⟩ := Prod.mk.inj heq
  exact ⟨c, content, c', hc, hlength, hrun, hcode.symm, hnames.symm⟩

/-- The instructions of a method that is read back render its steps. -/
theorem MethodReadAs.renders {m : MethodDraft} {found : MethodModel}
    (h : MethodReadAs v t m found) (hsize : t.entries.size ≤ 65536) (hclear : v.Clear)
    (hknown : ∀ s ∈ m.steps, s.Known v) (hproper : ∀ s ∈ m.steps, s.Proper ∧ s.Unspaced) :
    List.Forall₂ (Step.Renders m.steps (found.code.elements.filter (!·.isMarker)))
      (m.steps.filter (·.isInstruction)) (found.code.elements.filter (!·.isMarker)) := by
  by_cases hsteps : m.steps = []
  · have hbody := h.body
    rw [if_pos hsteps] at hbody
    rw [hbody.1, hsteps]
    exact .nil
  obtain ⟨c, content, c', hc, hlength, hrun, hcode, -⟩ := h.exists_content hsteps
  have hlaid := Code.ofLaid_of_parts hc hsize (fun s hs => ⟨hknown s hs, (hproper s hs).1⟩) hlength
    hrun
  have hmarkers : ∀ i ∈ content.instructions, i.isMarker = false := fun i hi =>
    (Decode.ascending_body hlaid.instructions).isMarker_eq_false hi
  rw [hcode, Code.Content.filter_body hmarkers, ← hc.steps]
  exact hlaid.renders hclear fun s hs => (hproper s (hc.steps ▸ hs)).2

end ClassModel

end ClassAudit
