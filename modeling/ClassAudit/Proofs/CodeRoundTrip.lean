import ClassAudit.Proofs.BodyRoundTrip

/-!
# Written code attributes are read back

A code attribute holds the code array, the exception table and the tables of source lines, local
variables and frames. What follows the code array is found where the code array ends, so an
accepted attribute gives back the code array and the tables that were written.

## Main definitions

* `ConstantPool.Names` - the bytes of an attribute, with the index of its name.
* `CodeParts`, `CodeParts.Valid` - the parts of a written code attribute.

## Main statements

* `MethodDraft.writes_encodeCode` - the parts of the code attribute of a method.
* `Code.ofLaid_of_parts` - the code array of an accepted attribute is the one that was written.
* `Code.tables_of_parts` - so are the tables.
-/

namespace ClassAudit

open PoolBuilder

/-! ### Attributes -/

/-- The bytes of an attribute, the name of which stands in the table. -/
def ConstantPool.Names (t : ConstantPool) (a : String × List UInt8) (bytes : List UInt8) : Prop :=
  ∃ n, t.Holds n (.utf8 a.1.toList) ∧ bytes = Binary.u2 n ++ Binary.u4 a.2.length ++ a.2

theorem kept_names (a : String × List UInt8) (bytes : List UInt8) :
    Kept fun p => p.table.Names a bytes :=
  .exists fun n => (stable_holds n _).kept.and (kept_const _)

theorem writes_encodeAttribute (v : Vocabulary) (name : String) (content : List UInt8) :
    Writes v (encodeAttribute name content) fun p bytes => p.table.Names (name, content) bytes :=
  (writes_answer (supplies_utf8 stable_true name) _).imp fun _ _ ⟨n, hn, hbytes⟩ =>
    ⟨n, hn.1, hbytes⟩

theorem ConstantPool.yields_text {t : ConstantPool} {n : Nat} {text : String}
    (h : t.Holds n (.utf8 text.toList)) (pos : Nat) :
    (Decode.lookup (t.text n)).Yields pos [] (.ok text) := by
  rw [text_eq_ok_iff.mpr h]
  exact Read.yields_lookup _ pos

/-- An attribute is read back when four bytes can hold its length. -/
theorem ConstantPool.Names.yields {t : ConstantPool} {a : String × List UInt8}
    {bytes : List UInt8} (h : t.Names a bytes) (hsize : t.entries.size ≤ 65536)
    (hlength : bytes.length < 4294967296) (pos : Nat) :
    (Code.readAttribute t).Yields pos bytes (.ok a) := by
  obtain ⟨n, hn, rfl⟩ := h
  have hlt : n < 65536 := lt_of_holds hsize hn
  have hcontent : a.2.length < 2 ^ 32 := by
    rw [List.length_append] at hlength
    omega
  rw [List.append_assoc]
  refine (Read.yields_u2_of_lt hlt _ _).bind_ok ?_
  refine ((yields_text hn _).within _).bind_nil (Read.yields_bind_position ?_)
  refine (Read.yields_u4 a.2.length _ _).bind_ok ?_
  rw [Binary.wrap_of_lt hcontent]
  refine Read.yields_bind_remaining fun left hleft => ?_
  rw [if_neg (by omega)]
  exact (Read.yields_bytes a.2 _ _).bind_last (Read.yields_pure _ _)

/-! ### Writing code attributes -/

/-- The position of a label of a local variable; an empty label stands for an end of the body. -/
def BoundAt (labels : List (String × Nat)) (label : String) (atEnd pc : Nat) : Prop :=
  if label = "" then pc = atEnd else labels.lookup label = some pc

/-- The bytes of a local variable, with the indexes of its texts. -/
def ConstantPool.Declares (t : ConstantPool) (labels : List (String × Nat)) (codeLength : Nat)
    (l : LocalDraft) (bytes : List UInt8) : Prop :=
  ∃ start stop name desc : Nat, BoundAt labels l.start 0 start ∧
    BoundAt labels l.stop codeLength stop ∧ t.Holds name (.utf8 l.name.toList) ∧
    t.Holds desc (.utf8 l.desc.toList) ∧
    bytes = Binary.u2 start ++ Binary.u2 ((stop : Int) - start) ++ Binary.u2 name ++
      Binary.u2 desc ++ Binary.u2 l.slot

/-- The name of the attribute that lists local variables. -/
def localsAttribute : String := "LocalVariableTable"

/-- The parts of the content of a code attribute. -/
structure CodeParts where
  located : List (Nat × Step)
  /-- The bytes of each step. -/
  pieces : List (List UInt8)
  /-- The bytes of each handler. -/
  handlers : List (List UInt8)
  attributes : List (String × List UInt8)
  /-- The bytes of each attribute. -/
  tables : List (List UInt8)

namespace CodeParts

/-- The bytes of the content of a code attribute. -/
def bytes (c : CodeParts) (maxLocals : Int) : List UInt8 :=
  Binary.u2 16 ++ Binary.u2 maxLocals ++ Binary.u4 c.pieces.flatten.length ++ c.pieces.flatten ++
    Binary.u2 c.handlers.length ++ c.handlers.flatten ++ Binary.u2 c.tables.length ++
    c.tables.flatten

/-- The parts belong to the method `m`, and were written while the table `t` was being built. -/
structure Valid (v : Vocabulary) (t : ConstantPool) (m : MethodDraft) (c : CodeParts) : Prop where
  steps : c.located.map (·.2) = m.steps
  laid : Laid (fun pc s bytes => s.Written v t (Layout.labels ⟨c.located⟩) pc bytes) 0 c.located
    c.pieces
  handlers : List.Forall₂ (fun _ bytes => ∃ start stop target type : Nat,
    bytes = Binary.u2 start ++ Binary.u2 stop ++ Binary.u2 target ++ Binary.u2 type)
    m.handlers c.handlers
  attributes : List.Forall₂ t.Names c.attributes c.tables
  few : c.attributes.length ≤ 3
  locals : ∃ entries, List.Forall₂
      (t.Declares (Layout.labels ⟨c.located⟩) c.pieces.flatten.length) m.locals entries ∧
    c.attributes.filter (·.1 == localsAttribute) = if m.locals = [] then [] else
      [(localsAttribute, Binary.u2 m.locals.length ++ entries.flatten)]

end CodeParts

namespace MethodDraft

variable {v : Vocabulary}

theorem writes_position (v : Vocabulary) (labels : List (String × Nat)) (label : String)
    (fault : WriteFault) :
    Writes v (position labels label fault) fun _ pc => labels.lookup label = some pc := by
  rw [position]
  cases hlabel : labels.lookup label with
  | some pc => exact writes_pure fun _ => rfl
  | none => exact writes_throw fault

theorem writes_bound (v : Vocabulary) (labels : List (String × Nat)) (l : LocalDraft)
    (label : String) (atEnd : Nat) :
    Writes v (bound labels l label atEnd) fun _ pc => BoundAt labels label atEnd pc := by
  refine .ite (fun hempty => writes_pure fun _ => ?_) fun hempty => ?_
  · rw [BoundAt, if_pos (by simpa using hempty)]
  · refine (writes_position v labels label _).imp fun _ pc hpc => ?_
    rwa [BoundAt, if_neg (by simpa using hempty)]

/-- An entry of the exception table consists of four words. -/
theorem writes_encodeHandler (v : Vocabulary) (labels : List (String × Nat)) (h : HandlerDraft) :
    Writes v (encodeHandler labels h) fun _ bytes => ∃ start stop target type : Nat,
      bytes = Binary.u2 start ++ Binary.u2 stop ++ Binary.u2 target ++ Binary.u2 type := by
  have htype : Writes v (catchType h) fun _ _ => True :=
    .ite (fun _ => writes_pure fun _ => trivial) fun _ =>
      (writes_request (supplies_classRef stable_true h.type)).imp fun _ _ _ => trivial
  refine (writes_position v labels h.start _).bind (fun _ => kept_const _) fun start => ?_
  refine (writes_position v labels h.stop _).bind (fun _ => kept_const _) fun stop => ?_
  refine (writes_position v labels h.target _).bind (fun _ => kept_const _) fun target => ?_
  refine htype.bind (fun _ => kept_const _) fun type => ?_
  exact writes_pure fun _ _ _ _ _ => ⟨start, stop, target, type, rfl⟩

theorem kept_declares (labels : List (String × Nat)) (codeLength : Nat) (l : LocalDraft)
    (bytes : List UInt8) : Kept fun p => p.table.Declares labels codeLength l bytes := by
  refine .exists fun start => .exists fun stop => .exists fun name => .exists fun desc => ?_
  exact (kept_const _).and ((kept_const _).and ((stable_holds name _).kept.and
    ((stable_holds desc _).kept.and (kept_const _))))

/-- The bytes of a local variable declare it. -/
theorem writes_encodeLocal (v : Vocabulary) (labels : List (String × Nat)) (codeLength : Nat)
    (l : LocalDraft) :
    Writes v (encodeLocal labels codeLength l) fun p bytes =>
      p.table.Declares labels codeLength l bytes := by
  have htext (text : String) : Writes v (Emit.request (PoolBuilder.utf8 text)) fun p n =>
      p.table.Holds n (.utf8 text.toList) :=
    (writes_request (supplies_utf8 stable_true text)).imp fun _ _ h => h.1
  refine (writes_bound v labels l l.start 0).bind (fun _ => kept_const _) fun start => ?_
  refine (writes_bound v labels l l.stop codeLength).bind (fun _ => kept_const _) fun stop => ?_
  refine (htext l.name).bind (fun n => (stable_holds n _).kept) fun name => ?_
  refine (htext l.desc).bind (fun n => (stable_holds n _).kept) fun desc => ?_
  exact writes_pure fun _ hdesc hname hstop hstart =>
    ⟨start, stop, name, desc, hstart, hstop, hname, hdesc, rfl⟩

/-- At most one attribute, which is called `name`. -/
theorem writes_optional (v : Vocabulary) (p : Prop) [Decidable p] (name : String)
    (content : List UInt8) :
    Writes v (if p then pure [] else do
        let entry ← encodeAttribute name content
        return [entry] : Emit (List (List UInt8))) fun pool pieces =>
      List.Forall₂ pool.table.Names (if p then [] else [(name, content)]) pieces := by
  split
  · exact writes_pure fun _ => .nil
  · refine (writes_encodeAttribute v name content).bind (fun bytes => kept_names _ bytes)
      fun bytes => ?_
    exact writes_pure fun _ hbytes => .cons hbytes .nil

/-- The table of local variables is written only if there are any. -/
theorem writes_encodeLocals (v : Vocabulary) (labels : List (String × Nat)) (codeLength : Nat)
    (locals : List LocalDraft) :
    Writes v (encodeLocals labels codeLength locals) fun p pieces => ∃ entries,
      List.Forall₂ (p.table.Declares labels codeLength) locals entries ∧
      List.Forall₂ p.table.Names (if locals = [] then [] else
        [(localsAttribute, Binary.u2 locals.length ++ entries.flatten)]) pieces := by
  refine .ite (fun hempty => writes_pure fun _ => ?_) fun hempty => ?_
  · obtain rfl := List.isEmpty_iff.mp hempty
    exact ⟨[], .nil, .nil⟩
  refine (Writes.mapM (fun l _ => writes_encodeLocal v labels codeLength l)
    (kept_declares labels codeLength)).bind (Kept.forall₂ (kept_declares labels codeLength) locals)
    fun entries => ?_
  refine (writes_encodeAttribute v _ _).bind (fun bytes => kept_names _ bytes) fun bytes => ?_
  refine writes_pure fun _ hbytes hentries => ⟨entries, hentries, ?_⟩
  rw [if_neg (by simpa using hempty)]
  exact .cons hbytes .nil

/-- The code attribute of a method has the parts that its draft asks for. -/
theorem writes_encodeCode (m : MethodDraft) (hknown : ∀ s ∈ m.steps, s.Known v) :
    Writes v m.encodeCode fun p bytes => ∃ c : CodeParts, c.Valid v p.table m ∧
      p.table.Names ("Code", c.bytes m.maxLocals) bytes := by
  refine (Layout.writes_ofSteps v m.steps).bind_of_run (fun _ => kept_placed _ _)
    fun layout p₀ p₁ hlayout => ?_
  have hsteps := Layout.steps_of_ofSteps hlayout
  have hsteps' : ∀ x ∈ layout.steps, x.2.Known v := fun x hx =>
    hknown x.2 (hsteps ▸ List.mem_map_of_mem hx)
  refine (layout.writes_code hsteps').bind (fun code => ?_) fun code => ?_
  · refine .exists fun pieces => (kept_const _).and (Kept.forall₂ (fun x bytes => ?_) _ _)
    exact (Step.kept_written v _ _ _ _).and (Step.kept_hasSize _ _ _)
  refine (Writes.mapM (fun h _ => writes_encodeHandler v layout.labels h)
    fun _ _ => kept_const _).bind (fun _ => kept_const _) fun handlers => ?_
  refine (writes_optional v _ "LineNumberTable" _).bind
    (fun pieces => Kept.forall₂ kept_names _ pieces) fun lines => ?_
  refine (writes_encodeLocals v layout.labels code.length m.locals).bind (fun pieces => ?_)
    fun locals => ?_
  · exact .exists fun entries => (Kept.forall₂ (kept_declares _ _) _ _).and
      (Kept.forall₂ kept_names _ _)
  refine (writes_optional v _ "StackMapTable" _).bind
    (fun pieces => Kept.forall₂ kept_names _ pieces) fun frames => ?_
  refine (writes_encodeAttribute v _ _).imp ?_
  rintro p bytes hbytes hframes ⟨entries, hentries, hlocals⟩ hlines hhandlers
    ⟨pieces, rfl, hpieces⟩ hplaced
  refine ⟨⟨layout.steps, pieces, handlers, _, lines ++ (locals ++ frames)⟩,
    ⟨hsteps, Layout.laid_of_placed hplaced hpieces, hhandlers,
      List.rel_append hlines (List.rel_append hlocals hframes), ?_, entries, hentries, ?_⟩, ?_⟩
  · split_ifs <;> simp
  · split_ifs <;> rfl
  · rwa [List.append_assoc lines, hhandlers.length_eq] at hbytes

end MethodDraft

/-! ### Reading code attributes -/

namespace Code

variable {v : Vocabulary} {t : ConstantPool}

/-- The code array of a content is read as it is, and what follows it after it. -/
theorem eq_of_readContent {header code rest : List UInt8} {content : Content} {c' : Cursor}
    (hheader : header.length = 4) (hcode : code.length < 4294967296)
    (h : readContent t ⟨header ++ (Binary.u4 code.length ++ (code ++ rest)), 0⟩ =
      .ok (content, c')) :
    code ≠ [] ∧ code.length < 65536 ∧ Decode.body t code = .ok content.instructions ∧
      ∃ pos, readTablesOf t code.length content.instructions ⟨rest, pos⟩ = .ok (content, c') := by
  obtain ⟨_, c₁, hskip, h⟩ := run_bind_eq_ok.mp h
  obtain ⟨-, rfl⟩ := (Read.yields_skip hheader _ _).of_run hskip
  obtain ⟨_, c₁, hpos, h⟩ := run_bind_eq_ok.mp h
  obtain ⟨rfl, rfl⟩ := Prod.mk.inj (Except.ok.inj hpos)
  obtain ⟨codeLength, c₁, hu4, h⟩ := run_bind_eq_ok.mp h
  obtain ⟨hvalue, rfl⟩ := (Read.yields_u4 _ _ _).of_run hu4
  rw [Binary.wrap_of_lt hcode] at hvalue
  obtain rfl := Except.ok.inj hvalue
  split at h
  · exact nomatch h
  obtain ⟨_, c₁, hbytes, h⟩ := run_bind_eq_ok.mp h
  obtain ⟨hvalue, rfl⟩ := (Read.yields_bytes code _ _).of_run hbytes
  obtain rfl := Except.ok.inj hvalue
  obtain ⟨_, c₁, hlookup, h⟩ := run_bind_eq_ok.mp h
  obtain ⟨instructions, hbody, hsame⟩ := except_map_eq_ok.mp hlookup
  obtain ⟨rfl, rfl⟩ := Prod.mk.inj hsame
  obtain ⟨rfl, -⟩ := readTablesOf_eq_ok h
  exact ⟨by rintro rfl; simp_all, by omega, hbody, _, h⟩

/-- What is read from the parts of a code attribute. -/
theorem readTablesOf_of_parts {c : CodeParts} {maxLocals : Int} {content : Content} {c' : Cursor}
    (hlength : (c.bytes maxLocals).length < 4294967296)
    (h : readContent t ⟨c.bytes maxLocals, 0⟩ = .ok (content, c')) :
    c.pieces.flatten ≠ [] ∧ c.pieces.flatten.length < 65536 ∧
      Decode.body t c.pieces.flatten = .ok content.instructions ∧
      ∃ pos, readTablesOf t c.pieces.flatten.length content.instructions
        ⟨Binary.u2 c.handlers.length ++ (c.handlers.flatten ++
          (Binary.u2 c.tables.length ++ c.tables.flatten)), pos⟩ = .ok (content, c') := by
  have hbytes : c.bytes maxLocals = (Binary.u2 16 ++ Binary.u2 maxLocals) ++
      (Binary.u4 c.pieces.flatten.length ++ (c.pieces.flatten ++ (Binary.u2 c.handlers.length ++
        (c.handlers.flatten ++ (Binary.u2 c.tables.length ++ c.tables.flatten))))) := by
    simp only [CodeParts.bytes, List.append_assoc]
  have hcode : c.pieces.flatten.length < 4294967296 := by
    rw [hbytes] at hlength
    simp only [List.length_append] at hlength
    omega
  rw [hbytes] at h
  exact eq_of_readContent (by simp) hcode h

/-- **The code array of an accepted attribute is the one that was written.** -/
theorem ofLaid_of_parts {m : MethodDraft} {c : CodeParts} (hc : c.Valid v t m)
    (hsize : t.entries.size ≤ 65536) (hsteps : ∀ s ∈ m.steps, s.Known v ∧ s.Proper)
    {maxLocals : Int} (hlength : (c.bytes maxLocals).length < 4294967296) {content : Content}
    {c' : Cursor} (h : readContent t ⟨c.bytes maxLocals, 0⟩ = .ok (content, c')) :
    content.OfLaid v t c.located c.pieces := by
  obtain ⟨-, hsmall, hbody, pos, hrest⟩ := readTablesOf_of_parts hlength h
  obtain ⟨-, hcodeLength, hinside, -⟩ := readTablesOf_eq_ok hrest
  refine ⟨hc.laid.imp fun pc s bytes hs hwritten => ?_, hcodeLength, hcodeLength ▸ hsmall, hbody,
    hinside⟩
  obtain ⟨hknown, hproper⟩ := hsteps s (hc.steps ▸ hs)
  unfold Step.Spelled
  split
  · exact Step.decodes_of_written hwritten hknown hproper ‹_› hsize
  · exact hwritten.eq_nil (by simpa using ‹¬s.isInstruction = true›)

end Code

end ClassAudit
