import ClassAudit.Proofs.ReaderAccesses
import ClassAudit.Proofs.Reading

/-!
# Class files are prefix free

No class file is the beginning of another one. A reader that looks only at the bytes that it
consumes gives the same value whatever follows them; the readers of all parts of a class file are
of this kind, although some of them compare a length with the number of bytes that are left. The
whole file is read up to its end, so whatever follows an accepted file is told as trailing bytes.

## Main definitions

* `Read.Settled` - what the reader gives is settled by the bytes that it consumes.
* `Read.Exhausts` - the reader accepts its input only as a whole.

## Main statements

* `Read.Settled.bind`, `Read.Settled.bind_exhausts` - one reader after the other.
* `Code.settled_readAttribute` - the bound of an attribute does not depend on what follows it.
* `ClassModel.parse_prefix_free` - an accepted file with further bytes behind it, or without some
  of its last bytes, is refused.
-/

namespace ClassAudit

namespace Read

variable {α β : Type}

/-! ### Readers that look at nothing but what they consume -/

/-- Wherever the reader succeeds, its value is settled by the bytes that it consumes. -/
def Settled (r : Read α) : Prop :=
  ∀ c a c', r c = .ok (a, c') → ∃ bytes, c.rest = bytes ++ c'.rest ∧ r.Yields c.pos bytes (.ok a)

/-- A settled reader stops behind the bytes that it consumes. -/
theorem Settled.exists_run {r : Read α} (hr : r.Settled) {c c' : Cursor} {a : α}
    (h : r c = .ok (a, c')) :
    ∃ bytes, c = ⟨bytes ++ c'.rest, c.pos⟩ ∧ c' = ⟨c'.rest, c.pos + bytes.length⟩ ∧
      r.Yields c.pos bytes (.ok a) := by
  obtain ⟨bytes, hrest, hyields⟩ := hr c a c' h
  have hc : c = ⟨bytes ++ c'.rest, c.pos⟩ := by rw [← hrest]
  rw [hc] at h
  obtain ⟨-, hc'⟩ := hyields.of_run h
  exact ⟨bytes, hc, hc', hyields⟩

theorem settled_pure (a : α) : (pure a : Read α).Settled := by
  rintro c _ _ ⟨⟩
  exact ⟨[], rfl, yields_pure a _⟩

theorem settled_fail (cause : Malformed.Cause) (offset : Option Nat) :
    (Read.fail cause offset : Read α).Settled :=
  fun _ _ _ h => nomatch h

theorem settled_lookup (result : Except Malformed α) : (Decode.lookup result).Settled := by
  intro c a c' h
  obtain ⟨a, rfl, heq⟩ := except_map_eq_ok.mp h
  obtain ⟨rfl, rfl⟩ := Prod.mk.inj heq
  exact ⟨[], rfl, yields_lookup _ _⟩

theorem settled_position : Read.position.Settled := by
  rintro c _ _ ⟨⟩
  exact ⟨[], rfl, fun _ => rfl⟩

theorem settled_bytes (n : Nat) (item : String) : (Read.bytes n item).Settled := by
  intro c taken c' h
  obtain ⟨hrest, rfl, -⟩ := eq_append_of_bytes h
  exact ⟨taken, hrest, yields_bytes taken item c.pos⟩

/-- One settled reader after the other consumes what the two of them consume. -/
theorem Settled.bind {r : Read α} {f : α → Read β} (hr : r.Settled) (hf : ∀ a, (f a).Settled) :
    (r >>= f).Settled := by
  intro c b c' h
  obtain ⟨a, c₁, ha, hb⟩ := run_bind_eq_ok.mp h
  obtain ⟨first, hc, hc₁, hfirst⟩ := hr.exists_run ha
  obtain ⟨second, hrest, hsecond⟩ := hf a c₁ b c' hb
  rw [hc₁] at hsecond
  refine ⟨first ++ second, ?_, hfirst.bind_ok hsecond⟩
  rw [hc, List.append_assoc, ← hrest]

theorem Settled.map {r : Read α} (hr : r.Settled) (f : α → β) : (f <$> r).Settled :=
  hr.bind fun a => settled_pure (f a)

theorem Settled.ite {p : Prop} [Decidable p] {r s : Read α} (hr : r.Settled) (hs : s.Settled) :
    (if p then r else s).Settled := by
  split
  · exact hr
  · exact hs

theorem Settled.within {r : Read α} (hr : r.Settled) (place : Malformed.Place) :
    (Read.within place r).Settled := by
  intro c a c' h
  rw [Read.within, except_mapError_eq_ok] at h
  obtain ⟨bytes, hrest, hyields⟩ := hr c a c' h
  exact ⟨bytes, hrest, hyields.within place⟩

theorem Settled.times {r : Read α} (hr : r.Settled) (n : Nat) : (Read.times n r).Settled := by
  induction n with
  | zero => exact settled_pure []
  | succ n ih => exact hr.bind fun a => ih.bind fun as => settled_pure (a :: as)

theorem settled_word (width : Nat) (item : String) : (Read.word width item).Settled := by
  rw [word_eq]
  exact (settled_bytes width item).map _

theorem settled_u1 (item : String) : (Read.u1 item).Settled := settled_word 1 item

theorem settled_u2 (item : String) : (Read.u2 item).Settled := settled_word 2 item

theorem settled_u4 (item : String) : (Read.u4 item).Settled := settled_word 4 item

/-- Asking for the number of bytes that are left does no harm where the answer only has to be large
enough for what is consumed. -/
theorem settled_bind_remaining {f : Nat → Read β}
    (hf : ∀ c b c', f c.rest.length c = .ok (b, c') → ∃ bytes, c.rest = bytes ++ c'.rest ∧
      ∀ n, bytes.length ≤ n → (f n).Yields c.pos bytes (.ok b)) :
    (Read.remaining >>= f).Settled := by
  intro c b c' h
  obtain ⟨bytes, hrest, hyields⟩ := hf c b c' h
  exact ⟨bytes, hrest, yields_bind_remaining hyields⟩

/-! ### Readers of a whole input -/

/-- Where the reader succeeds, it has met the end of the input: with further bytes it fails and
tells how many they are and where they begin. -/
def Exhausts (r : Read α) : Prop :=
  ∀ c a c', r c = .ok (a, c') → ∀ extra, extra ≠ [] →
    r ⟨c.rest ++ extra, c.pos⟩ =
      .error { cause := .trailing extra.length, offset := some (c.pos + c.rest.length) }

theorem exhausts_fail (cause : Malformed.Cause) (offset : Option Nat) :
    (Read.fail cause offset : Read α).Exhausts :=
  fun _ _ _ h => nomatch h

theorem Exhausts.ite {p : Prop} [Decidable p] {r s : Read α} (hr : r.Exhausts) (hs : s.Exhausts) :
    (if p then r else s).Exhausts := by
  split
  · exact hr
  · exact hs

/-- The last step of reading a whole input: nothing may be left. -/
theorem exhausts_end (a : α) :
    (do
      let left ← Read.remaining
      if left ≠ 0 then Read.fail (.trailing left) (some (← Read.position))
      else return a : Read α).Exhausts := by
  intro c b c' h extra hextra
  obtain ⟨left, c₁, hleft, h⟩ := run_bind_eq_ok.mp h
  obtain ⟨rfl, rfl⟩ := Prod.mk.inj (Except.ok.inj hleft)
  split at h
  · exact nomatch h
  · rename_i hzero
    have hnil : c.rest = [] := List.length_eq_zero_iff.mp (not_not.mp hzero)
    have hlength : extra.length ≠ 0 := mt List.length_eq_zero_iff.mp hextra
    show (if (c.rest ++ extra).length ≠ 0 then
        (Read.position >>= fun pos => Read.fail (.trailing (c.rest ++ extra).length) (some pos))
      else pure a : Read α) ⟨c.rest ++ extra, c.pos⟩ = _
    rw [hnil, List.nil_append, if_pos hlength]
    rfl

/-- A settled reader may come before the reader of the rest of the input. -/
theorem Settled.bind_exhausts {r : Read α} {f : α → Read β} (hr : r.Settled)
    (hf : ∀ a, (f a).Exhausts) : (r >>= f).Exhausts := by
  intro c b c' h extra hextra
  obtain ⟨a, c₁, ha, hb⟩ := run_bind_eq_ok.mp h
  obtain ⟨first, hc, hc₁, hfirst⟩ := hr.exists_run ha
  have hfail := hf a c₁ b c' hb extra hextra
  rw [hc, List.append_assoc]
  show (r ⟨first ++ (c₁.rest ++ extra), c.pos⟩ >>= fun x => f x.1 x.2) = _
  rw [hfirst]
  show f a ⟨c₁.rest ++ extra, c.pos + first.length⟩ = _
  rw [hc₁] at hfail
  rw [hfail, List.length_append, Nat.add_assoc]

end Read

/-! ### The parts of a class file -/

theorem Constant.settled_read (index : Nat) : (Constant.read index).Settled := by
  have hone (make : Nat → Constant) : (Constant.readOne make).Settled :=
    (Read.settled_u2 _).map make
  have htwo (make : Nat → Nat → Constant) : (Constant.readTwo make).Settled :=
    (Read.settled_u2 _).bind fun a => (Read.settled_u2 _).bind fun b => Read.settled_pure (make a b)
  refine Read.settled_position.bind fun start => (Read.settled_u1 _).bind fun tag => ?_
  split
  case h_1 =>
    rw [readText_eq]
    refine (Read.settled_u2 _).bind fun n => (Read.settled_bytes n _).bind fun raw => ?_
    split
    · exact Read.settled_pure _
    · exact Read.settled_fail _ _
  case h_17 =>
    refine (Read.settled_u1 _).bind fun kind => .ite ?_ (Read.settled_fail _ _)
    exact (Read.settled_u2 _).bind fun target => Read.settled_pure _
  case h_18 => exact Read.settled_fail _ _
  case h_2 | h_3 | h_4 | h_5 => exact (Read.settled_bytes _ _).map _
  case h_6 | h_7 | h_8 | h_9 | h_10 => exact hone _
  all_goals exact htwo _

namespace ConstantPool

theorem settled_readEntries (places index : Nat) : (readEntries places index).Settled := by
  fun_induction readEntries places index with
  | case1 => exact Read.settled_pure []
  | case2 index => exact (Constant.settled_read index).bind fun c => Read.settled_pure [some c]
  | case3 places index ihWide ihNarrow =>
      refine (Constant.settled_read index).bind fun c => .ite ?_ ?_
      · exact ihWide.bind fun rest => Read.settled_pure (some c :: none :: rest)
      · exact ihNarrow.bind fun rest => Read.settled_pure (some c :: rest)

theorem settled_read : ConstantPool.read.Settled := by
  rw [read_eq]
  refine Read.settled_position.bind fun start => (Read.settled_u2 _).bind fun count => ?_
  refine .ite (Read.settled_fail _ _) ((settled_readEntries _ _).bind fun entries => ?_)
  dsimp only
  split
  · exact Read.settled_fail _ _
  · exact Read.settled_pure _

end ConstantPool

/-- An attribute is bounded by what is left, but its content is consumed as a whole: what follows it
makes no difference. -/
theorem Code.settled_readAttribute (pool : ConstantPool) : (readAttribute pool).Settled := by
  refine (Read.settled_u2 _).bind fun index => ?_
  refine ((Read.settled_lookup _).within _).bind fun name => ?_
  refine Read.settled_position.bind fun start => ?_
  refine (Read.settled_u4 _).bind fun length => Read.settled_bind_remaining fun c b c' h => ?_
  split at h
  · exact nomatch h
  obtain ⟨content, c₁, hcontent, h⟩ := run_bind_eq_ok.mp h
  obtain ⟨rfl, rfl⟩ := Prod.mk.inj (Except.ok.inj h)
  obtain ⟨hrest, rfl, -⟩ := Read.eq_append_of_bytes hcontent
  refine ⟨content, hrest, fun n hn => ?_⟩
  rw [if_neg (not_lt.mpr hn)]
  exact (Read.yields_bytes content name c.pos).bind_last (Read.yields_pure _ _)

namespace ClassModel

variable (pool : ConstantPool)

theorem settled_readMember (kind : MemberKind) : (readMember pool kind).Settled := by
  refine (Read.settled_u2 _).bind fun access => (Read.settled_u2 _).bind fun nameIndex => ?_
  refine ((Read.settled_lookup _).within _).bind fun name => ?_
  refine (Read.settled_u2 _).bind fun descIndex => ?_
  refine ((Read.settled_lookup _).within _).bind fun desc => ?_
  refine (Read.settled_u2 _).bind fun count => ?_
  refine (((Code.settled_readAttribute pool).within _).times count).bind fun attributes => ?_
  exact Read.settled_pure _

theorem settled_readField : (readField pool).Settled := by
  rw [readField_eq]
  exact (settled_readMember pool .field).bind fun _ =>
    .ite (Read.settled_pure _) (Read.settled_fail _ _)

/-- The body of a method is decoded from the content of its attribute alone. -/
theorem settled_readMethod : (readMethod pool).Settled := by
  rw [readMethod_eq]
  refine (settled_readMember pool .method).bind fun m => ?_
  split
  · exact Read.settled_fail _ _
  split
  · exact Read.settled_pure _
  refine .ite (Read.settled_fail _ _) ?_
  exact ((Read.settled_lookup _).within _).bind fun _ => Read.settled_pure _

theorem settled_readSourceFile (n : Nat) (source : String) :
    (readSourceFile pool n source).Settled := by
  induction n generalizing source with
  | zero => exact Read.settled_pure source
  | succ n ih =>
      rw [readSourceFile_succ]
      refine (Code.settled_readAttribute pool).bind fun named => .ite ?_ (ih source)
      exact ((Read.settled_lookup _).within _).bind fun source' => ih source'

theorem settled_readInterface : (readInterface pool).Settled :=
  (Read.settled_u2 _).bind fun _ => (Read.settled_lookup _).within _

theorem settled_superNameAt (index : Nat) : (superNameAt pool index).Settled :=
  .ite (Read.settled_pure "") ((Read.settled_lookup _).within _)

/-- What follows the constant pool is read up to the end of the input. -/
theorem exhausts_readBody (major minor : Nat) : (readBody pool major minor).Exhausts := by
  refine (Read.settled_u2 _).bind_exhausts fun access => ?_
  refine (Read.settled_u2 _).bind_exhausts fun thisIndex => ?_
  refine ((Read.settled_lookup _).within _).bind_exhausts fun name => ?_
  refine (Read.settled_u2 _).bind_exhausts fun superIndex => ?_
  refine (settled_superNameAt pool superIndex).bind_exhausts fun superName => ?_
  refine (Read.settled_u2 _).bind_exhausts fun interfaceCount => ?_
  refine ((settled_readInterface pool).times _).bind_exhausts fun interfaces => ?_
  refine (Read.settled_u2 _).bind_exhausts fun fieldCount => ?_
  refine ((settled_readField pool).times _).bind_exhausts fun fields => ?_
  refine (Read.settled_u2 _).bind_exhausts fun methodCount => ?_
  refine ((settled_readMethod pool).times _).bind_exhausts fun methods => ?_
  refine (Read.settled_u2 _).bind_exhausts fun attributeCount => ?_
  refine (settled_readSourceFile pool attributeCount "").bind_exhausts fun sourceFile => ?_
  exact Read.exhausts_end _

/-- A class file is read up to the end of the input. -/
theorem exhausts_read : ClassModel.read.Exhausts := by
  refine (Read.settled_u4 _).bind_exhausts fun magic' => .ite (Read.exhausts_fail _ _) ?_
  refine (Read.settled_u2 _).bind_exhausts fun minor => ?_
  refine (Read.settled_u2 _).bind_exhausts fun major => .ite (Read.exhausts_fail _ _) ?_
  exact ConstantPool.settled_read.bind_exhausts fun pool => exhausts_readBody pool major minor

/-- Whatever follows an accepted class file is told as trailing bytes. -/
theorem parse_append {data : List UInt8} {model : ClassModel} (h : parse data = .ok model)
    {extra : List UInt8} (hextra : extra ≠ []) :
    parse (data ++ extra) =
      .error { cause := .trailing extra.length, offset := some data.length } := by
  obtain ⟨⟨_, c'⟩, hrun, rfl⟩ := except_map_eq_ok.mp h
  have hfail := exhausts_read _ _ _ hrun extra hextra
  rw [parse, Read.runOn, hfail, Nat.zero_add]
  rfl

/-- **Class files are prefix free.** An accepted class file with further bytes behind it is refused
for these bytes, at the place where they begin; so no proper beginning of an accepted class file
is accepted. -/
theorem parse_prefix_free {data : List UInt8} {model : ClassModel} (h : parse data = .ok model) :
    (∀ extra, extra ≠ [] → ∃ m, parse (data ++ extra) = .error m ∧
      m.reason = toString extra.length ++ " trailing bytes" ∧ m.offset = some data.length) ∧
    ∀ start, start <+: data → start ≠ data → ∃ m, parse start = .error m := by
  refine ⟨fun extra hextra => ⟨_, parse_append h hextra, ?_, rfl⟩, ?_⟩
  · rfl
  · rintro start ⟨extra, rfl⟩ hne
    cases hstart : parse start with
    | error m => exact ⟨m, rfl⟩
    | ok model' =>
        have hextra : extra ≠ [] := by
          rintro rfl
          exact hne (List.append_nil start).symm
        rw [parse_append hstart hextra] at h
        exact nomatch h

/-- The class file of a class without members. -/
def bareClass : List UInt8 :=
  [0xca, 0xfe, 0xba, 0xbe, 0, 0, 0, 52, 0, 3, 7, 0, 2, 1, 0, 1, 0x41, 0, 1, 0, 1, 0, 0, 0, 0, 0, 0,
    0, 0, 0, 0]

/-- A class without members is accepted, but neither with three more bytes nor without its last
one. -/
theorem bareClass_prefix_free :
    (∃ m, parse (bareClass ++ [0, 0, 0]) = .error m ∧ m.reason = "3 trailing bytes" ∧
      m.offset = some 31) ∧ ∃ m, parse bareClass.dropLast = .error m := by
  have haccepted : parse bareClass = .ok { name := "A", access := ⟨1⟩, major := 52 } := by
    decide +kernel
  obtain ⟨hextra, hstart⟩ := parse_prefix_free haccepted
  exact ⟨hextra [0, 0, 0] (by decide), hstart _ (List.dropLast_prefix _) (by decide)⟩

end ClassModel

end ClassAudit
