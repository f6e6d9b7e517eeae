import ClassAudit.Proofs.ReaderAccesses
import ClassAudit.Proofs.Reading

/-!
# Members as they are stored

A class file lists its fields and methods with attributes that only some readers look into. A
second reader steps through the same bytes and takes the members as they are stored; it accepts
whatever is accepted as a class, and the fields and methods of the class are, one for one, those
that it lists.

The two readers are compared piece by piece: `r.Shadows r' R` says that wherever `r` succeeds, `r'`
succeeds too and stops at the same place, with a result that `R` relates to that of `r`.

## Main definitions

* `Read.Shadows` - a reader goes along with another one.
* `ClassModel.StoredClass`, `ClassModel.readStored` - the members of a class file with their
  attributes.
* `FieldModel.StoredAs`, `MethodModel.StoredAs` - a member of a class against the stored one.

## Main statements

* `Read.Shadows.bind`, `Read.Shadows.times` - going along with one piece after the other.
* `ClassModel.exists_stored` - the members of a class are those that its file stores.
-/

namespace ClassAudit

namespace Read

variable {α β γ δ : Type}

/-! ### Readers side by side -/

/-- Wherever `r` succeeds, `r'` succeeds and stops at the same place, with a related result. -/
def Shadows (r : Read α) (r' : Read β) (R : α → β → Prop) : Prop :=
  ∀ c a c', r c = .ok (a, c') → ∃ b, r' c = .ok (b, c') ∧ R a b

variable {r : Read α} {r' : Read β} {R : α → β → Prop} {S : γ → δ → Prop}

theorem shadows_self (r : Read α) : r.Shadows r Eq := fun _ a _ h => ⟨a, h, rfl⟩

theorem shadows_pure {a : α} {b : β} (h : R a b) : (pure a : Read α).Shadows (pure b) R := by
  rintro c _ _ ⟨⟩
  exact ⟨b, rfl, h⟩

/-- What always fails needs no company. -/
theorem shadows_fail (cause : Malformed.Cause) (offset : Option Nat) :
    (Read.fail cause offset : Read α).Shadows r' R :=
  fun _ _ _ h => nomatch h

theorem Shadows.discard (hr : r.Shadows r' R) : r.Shadows (discard r') fun _ _ => True := by
  intro c a c' h
  obtain ⟨b, hb, -⟩ := hr c a c' h
  exact ⟨(), run_map_eq_ok.mpr ⟨b, hb, rfl⟩, trivial⟩

theorem Shadows.bind {f : α → Read γ} {f' : β → Read δ} (hr : r.Shadows r' R)
    (hf : ∀ a b, R a b → (f a).Shadows (f' b) S) : (r >>= f).Shadows (r' >>= f') S := by
  intro c x c' h
  obtain ⟨a, c₁, ha, hx⟩ := run_bind_eq_ok.mp h
  obtain ⟨b, hb, hab⟩ := hr c a c₁ ha
  obtain ⟨y, hy, hxy⟩ := hf a b hab c₁ x c' hx
  exact ⟨y, run_bind_eq_ok.mpr ⟨b, c₁, hb, hy⟩, hxy⟩

/-- What is read once more by both readers is the same for both. -/
theorem Shadows.bind_self {r : Read α} {f : α → Read γ} {f' : α → Read δ}
    (hf : ∀ a, (f a).Shadows (f' a) S) : (r >>= f).Shadows (r >>= f') S :=
  (shadows_self r).bind fun a _ hab => hab ▸ hf a

/-- A last step that consumes nothing is made by the second reader alone. -/
theorem Shadows.then_pure {T : α → δ → Prop} {g : β → δ} (hr : r.Shadows r' R)
    (hg : ∀ a b, R a b → T a (g b)) : r.Shadows (r' >>= fun b => pure (g b)) T := by
  rw [← bind_pure r]
  exact hr.bind fun a b hab => shadows_pure (hg a b hab)

/-- A last step that consumes nothing is made by the first reader alone. -/
theorem Shadows.bind_last {T : γ → β → Prop} {f : α → Read γ} (hr : r.Shadows r' R)
    (hf : ∀ a b, R a b → (f a).Shadows (pure b) T) : (r >>= f).Shadows r' T := by
  rw [← bind_pure r']
  exact hr.bind hf

theorem Shadows.map {T : γ → β → Prop} {f : α → γ} (hr : r.Shadows r' R)
    (hf : ∀ a b, R a b → T (f a) b) : (f <$> r).Shadows r' T := by
  intro c x c' h
  obtain ⟨a, ha, rfl⟩ := run_map_eq_ok.mp h
  obtain ⟨b, hb, hab⟩ := hr c a c' ha
  exact ⟨b, hb, hf a b hab⟩

theorem Shadows.within (hr : r.Shadows r' R) (place : Malformed.Place) :
    (Read.within place r).Shadows r' R := by
  intro c a c' h
  rw [Read.within, except_mapError_eq_ok] at h
  exact hr c a c' h

theorem shadows_lookup {result : Except Malformed α} {b : β} (h : ∀ a, result = .ok a → R a b) :
    (Decode.lookup result).Shadows (pure b) R := by
  intro c a c' hrun
  obtain ⟨a, hresult, heq⟩ := except_map_eq_ok.mp hrun
  obtain ⟨rfl, rfl⟩ := Prod.mk.inj heq
  exact ⟨b, rfl, h a hresult⟩

/-- A first step that consumes nothing is made by the first reader alone. -/
theorem Shadows.bind_idle {P : α → Prop} {f : α → Read γ} {s : Read δ}
    (hr : r.Shadows (pure ()) fun a _ => P a) (hf : ∀ a, P a → (f a).Shadows s S) :
    (r >>= f).Shadows s S := by
  rw [← pure_bind () fun _ => s]
  exact hr.bind fun a _ ha => hf a ha

/-- What is looked up is not stored. -/
theorem shadows_bind_lookup {result : Except Malformed α} {f : α → Read γ} {s : Read δ}
    (hf : ∀ a, result = .ok a → (f a).Shadows s S) : (Decode.lookup result >>= f).Shadows s S :=
  (shadows_lookup fun _ ha => ha).bind_idle hf

theorem shadows_bind_remaining {f : Nat → Read γ} {s : Read δ} (hf : ∀ n, (f n).Shadows s S) :
    (Read.remaining >>= f).Shadows s S :=
  fun c => hf c.rest.length c

theorem shadows_bind_position {f : Nat → Read γ} {s : Read δ} (hf : ∀ n, (f n).Shadows s S) :
    (Read.position >>= f).Shadows s S :=
  fun c => hf c.pos c

theorem Shadows.ite {p : Prop} [Decidable p] {s : Read α} (hr : p → r.Shadows r' R)
    (hs : ¬p → s.Shadows r' R) : (if p then r else s).Shadows r' R := by
  split
  · exact hr ‹_›
  · exact hs ‹_›

/-- Tables are read side by side, entry by entry. -/
theorem Shadows.times (hr : r.Shadows r' R) (n : Nat) :
    (Read.times n r).Shadows (Read.times n r') (List.Forall₂ R) := by
  induction n with
  | zero => exact shadows_pure .nil
  | succ n ih =>
      exact hr.bind fun a b hab => ih.bind fun as bs habs => shadows_pure (.cons hab habs)

theorem Shadows.runOn (hr : r.Shadows r' R) {data : List UInt8} {a : α}
    (h : Read.runOn data r = .ok a) : ∃ b, Read.runOn data r' = .ok b ∧ R a b := by
  obtain ⟨⟨_, c'⟩, hrun, rfl⟩ := except_map_eq_ok.mp h
  obtain ⟨b, hb, hab⟩ := hr _ _ c' hrun
  exact ⟨b, except_map_eq_ok.mpr ⟨_, hb, rfl⟩, hab⟩

end Read

/-! ### Members -/

namespace ClassModel

/-- The constant pool of a class file, its members with their attributes, and the attributes of
the class. -/
structure StoredClass where
  pool : ConstantPool
  fields : List MemberInfo
  methods : List MemberInfo
  attributes : List (String × List UInt8)

/-- Reads what follows the constant pool of a class file, without a look into its attributes. -/
def readStoredBody (pool : ConstantPool) : Read StoredClass := do
  discard (Read.u2 "access_flags")
  discard (Read.u2 "this_class")
  discard (Read.u2 "super_class")
  let interfaceCount ← Read.u2 "interfaces_count"
  discard (Read.times interfaceCount (Read.u2 "interface index"))
  let fieldCount ← Read.u2 "fields_count"
  let fields ← Read.times fieldCount (readMember pool .field)
  let methodCount ← Read.u2 "methods_count"
  let methods ← Read.times methodCount (readMember pool .method)
  let attributeCount ← Read.u2 "attributes_count"
  let attributes ← Read.times attributeCount (Code.readAttribute pool)
  return { pool, fields, methods, attributes }

/-- Reads a class file without a look into its attributes. -/
def readStored : Read StoredClass := do
  discard (Read.u4 "magic")
  discard (Read.u2 "minor_version")
  discard (Read.u2 "major_version")
  let pool ← ConstantPool.read
  readStoredBody pool

end ClassModel

open ClassModel (MemberInfo StoredClass readStored)

/-- The field is stored so, under a descriptor that is valid. -/
structure FieldModel.StoredAs (f : FieldModel) (info : MemberInfo) : Prop where
  name_eq : info.name = f.name
  desc_eq : info.desc = f.desc
  access_eq : info.access = f.access
  valid : validFieldDescriptor f.desc

/-- The method is stored so; its body is spelled by the first attribute that is called `Code`. -/
structure MethodModel.StoredAs (pool : ConstantPool) (m : MethodModel) (info : MemberInfo) :
    Prop where
  name_eq : info.name = m.name
  desc_eq : info.desc = m.desc
  access_eq : info.access = m.access
  code_eq : info.attributes.lookup "Code" = none → m.code = {}
  read_eq : ∀ content, info.attributes.lookup "Code" = some content →
    Code.read pool content = .ok (m.code, m.localNames)

namespace ClassModel

/-- The members of the class are stored so, one for one. -/
structure StoredAs (c : ClassModel) (s : StoredClass) : Prop where
  fields : List.Forall₂ FieldModel.StoredAs c.fields s.fields
  methods : List.Forall₂ (MethodModel.StoredAs s.pool) c.methods s.methods

theorem shadows_readField (pool : ConstantPool) :
    (readField pool).Shadows (readMember pool .field) fun f info => f.StoredAs info := by
  rw [readField_eq]
  refine (Read.shadows_self _).bind_last ?_
  rintro info _ rfl
  refine .ite (fun hvalid => Read.shadows_pure ?_) fun _ => Read.shadows_fail _ _
  exact ⟨rfl, rfl, rfl, hvalid⟩

theorem shadows_readMethod (pool : ConstantPool) :
    (readMethod pool).Shadows (readMember pool .method) fun m info => m.StoredAs pool info := by
  rw [readMethod_eq]
  refine (Read.shadows_self _).bind_last ?_
  rintro info _ rfl
  split
  · exact Read.shadows_fail _ _
  split
  · rename_i hnone
    exact Read.shadows_pure ⟨rfl, rfl, rfl, fun _ => rfl, fun content hsome => by simp_all⟩
  · rename_i content hsome
    refine .ite (fun _ => Read.shadows_fail _ _) fun _ => ?_
    refine ((Read.shadows_lookup fun _ hbody => hbody).within _).bind_idle fun body hbody => ?_
    refine Read.shadows_pure ⟨rfl, rfl, rfl, fun hnone => by simp_all, fun content' hsome' => ?_⟩
    obtain rfl := Option.some.inj (hsome.symm.trans hsome')
    exact hbody

theorem shadows_readInterface (pool : ConstantPool) :
    (readInterface pool).Shadows (Read.u2 "interface index") fun _ _ => True :=
  (Read.shadows_self _).bind_last fun _ _ _ => (Read.shadows_lookup fun _ _ => trivial).within _

theorem shadows_superNameAt (pool : ConstantPool) (index : Nat) :
    (superNameAt pool index).Shadows (pure ()) fun _ _ => True :=
  .ite (fun _ => Read.shadows_pure trivial) fun _ =>
    (Read.shadows_lookup fun _ _ => trivial).within _

theorem shadows_readSourceFile (pool : ConstantPool) (n : Nat) (source : String) :
    (readSourceFile pool n source).Shadows (Read.times n (Code.readAttribute pool))
      fun _ _ => True := by
  induction n generalizing source with
  | zero => exact Read.shadows_pure trivial
  | succ n ih =>
      rw [readSourceFile_succ]
      refine .bind_self fun a => ?_
      have hrest (source : String) :=
        (ih source).then_pure (T := fun _ _ => True) (g := (a :: ·)) fun _ _ _ => trivial
      refine .ite (fun _ => ?_) fun _ => hrest source
      exact ((Read.shadows_lookup fun _ _ => trivial).within _).bind_idle fun source _ =>
        hrest source

theorem shadows_readBody (pool : ConstantPool) (major minor : Nat) :
    (readBody pool major minor).Shadows (readStoredBody pool) StoredAs := by
  refine (Read.shadows_self _).discard.bind fun access _ _ => ?_
  refine (Read.shadows_self _).discard.bind fun thisIndex _ _ => ?_
  refine ((Read.shadows_lookup fun _ _ => trivial).within _).bind_idle fun name _ => ?_
  refine (Read.shadows_self _).discard.bind fun superIndex _ _ => ?_
  refine (shadows_superNameAt pool superIndex).bind_idle fun superName _ => ?_
  refine .bind_self fun interfaceCount => ?_
  refine ((shadows_readInterface pool).times _).discard.bind fun interfaces _ _ => ?_
  refine .bind_self fun fieldCount => ?_
  refine ((shadows_readField pool).times _).bind fun fields infos hfields => ?_
  refine .bind_self fun methodCount => ?_
  refine ((shadows_readMethod pool).times _).bind fun methods infos' hmethods => ?_
  refine .bind_self fun attributeCount => ?_
  refine (shadows_readSourceFile pool attributeCount "").bind fun sourceFile attributes _ => ?_
  refine Read.shadows_bind_remaining fun left => .ite (fun _ => ?_) fun _ => ?_
  · exact Read.shadows_bind_position fun _ => Read.shadows_fail _ _
  · exact Read.shadows_pure ⟨hfields, hmethods⟩

theorem shadows_read : read.Shadows readStored StoredAs := by
  refine (Read.shadows_self _).discard.bind fun magic' _ _ => ?_
  refine .ite (fun _ => Read.shadows_fail _ _) fun _ => ?_
  refine (Read.shadows_self _).discard.bind fun minor _ _ => ?_
  refine (Read.shadows_self _).discard.bind fun major _ _ => ?_
  refine .ite (fun _ => Read.shadows_fail _ _) fun _ => ?_
  exact .bind_self fun pool => shadows_readBody pool major minor

/-- **The members of a class are those that its file stores.** -/
theorem exists_stored {data : List UInt8} {c : ClassModel} (h : parse data = .ok c) :
    ∃ s, Read.runOn data readStored = .ok s ∧ c.StoredAs s :=
  shadows_read.runOn h

end ClassModel

end ClassAudit
