import ClassAudit.Assembly.ClassDraft
import ClassAudit.Proofs.PoolGrowth

/-!
# Writing with a growing pool

Bytes are written while the pool grows. The sizes of the first pass over a body are those of the
second: a constant that was given an index keeps it. So every step's bytes stand at the position
that the first pass gave to the step, and they were written with indexes that still stand for
what was asked for when the pool is finished.

## Main definitions

* `PoolBuilder.Writes` - what a computation writes, in terms of the pool after it.
* `Step.Written` - the bytes of a step, written while a table was built.
* `Laid` - the bytes of steps, one after the other.
* `Body.Placed` - the positions of the first pass.

## Main statements

* `Step.length_encode`, `Step.size_stable` - both passes agree about sizes.
* `Layout.writes_code` - the code array is laid out as the first pass said.
-/

namespace ClassAudit

open PoolBuilder

namespace PoolBuilder

variable {ε ε' α β : Type} {v : Vocabulary}

/-- The property of a pool is kept when the pool grows. -/
def Kept (F : PoolBuilder → Prop) : Prop := ∀ p p', Extends p p' → F p → F p'

theorem Stable.kept {F : ConstantPool → Prop} (h : Stable F) : Kept fun p => F p.table :=
  fun _ _ hp => h _ _ hp.within

theorem kept_const (F : Prop) : Kept fun _ => F := fun _ _ _ h => h

theorem Kept.and {F G : PoolBuilder → Prop} (hF : Kept F) (hG : Kept G) :
    Kept fun p => F p ∧ G p :=
  fun p p' h hFG => ⟨hF p p' h hFG.1, hG p p' h hFG.2⟩

theorem Kept.exists {F : α → PoolBuilder → Prop} (hF : ∀ a, Kept (F a)) :
    Kept fun p => ∃ a, F a p := by
  rintro p p' h ⟨a, ha⟩
  exact ⟨a, hF a p p' h ha⟩

theorem Kept.forall₂ {P : α → PoolBuilder → β → Prop} (hP : ∀ a b, Kept (P a · b)) (as : List α)
    (bs : List β) : Kept fun p => List.Forall₂ (fun a b => P a p b) as bs :=
  fun p p' h hall => hall.imp fun a b => hP a b p p' h

/-- If the computation succeeds, the pool has grown, and as long as there is room the result
satisfies `post`. -/
def Writes (v : Vocabulary) (w : StateT PoolBuilder (Except ε) α) (post : PoolBuilder → α → Prop) :
    Prop :=
  ∀ p a p', w p = .ok (a, p') →
    Grows v p p' ∧ (Sound v p → p'.slots ≤ 65534 → post p' a)

theorem writes_pure {post : PoolBuilder → α → Prop} {a : α} (h : ∀ p, post p a) :
    Writes v (pure a : StateT PoolBuilder (Except ε) α) post := by
  rintro p _ _ ⟨⟩
  exact ⟨.refl p, fun _ _ => h p⟩

theorem writes_throw {post : PoolBuilder → α → Prop} (e : ε) :
    Writes v (throw e : StateT PoolBuilder (Except ε) α) post :=
  fun _ _ _ h => (nomatch h)

/-- One computation after the other. The second may rely on the result of the first, as it stands
in the last pool. -/
theorem Writes.bind_of_run {w : StateT PoolBuilder (Except ε) α}
    {f : α → StateT PoolBuilder (Except ε) β} {P : PoolBuilder → α → Prop}
    {Q : PoolBuilder → β → Prop} (hw : Writes v w P) (hP : ∀ a, Kept (P · a))
    (hf : ∀ a p p', w p = .ok (a, p') → Writes v (f a) fun p b => P p a → Q p b) :
    Writes v (w >>= f) Q := by
  intro p b p' h
  obtain ⟨a, p₁, ha, hb⟩ := run_bind_eq_ok.mp h
  obtain ⟨hgrows, hpost⟩ := hw p a p₁ ha
  obtain ⟨hgrows', hpost'⟩ := hf a p p₁ ha p₁ b p' hb
  refine ⟨hgrows.trans hgrows', fun hp hslots => ?_⟩
  have hroom : p₁.slots ≤ 65534 := hgrows'.kept.slots_le.trans hslots
  exact hpost' (hgrows.sound hroom hp) hslots (hP a p₁ p' hgrows'.kept (hpost hp hroom))

theorem Writes.bind {w : StateT PoolBuilder (Except ε) α} {f : α → StateT PoolBuilder (Except ε) β}
    {P : PoolBuilder → α → Prop} {Q : PoolBuilder → β → Prop} (hw : Writes v w P)
    (hP : ∀ a, Kept (P · a)) (hf : ∀ a, Writes v (f a) fun p b => P p a → Q p b) :
    Writes v (w >>= f) Q :=
  hw.bind_of_run hP fun a _ _ _ => hf a

theorem Writes.imp {w : StateT PoolBuilder (Except ε) α} {P Q : PoolBuilder → α → Prop}
    (hw : Writes v w P) (himp : ∀ p a, P p a → Q p a) : Writes v w Q := by
  intro p a p' h
  obtain ⟨hgrows, hpost⟩ := hw p a p' h
  exact ⟨hgrows, fun hp hslots => himp _ _ (hpost hp hslots)⟩

theorem Writes.ite {p : Prop} [Decidable p] {w w' : StateT PoolBuilder (Except ε) α}
    {P : PoolBuilder → α → Prop} (hw : p → Writes v w P) (hw' : ¬p → Writes v w' P) :
    Writes v (if p then w else w') P := by
  split
  · exact hw ‹p›
  · exact hw' ‹¬p›

/-- The same computation on each element of a list. -/
theorem Writes.mapM {f : α → StateT PoolBuilder (Except ε) β} {P : α → PoolBuilder → β → Prop}
    {as : List α} (hf : ∀ a ∈ as, Writes v (f a) (P a)) (hP : ∀ a b, Kept (P a · b)) :
    Writes v (as.mapM f) fun p bs => List.Forall₂ (fun a b => P a p b) as bs := by
  induction as with
  | nil => exact writes_pure fun _ => .nil
  | cons a as ih =>
      rw [List.mapM_cons]
      refine (hf a List.mem_cons_self).bind (hP a) fun b => ?_
      refine (ih fun a' ha' => hf a' (List.mem_cons_of_mem a ha')).bind (Kept.forall₂ hP as)
        fun bs => ?_
      exact writes_pure fun p hbs hb => .cons hb hbs

theorem writes_request {r : Request} {post : ConstantPool → Nat → Prop}
    (h : Supplies v (fun _ => True) r post) :
    Writes v (Emit.request r) fun p n => post p.table n := by
  intro p n p' heq
  obtain ⟨rfl, rfl⟩ := Prod.mk.inj (Except.ok.inj heq)
  exact ⟨h.grows p, fun hp hslots => (h.sound p hp trivial hslots).2⟩

/-- Bytes that hold the answer to one request. -/
theorem writes_answer {r : Request} {post : ConstantPool → Nat → Prop}
    (h : Supplies v (fun _ => True) r post) (f : Nat → List UInt8) :
    Writes v (Emit.request r >>= fun n => pure (f n)) fun p bytes =>
      ∃ n, post p.table n ∧ bytes = f n := by
  intro p bytes p' heq
  obtain ⟨rfl, rfl⟩ := Prod.mk.inj (Except.ok.inj heq)
  exact ⟨h.grows p, fun hp hslots => ⟨_, (h.sound p hp trivial hslots).2, rfl⟩⟩

end PoolBuilder

/-! ### Sizes -/

namespace PoolBuilder

/-- A key that has an index gets the same one from then on. -/
theorem add_stable {key : PoolKey} {c : Constant} {p p' : PoolBuilder}
    (h : Extends (add key c p).2 p') (c' : Constant) : (add key c' p').1 = (add key c p).1 := by
  rw [add_of_lookup (h.index _ _ (lookup_add key c p))]

theorem string_stable {text : Text.Literal} {p p' : PoolBuilder}
    (h : Extends (string text p).2 p') : (string text p').1 = (string text p).1 := by
  have hkept : Extends p' (literal text p').2 := extends_add _ _ p'
  exact add_stable (h.trans hkept) _

end PoolBuilder

namespace Step

variable {v : Vocabulary} {labels : List (String × Nat)} {pc : Nat} {s : Step}
  {p p' : PoolBuilder} {bytes : List UInt8}

/-- A small int is pushed by an opcode of its own, or by one with an operand of one or two bytes;
any other int is pushed from the pool. -/
theorem int_forms (value : Int) :
    (∃ code operands, ((2 ≤ code.toNat ∧ code.toNat ≤ 8 ∧ operands = []) ∨
          (code = Opcode.bipush.code ∧ operands.length = 1) ∨
          (code = Opcode.sipush.code ∧ operands.length = 2)) ∧
        (∀ pc, size pc (.int value) = pure (operands.length + 1)) ∧
        ∀ labels pc, encode labels pc (.int value) = pure (code :: operands)) ∨
      (∀ pc, size pc (.int value) = do return pushSize (← integer value)) ∧
        ∀ labels pc, encode labels pc (.int value) = do
          return encodePush (← Emit.request (integer value)) := by
  by_cases h₁ : -1 ≤ value ∧ value ≤ 5
  · refine .inl ⟨Binary.byte (Opcode.iconstM1.code.toNat + value + 1), [], .inl ?_,
      fun pc => by rw [size, if_pos h₁]; rfl, fun labels pc => by rw [encode, if_pos h₁]⟩
    have hvalue : value = -1 ∨ value = 0 ∨ value = 1 ∨ value = 2 ∨ value = 3 ∨ value = 4 ∨
        value = 5 := by omega
    obtain rfl | rfl | rfl | rfl | rfl | rfl | rfl := hvalue <;> decide
  by_cases h₂ : -128 ≤ value ∧ value ≤ 127
  · exact .inl ⟨_, [Binary.byte value], .inr (.inl ⟨rfl, rfl⟩),
      fun pc => by rw [size, if_neg h₁, if_pos h₂]; rfl,
      fun labels pc => by rw [encode, if_neg h₁, if_pos h₂]⟩
  by_cases h₃ : -32768 ≤ value ∧ value ≤ 32767
  · exact .inl ⟨_, Binary.u2 value, .inr (.inr ⟨rfl, Binary.length_u2 value⟩),
      fun pc => by rw [size, if_neg h₁, if_neg h₂, if_pos h₃, Binary.length_u2],
      fun labels pc => by rw [encode, if_neg h₁, if_neg h₂, if_pos h₃]⟩
  · exact .inr ⟨fun pc => by rw [size, if_neg h₁, if_neg h₂, if_neg h₃],
      fun labels pc => by rw [encode, if_neg h₁, if_neg h₂, if_neg h₃]⟩

/-- The first pass only adds to the pool. -/
theorem grows_size (v : Vocabulary) (pc : Nat) (s : Step) (p : PoolBuilder) :
    Grows v p (s.size pc p).2 := by
  cases s with
  | int value =>
      obtain ⟨_, _, -, hsize, -⟩ | ⟨hsize, -⟩ := int_forms value
      · rw [hsize]
        exact .refl p
      · rw [hsize]
        exact (supplies_integer value).grows p
  | string text => exact (supplies_string text).grows p
  | long value => exact (supplies_long value).grows p
  | invoke kind m => cases kind <;> exact .refl p
  | _ => exact .refl p

/-- A step has the same size whenever it is asked for again. -/
theorem size_stable (h : Extends (s.size pc p).2 p') : (s.size pc p').1 = (s.size pc p).1 := by
  cases s with
  | int value =>
      obtain ⟨_, _, -, hsize, -⟩ | ⟨hsize, -⟩ := int_forms value
      · rw [hsize]
        rfl
      · rw [hsize] at h ⊢
        exact congrArg pushSize (add_stable h _)
  | string text => exact congrArg pushSize (string_stable h)
  | invoke kind m => cases kind <;> rfl
  | _ => rfl

theorem length_encodeSlot (op short : Opcode) (slot : Int) :
    (encodeSlot op short slot).length = slotSize slot := by
  rw [encodeSlot, slotSize]
  split
  · rfl
  split
  · simp
  · rfl

theorem length_encodePush (index : Nat) : (encodePush index).length = pushSize index := by
  rw [encodePush, pushSize]
  split
  · rfl
  · simp

theorem length_of_mapM {ε σ α β : Type} {f : α → StateT σ (Except ε) β} {as : List α} {s s' : σ}
    {bs : List β} (h : as.mapM f s = .ok (bs, s')) : bs.length = as.length := by
  induction as generalizing s bs with
  | nil =>
      obtain ⟨rfl, -⟩ : [] = bs ∧ s = s' := Prod.mk.inj (Except.ok.inj h)
      rfl
  | cons a as ih =>
      rw [List.mapM_cons, run_bind_eq_ok] at h
      obtain ⟨b, s₁, -, h⟩ := h
      obtain ⟨bs', s₂, has, h⟩ := run_bind_eq_ok.mp h
      obtain ⟨rfl, rfl⟩ := Prod.mk.inj (Except.ok.inj h)
      rw [List.length_cons, List.length_cons, ih has]

theorem length_flatMap_of_forall {α β : Type} {f : α → List β} {n : Nat}
    (hf : ∀ a, (f a).length = n) (as : List α) : (as.flatMap f).length = n * as.length := by
  induction as with
  | nil => rfl
  | cons a as ih => rw [List.flatMap_cons, List.length_append, ih, hf, List.length_cons]; ring

/-- The bytes of a step are as many as its size says. -/
theorem length_encode (h : s.encode labels pc p = .ok (bytes, p')) :
    bytes.length = (s.size pc p).1 := by
  cases s with
  | load type slot =>
      obtain ⟨rfl, -⟩ := Prod.mk.inj (Except.ok.inj h)
      exact length_encodeSlot _ _ slot
  | store type slot =>
      obtain ⟨rfl, -⟩ := Prod.mk.inj (Except.ok.inj h)
      exact length_encodeSlot _ _ slot
  | inc slot delta =>
      show _ = if isWideInc slot delta then 6 else 3
      by_cases hwide : isWideInc slot delta
      · rw [encode, if_pos hwide] at h
        rw [if_pos hwide]
        obtain ⟨rfl, -⟩ := Prod.mk.inj (Except.ok.inj h)
        simp
      · rw [encode, if_neg hwide] at h
        rw [if_neg hwide]
        obtain ⟨rfl, -⟩ := Prod.mk.inj (Except.ok.inj h)
        rfl
  | int value =>
      obtain ⟨_, _, -, hsize, hencode⟩ | ⟨hsize, hencode⟩ := int_forms value
      · rw [hencode] at h
        rw [hsize]
        obtain ⟨rfl, -⟩ := Prod.mk.inj (Except.ok.inj h)
        rfl
      · rw [hencode] at h
        rw [hsize]
        obtain ⟨rfl, -⟩ := Prod.mk.inj (Except.ok.inj h)
        exact length_encodePush _
  | string text =>
      obtain ⟨rfl, -⟩ := Prod.mk.inj (Except.ok.inj h)
      exact length_encodePush _
  | tableSwitch low default targets =>
      obtain ⟨other, p₁, -, h⟩ := run_bind_eq_ok.mp h
      obtain ⟨offsets, p₂, hoffsets, h⟩ := run_bind_eq_ok.mp h
      obtain ⟨rfl, -⟩ := Prod.mk.inj (Except.ok.inj h)
      have hlength := length_flatMap_of_forall Binary.length_u4 offsets
      rw [length_of_mapM hoffsets] at hlength
      simp only [List.length_cons, List.length_append, List.length_replicate, Binary.length_u4,
        hlength]
      show _ = 1 + switchPad pc + 12 + 4 * targets.length
      omega
  | lookupSwitch default cases =>
      obtain ⟨other, p₁, -, h⟩ := run_bind_eq_ok.mp h
      obtain ⟨offsets, p₂, hoffsets, h⟩ := run_bind_eq_ok.mp h
      obtain ⟨rfl, -⟩ := Prod.mk.inj (Except.ok.inj h)
      have hlength := length_flatMap_of_forall
        (f := fun x : Int × Int => Binary.u4 x.1 ++ Binary.u4 x.2) (n := 8) (by simp) offsets
      rw [length_of_mapM hoffsets] at hlength
      simp only [List.length_cons, List.length_append, List.length_replicate, Binary.length_u4,
        hlength]
      show _ = 1 + switchPad pc + 8 + 8 * cases.length
      omega
  | jump op target =>
      obtain ⟨offset, p₁, -, h⟩ := run_bind_eq_ok.mp h
      obtain ⟨rfl, -⟩ := Prod.mk.inj (Except.ok.inj h)
      exact congrArg Nat.succ (Binary.length_u2 _)
  | invoke kind m =>
      cases kind with
      | interface =>
          obtain ⟨index, p₁, -, h⟩ := run_bind_eq_ok.mp h
          cases hargs : argSlots m.desc with
          | some n =>
              simp only [hargs] at h
              obtain ⟨rfl, -⟩ := Prod.mk.inj (Except.ok.inj h)
              simp
              rfl
          | none =>
              simp only [hargs] at h
              exact nomatch h
      | _ =>
          obtain ⟨rfl, -⟩ := Prod.mk.inj (Except.ok.inj h)
          exact congrArg Nat.succ (Binary.length_u2 _)
  | label | line | frame | plain | newArray =>
      obtain ⟨rfl, -⟩ := Prod.mk.inj (Except.ok.inj h)
      rfl
  | long | field | type =>
      obtain ⟨rfl, -⟩ := Prod.mk.inj (Except.ok.inj h)
      exact congrArg Nat.succ (Binary.length_u2 _)
  | invokeDynamic | multiNewArray =>
      obtain ⟨rfl, -⟩ := Prod.mk.inj (Except.ok.inj h)
      simp
      rfl

/-! ### Written steps -/

/-- The member or the call site that the step asks for belongs to the vocabulary. -/
def Known (v : Vocabulary) : Step → Prop
  | field _ m => v.member m
  | invoke _ m => v.member m
  | invokeDynamic name desc => v.site name desc
  | _ => True

theorem writes_distance (v : Vocabulary) (labels : List (String × Nat)) (pc : Nat)
    (label : String) :
    Writes v (distance labels pc label) fun _ offset =>
      ∃ target, labels.lookup label = some target ∧ offset = (target : Int) - pc := by
  rw [distance]
  cases hlabel : labels.lookup label with
  | some target => exact writes_pure fun _ => ⟨target, rfl, rfl⟩
  | none => exact writes_throw _

/-- The pool grows while a step is written. -/
theorem grows_encode (hs : s.Known v) (h : s.encode labels pc p = .ok (bytes, p')) :
    Grows v p p' := by
  have hrun {w : Emit (List UInt8)} (hw : Writes v w fun _ _ => True)
      (heq : w p = .ok (bytes, p')) : Grows v p p' := (hw p bytes p' heq).1
  have hanswer {r : Request} {post : ConstantPool → Nat → Prop} {f : Nat → List UInt8}
      (hr : Supplies v (fun _ => True) r post) :
      Writes v (Emit.request r >>= fun n => pure (f n)) fun _ _ => True :=
    (writes_answer hr f).imp fun _ _ _ => trivial
  have hdistance (label : String) : Writes v (distance labels pc label) fun _ _ => True :=
    (writes_distance v labels pc label).imp fun _ _ _ => trivial
  cases s with
  | inc slot delta =>
      refine hrun (.ite (fun _ => ?_) fun _ => ?_) h
      · exact writes_pure fun _ => trivial
      · exact writes_pure fun _ => trivial
  | int value =>
      obtain ⟨_, _, -, -, hencode⟩ | ⟨-, hencode⟩ := int_forms value
      · rw [hencode] at h
        exact hrun (writes_pure fun _ => trivial) h
      · rw [hencode] at h
        exact hrun (hanswer (supplies_integer value)) h
  | string text => exact hrun (hanswer (supplies_string text)) h
  | long value => exact hrun (hanswer (supplies_long value)) h
  | field access m => exact hrun (hanswer (supplies_member hs .field)) h
  | invoke kind m =>
      cases kind with
      | interface =>
          refine hrun ?_ h
          refine (writes_request (supplies_member hs .interfaceMethod)).bind
            (fun n => Kept.exists fun m' => ?_) fun n => ?_
          · exact (kept_const _).and ((kept_const _).and fun _ _ hp => hp.within.hasMemberLike)
          · split
            · exact writes_pure fun _ _ => trivial
            · exact writes_throw _
      | _ => exact hrun (hanswer (supplies_member hs .method)) h
  | invokeDynamic name desc => exact hrun (hanswer (supplies_invokeDynamic hs)) h
  | type op owner => exact hrun (hanswer (supplies_classRef stable_true owner)) h
  | multiNewArray desc dims => exact hrun (hanswer (supplies_classRef stable_true desc)) h
  | jump op target =>
      exact hrun ((hdistance target).bind (fun _ => kept_const True)
        fun _ => writes_pure fun _ _ => trivial) h
  | tableSwitch low default targets =>
      refine hrun ((hdistance default).bind (fun _ => kept_const True) fun _ => ?_) h
      refine (Writes.mapM (fun label _ => hdistance label) fun _ _ => kept_const True).bind
        (fun _ => kept_const _) fun _ => ?_
      exact writes_pure fun _ _ _ => trivial
  | lookupSwitch default cases =>
      refine hrun ((hdistance default).bind (fun _ => kept_const True) fun _ => ?_) h
      refine (Writes.mapM (fun pair _ => (hdistance pair.2).bind (fun _ => kept_const True)
        fun _ => writes_pure fun _ _ => trivial) fun _ _ => kept_const True).bind
        (fun _ => kept_const _) fun _ => ?_
      exact writes_pure fun _ _ _ => trivial
  | _ =>
      obtain ⟨-, rfl⟩ := Prod.mk.inj (Except.ok.inj h)
      exact .refl _

/-- Writing a step asks for everything that its size asked for. -/
theorem extends_size_encode (hs : s.Known v) (h : s.encode labels pc p = .ok (bytes, p')) :
    Extends (s.size pc p).2 p' := by
  have hkept := (grows_encode hs h).kept
  cases s with
  | int value =>
      obtain ⟨_, _, -, hsize, -⟩ | ⟨hsize, hencode⟩ := int_forms value
      · rw [hsize]
        exact hkept
      · rw [hencode] at h
        rw [hsize]
        obtain ⟨-, rfl⟩ := Prod.mk.inj (Except.ok.inj h)
        exact .refl _
  | string text | long value =>
      obtain ⟨-, rfl⟩ := Prod.mk.inj (Except.ok.inj h)
      exact .refl _
  | invoke kind m => cases kind <;> exact hkept
  | _ => exact hkept

/-- The bytes were written while the table `t` was being built. -/
def Written (v : Vocabulary) (t : ConstantPool) (labels : List (String × Nat)) (pc : Nat)
    (s : Step) (bytes : List UInt8) : Prop :=
  ∃ p p', s.encode labels pc p = .ok (bytes, p') ∧ Sound v p ∧ p'.slots ≤ 65534 ∧
    p'.table.Within t

/-- The size of the step is `n`, from now on. -/
def HasSize (p : PoolBuilder) (pc : Nat) (s : Step) (n : Nat) : Prop :=
  ∀ p', Extends p p' → (s.size pc p').1 = n

theorem kept_hasSize (pc : Nat) (s : Step) (n : Nat) : Kept (HasSize · pc s n) :=
  fun _ _ hp h p'' hp' => h p'' (hp.trans hp')

theorem HasSize.unique {n n' : Nat} (h : HasSize p pc s n) (h' : HasSize p pc s n') : n = n' :=
  (h p (.refl p)).symm.trans (h' p (.refl p))

theorem kept_written (v : Vocabulary) (labels : List (String × Nat)) (pc : Nat) (s : Step)
    (bytes : List UInt8) : Kept fun p => s.Written v p.table labels pc bytes := by
  rintro p p' hp ⟨p₁, p₂, hencode, hsound, hslots, hwithin⟩
  exact ⟨p₁, p₂, hencode, hsound, hslots, hwithin.trans hp.within⟩

/-- A step is written with as many bytes as its size will always be. -/
theorem writes_encode (hs : s.Known v) (labels : List (String × Nat)) (pc : Nat) :
    Writes v (s.encode labels pc) fun p bytes =>
      s.Written v p.table labels pc bytes ∧ HasSize p pc s bytes.length := by
  intro p bytes p' h
  refine ⟨grows_encode hs h, fun hp hslots =>
    ⟨⟨p, p', h, hp, hslots, fun _ _ hentry => hentry⟩, fun p'' hp'' => ?_⟩⟩
  rw [length_encode h]
  exact size_stable ((extends_size_encode hs h).trans hp'')

end Step

/-! ### Laid out bodies -/

/-- The positions of the first pass: each step stands where the one before it ends. -/
inductive Placed (p : PoolBuilder) : Nat → List (Nat × Step) → Prop
  | nil (pc : Nat) : Placed p pc []
  | cons {pc n : Nat} {s : Step} {rest : List (Nat × Step)} (hsize : s.HasSize p pc n)
      (hrest : Placed p (pc + n) rest) : Placed p pc ((pc, s) :: rest)

/-- The bytes of steps, one after the other, each described by `W`. -/
inductive Laid (W : Nat → Step → List UInt8 → Prop) :
    Nat → List (Nat × Step) → List (List UInt8) → Prop
  | nil (pc : Nat) : Laid W pc [] []
  | cons {pc : Nat} {s : Step} {bytes : List UInt8} {rest : List (Nat × Step)}
      {pieces : List (List UInt8)} (hs : W pc s bytes)
      (hrest : Laid W (pc + bytes.length) rest pieces) :
      Laid W pc ((pc, s) :: rest) (bytes :: pieces)

theorem kept_placed (pc : Nat) (located : List (Nat × Step)) : Kept (Placed · pc located) := by
  intro p p' hp h
  induction h with
  | nil pc => exact .nil pc
  | cons hsize _ ih => exact .cons (Step.kept_hasSize _ _ _ p p' hp hsize) ih

namespace Layout

variable {v : Vocabulary}

/-- The first pass gives every step its place. -/
theorem placed_positions (v : Vocabulary) (pc : Nat) (steps : List Step) (p : PoolBuilder) :
    Grows v p (positions pc steps p).2 ∧
      Placed (positions pc steps p).2 pc (positions pc steps p).1 ∧
      (positions pc steps p).1.map (·.2) = steps := by
  induction steps generalizing pc p with
  | nil => exact ⟨.refl p, .nil pc, rfl⟩
  | cons s steps ih =>
      obtain ⟨hgrows, hplaced, hsteps⟩ := ih (pc + (s.size pc p).1) (s.size pc p).2
      have hsize : s.HasSize (s.size pc p).2 pc (s.size pc p).1 := fun p' => Step.size_stable
      exact ⟨(s.grows_size v pc p).trans hgrows,
        .cons (Step.kept_hasSize _ _ _ _ _ hgrows.kept hsize) hplaced,
        congrArg (s :: ·) hsteps⟩

/-- Bytes of the sizes that the first pass found lie where it put them. -/
theorem laid_of_placed {W : Nat → Step → List UInt8 → Prop} {p : PoolBuilder} {pc : Nat}
    {located : List (Nat × Step)} {pieces : List (List UInt8)} (h : Placed p pc located)
    (hall : List.Forall₂ (fun x bytes => W x.1 x.2 bytes ∧ x.2.HasSize p x.1 bytes.length)
      located pieces) : Laid W pc located pieces := by
  induction h generalizing pieces with
  | nil pc =>
      cases hall
      exact .nil pc
  | cons hsize _ ih =>
      cases hall with
      | cons hfirst hall =>
          obtain ⟨hs, hsize'⟩ := hfirst
          obtain rfl := hsize.unique hsize'
          exact .cons hs (ih hall)

/-- The second pass writes the bytes of every step. -/
theorem writes_code (l : Layout) (hknown : ∀ x ∈ l.steps, x.2.Known v) :
    Writes v l.code fun p code => ∃ pieces, code = pieces.flatten ∧
      List.Forall₂ (fun x bytes => x.2.Written v p.table l.labels x.1 bytes ∧
        x.2.HasSize p x.1 bytes.length) l.steps pieces := by
  refine (Writes.mapM (fun x hx => Step.writes_encode (hknown x hx) l.labels x.1)
    fun x bytes => ?_).bind (fun pieces => Kept.forall₂ ?_ _ _) fun pieces => ?_
  · exact (Step.kept_written v _ _ _ _).and (Step.kept_hasSize _ _ _)
  · exact fun x bytes => (Step.kept_written v _ _ _ _).and (Step.kept_hasSize _ _ _)
  · exact writes_pure fun p hall => ⟨pieces, rfl, hall⟩

/-- The first pass succeeds with the positions of the steps, unless it finds a label twice. -/
theorem eq_positions_of_ofSteps {steps : List Step} {p p' : PoolBuilder} {layout : Layout}
    (h : ofSteps steps p = .ok (layout, p')) :
    layout = ⟨(positions 0 steps p).1⟩ ∧ p' = (positions 0 steps p).2 := by
  obtain ⟨located, p₁, hlocated, h⟩ := run_bind_eq_ok.mp h
  obtain ⟨rfl, rfl⟩ := Prod.mk.inj (Except.ok.inj hlocated)
  cases hrepeated : firstRepeated? [] ((labels ⟨(positions 0 steps p).1⟩).map (·.1)) with
  | some name =>
      simp only [hrepeated] at h
      exact nomatch h
  | none =>
      simp only [hrepeated] at h
      obtain ⟨rfl, rfl⟩ := Prod.mk.inj (Except.ok.inj h)
      exact ⟨rfl, rfl⟩

theorem steps_of_ofSteps {steps : List Step} {p p' : PoolBuilder} {layout : Layout}
    (h : ofSteps steps p = .ok (layout, p')) : layout.steps.map (·.2) = steps := by
  obtain ⟨rfl, -⟩ := eq_positions_of_ofSteps h
  exact (placed_positions ⟨fun _ => True, fun _ _ => True⟩ 0 steps p).2.2

/-- The first pass gives every step its place. -/
theorem writes_ofSteps (v : Vocabulary) (steps : List Step) :
    Writes v (ofSteps steps) fun p layout => Placed p 0 layout.steps := by
  intro p layout p' h
  obtain ⟨rfl, rfl⟩ := eq_positions_of_ofSteps h
  obtain ⟨hgrows, hplaced, -⟩ := placed_positions v 0 steps p
  exact ⟨hgrows, fun _ _ => hplaced⟩

end Layout

end ClassAudit
