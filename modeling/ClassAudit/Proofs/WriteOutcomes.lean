import ClassAudit.Proofs.CutDescriptors
import ClassAudit.Proofs.Emission
import ClassAudit.Assembly.Source

/-!
# How writing a class can end

Writing a class ends with bytes unless a body is at fault, and then the first body at fault is
reported. A body is at fault when its labels do not resolve: one is placed twice, or a jump, a
handler or a local variable names one that is not placed. There is one more way to fail, and it
is no fault that is reported of a label: an interface call whose descriptor breaks off, at which
the scan of the descriptor runs past the end of the text.

## Main definitions

* `FirstFailing` - the first element of a list that does not satisfy a condition.
* `Settles` - a computation that succeeds exactly under a condition.
* `MethodDraft.Resolved` - all labels of a body resolve.
* `MethodDraft.BreaksOff` - writing the body comes to a descriptor that breaks off.

## Main statements

* `Step.settles_encode`, `MethodDraft.settles_encodeCode` - when a step and a body can be written.
* `ClassDraft.encode_outcome` - **when a class can be written, and what is reported if not**.
* `ClassDraft.resolved_not_written` - labels that resolve are not enough.
-/

namespace ClassAudit

/-! ### Computations that can fail -/

section Settling

variable {α β σ ε ε' : Type}

/-- The first element of a list that does not satisfy a condition. -/
def FirstFailing (good : α → Prop) (l : List α) (a : α) : Prop :=
  ∃ before after, l = before ++ a :: after ∧ (∀ b ∈ before, good b) ∧ ¬good a

theorem FirstFailing.mem {good : α → Prop} {l : List α} {a : α} (h : FirstFailing good l a) :
    a ∈ l ∧ ¬good a := by
  obtain ⟨before, after, rfl, -, ha⟩ := h
  exact ⟨by simp, ha⟩

theorem FirstFailing.cons {good : α → Prop} {l : List α} {a b : α} (hb : good b)
    (h : FirstFailing good l a) : FirstFailing good (b :: l) a := by
  obtain ⟨before, after, rfl, hbefore, ha⟩ := h
  exact ⟨b :: before, after, rfl, List.forall_mem_cons.mpr ⟨hb, hbefore⟩, ha⟩

theorem exists_firstFailing {good : α → Prop} {l : List α} {a : α} (hmem : a ∈ l)
    (ha : ¬good a) : ∃ b, FirstFailing good l b := by
  induction l with
  | nil => exact nomatch hmem
  | cons b l ih =>
      by_cases hb : good b
      · have hne : a ≠ b := fun h => ha (h ▸ hb)
        obtain ⟨c, hc⟩ := ih ((List.mem_cons.mp hmem).resolve_left hne)
        exact ⟨c, hc.cons hb⟩
      · exact ⟨b, [], l, rfl, by simp, hb⟩

theorem FirstFailing.unique {good : α → Prop} {l : List α} {a a' : α}
    (h : FirstFailing good l a) (h' : FirstFailing good l a') : a = a' := by
  obtain ⟨before, after, rfl, hbefore, ha⟩ := h
  obtain ⟨before', after', heq, hbefore', ha'⟩ := h'
  induction before generalizing before' with
  | nil =>
      cases before' with
      | nil => exact (List.cons.inj heq).1
      | cons b before' =>
          obtain ⟨rfl, -⟩ := List.cons.inj heq
          exact absurd (hbefore' a List.mem_cons_self) ha
  | cons b before ih =>
      cases before' with
      | nil =>
          obtain ⟨rfl, -⟩ := List.cons.inj heq
          exact absurd (hbefore b List.mem_cons_self) ha'
      | cons b' before' =>
          obtain ⟨rfl, hrest⟩ := List.cons.inj heq
          exact ih (List.forall_mem_cons.mp hbefore).2 before' hrest
            (List.forall_mem_cons.mp hbefore').2

theorem FirstFailing.map {good : β → Prop} {f : α → β} {l : List α} {a : α}
    (h : FirstFailing (fun a => good (f a)) l a) : FirstFailing good (l.map f) (f a) := by
  obtain ⟨before, after, rfl, hbefore, ha⟩ := h
  exact ⟨before.map f, after.map f, by simp, List.forall_mem_map.mpr hbefore, ha⟩

/-- The computation succeeds exactly under the condition `good`, whatever the state, and any
error that it ends with satisfies `bad`. -/
structure Settles (w : StateT σ (Except ε) α) (good : Prop) (bad : ε → Prop) : Prop where
  good_of_ok : ∀ s r, w s = .ok r → good
  bad_of_error : ∀ s e, w s = .error e → ¬good ∧ bad e

theorem settles_pure (a : α) (bad : ε → Prop) :
    Settles (pure a : StateT σ (Except ε) α) True bad :=
  ⟨fun _ _ _ => trivial, fun _ _ h => nomatch h⟩

theorem settles_throw {e : ε} (bad : ε → Prop) (he : bad e) :
    Settles (throw e : StateT σ (Except ε) α) False bad := by
  refine ⟨fun s r h => (nomatch h), fun s e' h => ?_⟩
  cases h
  exact ⟨id, he⟩

theorem Settles.imp {w : StateT σ (Except ε) α} {P P' : Prop} {bad bad' : ε → Prop}
    (hw : Settles w P bad) (hgood : P ↔ P') (hbad : ∀ e, ¬P → bad e → bad' e) :
    Settles w P' bad' where
  good_of_ok s r h := hgood.mp (hw.good_of_ok s r h)
  bad_of_error s e h := by
    obtain ⟨hnot, he⟩ := hw.bad_of_error s e h
    exact ⟨hnot ∘ hgood.mpr, hbad e hnot he⟩

/-- One computation after the other, the second of which may rely on how the first ended. -/
theorem Settles.bind_of_run {w : StateT σ (Except ε) α} {f : α → StateT σ (Except ε) β}
    {P Q : Prop} {bad : ε → Prop} (hw : Settles w P bad)
    (hf : ∀ a s s', w s = .ok (a, s') → Settles (f a) Q (P → bad ·)) :
    Settles (w >>= f) (P ∧ Q) bad where
  good_of_ok s r h := by
    obtain ⟨a, s', ha, h⟩ := run_bind_eq_ok.mp h
    exact ⟨hw.good_of_ok s _ ha, (hf a s s' ha).good_of_ok s' r h⟩
  bad_of_error s e h := by
    obtain h | ⟨a, s', ha, h⟩ := run_bind_eq_error.mp h
    · obtain ⟨hnot, he⟩ := hw.bad_of_error s e h
      exact ⟨fun hgood => hnot hgood.1, he⟩
    · obtain ⟨hnot, he⟩ := (hf a s s' ha).bad_of_error s' e h
      exact ⟨fun hgood => hnot hgood.2, he (hw.good_of_ok s _ ha)⟩

theorem Settles.bind {w : StateT σ (Except ε) α} {f : α → StateT σ (Except ε) β} {P Q : Prop}
    {bad : ε → Prop} (hw : Settles w P bad) (hf : ∀ a, Settles (f a) Q (P → bad ·)) :
    Settles (w >>= f) (P ∧ Q) bad :=
  hw.bind_of_run fun a _ _ _ => hf a

/-- What is done with the result cannot fail. -/
theorem Settles.bind_pure {w : StateT σ (Except ε) α} {f : α → β} {P : Prop} {bad : ε → Prop}
    (hw : Settles w P bad) : Settles (w >>= fun a => pure (f a)) P bad :=
  (hw.bind fun _ => settles_pure _ _).imp (and_iff_left trivial) fun _ _ h => h

/-- A computation that cannot fail, before another one. -/
theorem Settles.after {w : StateT σ (Except ε) α} {f : α → StateT σ (Except ε) β} {P : Prop}
    {bad : ε → Prop} (hw : Settles w True fun _ => False) (hf : ∀ a, Settles (f a) P bad) :
    Settles (w >>= f) P bad :=
  (Settles.bind (hw.imp .rfl fun _ _ h => h.elim) fun a => (hf a).imp .rfl fun _ _ h _ => h).imp
    (and_iff_right trivial) fun _ _ h => h

/-- The same computation on each element of a list ends at the first for which it fails. -/
theorem Settles.mapM {f : α → StateT σ (Except ε) β} {good : α → Prop} {bad : α → ε → Prop}
    {as : List α} (hf : ∀ a ∈ as, Settles (f a) (good a) (bad a)) :
    Settles (as.mapM f) (∀ a ∈ as, good a)
      fun e => ∃ a, FirstFailing good as a ∧ bad a e := by
  induction as with
  | nil => exact ⟨fun _ _ _ _ h => (nomatch h), fun _ _ h => nomatch h⟩
  | cons a as ih =>
      obtain ⟨ha, has⟩ := List.forall_mem_cons.mp hf
      rw [List.mapM_cons]
      refine (Settles.bind (P := good a) (Q := ∀ b ∈ as, good b) ?_ fun b => ?_).imp
        List.forall_mem_cons.symm fun _ _ h => h
      · exact ha.imp .rfl fun e hnot he => ⟨a, ⟨[], as, rfl, by simp, hnot⟩, he⟩
      · exact (ih has).bind_pure.imp .rfl fun e _ ⟨b, hb, he⟩ hgood => ⟨b, hb.cons hgood, he⟩

/-- Where the elements are at fault in one way, so is the list. -/
theorem Settles.mapM_same {f : α → StateT σ (Except ε) β} {good : α → Prop} {bad : ε → Prop}
    {as : List α} (hf : ∀ a ∈ as, Settles (f a) (good a) bad) :
    Settles (as.mapM f) (∀ a ∈ as, good a) bad :=
  (Settles.mapM hf).imp .rfl fun _ _ ⟨_, _, h⟩ => h

theorem Settles.mapError {w : StateT σ (Except ε) α} {P : Prop} {bad : ε → Prop} {g : ε → ε'}
    {bad' : ε' → Prop} (hw : Settles w P bad) (hg : ∀ e, bad e → bad' (g e)) :
    Settles (fun s => (w s).mapError g) P bad' where
  good_of_ok s r h := hw.good_of_ok s r (except_mapError_eq_ok.mp h)
  bad_of_error s e h := by
    cases heq : w s with
    | ok r =>
        rw [heq] at h
        exact nomatch h
    | error e' =>
        rw [heq] at h
        obtain rfl := Except.error.inj h
        obtain ⟨hnot, he⟩ := hw.bad_of_error s e' heq
        exact ⟨hnot, hg e' he⟩

end Settling

/-! ### Steps -/

/-- The scan of a descriptor ran past the end of the text. -/
def WriteFault.IsCut (f : WriteFault) : Prop := ∃ desc, f = .cutDescriptor desc

theorem settles_request (r : PoolBuilder.Request) (bad : WriteFault → Prop) :
    Settles (Emit.request r) True bad :=
  ⟨fun _ _ _ => trivial, fun _ _ h => nomatch h⟩

theorem lookup_eq_none {labels : List (String × Nat)} {name : String} :
    labels.lookup name = none ↔ name ∉ labels.map (·.1) := by
  simp only [List.lookup_eq_none_iff, bne_iff_ne, ne_eq, List.mem_map, not_exists, not_and]
  exact forall₂_congr fun x _ => not_congr eq_comm

/-- The position of a label is known if the label is placed. -/
theorem settles_lookup {β : Type} (labels : List (String × Nat)) (name : String) (f : Nat → β)
    {fault : WriteFault} (hfault : ¬fault.IsCut) :
    Settles (match labels.lookup name with
      | some pc => pure (f pc)
      | none => throw fault : Emit β) (name ∈ labels.map (·.1)) (¬·.IsCut) := by
  cases hlookup : labels.lookup name with
  | none =>
      have hnot := lookup_eq_none.mp hlookup
      exact (settles_throw (¬·.IsCut) hfault).imp (iff_of_false id hnot) fun _ _ h => h
  | some pc =>
      have hmem : name ∈ labels.map (·.1) := by
        by_contra hnot
        rw [lookup_eq_none.mpr hnot] at hlookup
        exact nomatch hlookup
      exact (settles_pure _ _).imp (iff_of_true trivial hmem) fun _ _ h => h

namespace Step

variable {labels : List (String × Nat)} {pc : Nat} {s : Step}

/-- The step calls an interface with a descriptor that breaks off. -/
def Cut (s : Step) : Prop := ∃ m : MemberRef, s = .invoke .interface m ∧ BreaksOff m.desc

theorem cut_invoke_iff {m : MemberRef} :
    Cut (.invoke .interface m) ↔ argSlots m.desc = none := by
  constructor
  · rintro ⟨_, ⟨⟩, h⟩
    exact argSlots_eq_none_iff.mpr h
  · exact fun h => ⟨m, rfl, argSlots_eq_none_iff.mp h⟩

instance : DecidablePred Cut
  | .invoke .interface m => decidable_of_iff (argSlots m.desc = none) cut_invoke_iff.symm
  | .invoke .virtual _ | .invoke .special _ | .invoke .static _ =>
    isFalse fun ⟨_, h, _⟩ => nomatch h
  | .plain _ | .label _ | .line _ | .frame | .load _ _ | .store _ _ | .inc _ _ | .int _ | .string _
  | .long _ | .field _ _ | .invokeDynamic _ _ | .type _ _ | .newArray _ | .multiNewArray _ _
  | .jump _ _ | .tableSwitch _ _ _ | .lookupSwitch _ _ => isFalse fun ⟨_, h, _⟩ => nomatch h

/-- The label that a step places. -/
def label? : Step → Option String
  | label name => some name
  | _ => none

/-- The step can be written where these labels are placed. -/
def Encodable (labels : List String) (s : Step) : Prop := (∀ t ∈ s.targets, t ∈ labels) ∧ ¬s.Cut

theorem not_cut_of_ne {s : Step} (h : ∀ m, s ≠ .invoke .interface m) : ¬s.Cut :=
  fun ⟨m, hm, _⟩ => h m hm

theorem settles_distance (labels : List (String × Nat)) (pc : Nat) (name : String) :
    Settles (distance labels pc name) (name ∈ labels.map (·.1)) (¬·.IsCut) :=
  settles_lookup labels name _ fun ⟨_, h⟩ => nomatch h

/-- Steps that neither jump nor call an interface can always be written. -/
theorem settles_of_total {w : Emit (List UInt8)} (htargets : s.targets = [])
    (hcut : ∀ m, s ≠ .invoke .interface m) (hw : Settles w True fun _ => False) :
    Settles w (s.Encodable (labels.map (·.1))) fun f => f.IsCut ↔ s.Cut := by
  have hencodable : s.Encodable (labels.map (·.1)) :=
    ⟨fun t ht => (List.not_mem_nil (htargets ▸ ht)).elim, not_cut_of_ne hcut⟩
  exact hw.imp (iff_of_true trivial hencodable) fun _ _ h => h.elim

/-- Steps that jump can be written where their targets are placed. -/
theorem settles_of_targets {w : Emit (List UInt8)} (hcut : ∀ m, s ≠ .invoke .interface m)
    (hw : Settles w (∀ t ∈ s.targets, t ∈ labels.map (·.1)) (¬·.IsCut)) :
    Settles w (s.Encodable (labels.map (·.1))) fun f => f.IsCut ↔ s.Cut :=
  hw.imp (iff_self_and.mpr fun _ => not_cut_of_ne hcut)
    fun _ _ hnot => iff_of_false hnot (not_cut_of_ne hcut)

/-- **A step can be written exactly where its targets are placed**, unless it calls an interface
with a descriptor that breaks off. -/
theorem settles_encode (labels : List (String × Nat)) (pc : Nat) (s : Step) :
    Settles (s.encode labels pc) (s.Encodable (labels.map (·.1))) fun f => f.IsCut ↔ s.Cut := by
  cases s with
  | inc slot delta =>
      refine settles_of_total rfl (by simp) ?_
      rw [encode]
      split <;> exact settles_pure _ _
  | int value =>
      refine settles_of_total rfl (by simp) ?_
      obtain ⟨_, _, -, -, hencode⟩ | ⟨-, hencode⟩ := int_forms value
      · rw [hencode]
        exact settles_pure _ _
      · rw [hencode]
        exact (settles_request _ _).bind_pure
  | invoke kind m =>
      cases kind with
      | interface =>
          refine Settles.after (settles_request _ _) fun index => ?_
          cases hslots : argSlots m.desc with
          | some n =>
              have hgood : Encodable (labels.map (·.1)) (.invoke .interface m) := by
                refine ⟨fun t ht => (List.not_mem_nil ht).elim, fun h => ?_⟩
                rw [cut_invoke_iff, hslots] at h
                cases h
              exact (settles_pure _ _).imp (iff_of_true trivial hgood) fun _ _ h => h
          | none =>
              have h : Cut (.invoke .interface m) := cut_invoke_iff.mpr hslots
              have hgood : ¬Encodable (labels.map (·.1)) (.invoke .interface m) :=
                fun hgood => hgood.2 h
              have hfault : WriteFault.IsCut (.cutDescriptor m.desc) := ⟨m.desc, rfl⟩
              exact (settles_throw (fun f : WriteFault => f.IsCut ↔ _) (iff_of_true hfault h)).imp
                (iff_of_false id hgood) fun _ _ h => h
      | _ =>
          exact settles_of_total rfl (by simp) (settles_request _ _).bind_pure
  | string _ | long _ | field _ _ | invokeDynamic _ _ | type _ _ | multiNewArray _ _ =>
      exact settles_of_total rfl (by simp) (settles_request _ _).bind_pure
  | jump op target =>
      refine settles_of_targets (by simp) ?_
      refine (settles_distance labels pc target).bind_pure.imp ?_ fun _ _ h => h
      rw [targets, List.forall_mem_singleton]
  | tableSwitch low default targets =>
      refine settles_of_targets (by simp) ?_
      refine ((settles_distance labels pc default).bind fun _ => Settles.bind_pure ?_).imp
        List.forall_mem_cons.symm fun _ _ h => h
      exact (Settles.mapM_same fun t _ => settles_distance labels pc t).imp .rfl fun _ _ h _ => h
  | lookupSwitch default cases =>
      refine settles_of_targets (by simp) ?_
      refine ((settles_distance labels pc default).bind fun _ => Settles.bind_pure ?_).imp
        List.forall_mem_cons.symm fun _ _ h => h
      refine (Settles.mapM_same fun pair _ =>
        (settles_distance labels pc pair.2).bind_pure).imp ?_ fun _ _ h _ => h
      rw [List.forall_mem_map]
  | _ => exact settles_of_total rfl (by simp) (settles_pure _ _)

end Step

/-! ### Bodies -/

namespace Layout

theorem firstRepeated?_eq_none (seen names : List String) :
    firstRepeated? seen names = none ↔ names.Nodup ∧ ∀ name ∈ names, name ∉ seen := by
  induction names generalizing seen with
  | nil => simp [firstRepeated?]
  | cons name names ih =>
      rw [firstRepeated?]
      split
      · rename_i hseen
        have hmem : name ∈ seen := List.contains_iff_mem.mp hseen
        simp [hmem]
      · rename_i hseen
        have hmem : name ∉ seen := fun h => hseen (List.contains_iff_mem.mpr h)
        rw [ih, List.nodup_cons]
        simp only [List.mem_cons, not_or, forall_eq_or_imp]
        grind

/-- The labels of a layout are those that its steps place. -/
theorem names_labels (l : Layout) :
    l.labels.map (·.1) = (l.steps.map (·.2)).filterMap Step.label? := by
  rw [labels, List.map_filterMap, List.filterMap_map]
  refine List.filterMap_congr fun x _ => ?_
  obtain ⟨pc, s⟩ := x
  cases s <;> rfl

theorem names_positions (steps : List Step) (p : PoolBuilder) :
    (labels ⟨(positions 0 steps p).1⟩).map (·.1) = steps.filterMap Step.label? := by
  rw [names_labels, (placed_positions ⟨fun _ => True, fun _ _ => True⟩ 0 steps p).2.2]

/-- A body can be laid out if no label is placed twice. -/
theorem settles_ofSteps (steps : List Step) :
    Settles (ofSteps steps) (steps.filterMap Step.label?).Nodup (¬·.IsCut) := by
  have hpositions : Settles (fun p => .ok (positions 0 steps p) : Emit (List (Nat × Step))) True
      (¬·.IsCut) := ⟨fun _ _ _ => trivial, fun _ _ h => nomatch h⟩
  refine (hpositions.bind_of_run (Q := (steps.filterMap Step.label?).Nodup)
    fun located p p' h => ?_).imp (and_iff_right trivial) fun _ _ h => h
  refine Settles.imp (?_ : Settles _ _ fun f => ¬f.IsCut) .rfl fun _ _ h _ => h
  obtain ⟨rfl, -⟩ := Prod.mk.inj (Except.ok.inj h)
  have hnames := firstRepeated?_eq_none [] ((labels ⟨(positions 0 steps p).1⟩).map (·.1))
  rw [names_positions] at hnames
  simp only [names_positions]
  cases hrepeated : firstRepeated? [] (steps.filterMap Step.label?) with
  | some name =>
      rw [hrepeated] at hnames
      have hfault : ¬WriteFault.IsCut (.duplicateLabel name) := fun ⟨_, h⟩ => nomatch h
      have hnot : ¬(steps.filterMap Step.label?).Nodup := fun h => nomatch hnames.mpr ⟨h, by simp⟩
      exact (settles_throw (¬·.IsCut) hfault).imp (iff_of_false id hnot) fun _ _ h => h
  | none =>
      exact (settles_pure _ _).imp (iff_of_true trivial (hnames.mp hrepeated).1) fun _ _ h => h

/-- The bytes of a body can be written if those of its steps can. -/
theorem settles_code (l : Layout) :
    Settles l.code (∀ s ∈ l.steps.map (·.2), s.Encodable (l.labels.map (·.1))) fun f =>
      ∃ s, FirstFailing (Step.Encodable (l.labels.map (·.1))) (l.steps.map (·.2)) s ∧
        (f.IsCut ↔ s.Cut) := by
  refine (Settles.mapM fun x _ => Step.settles_encode l.labels x.1 x.2).bind_pure.imp
    List.forall_mem_map.symm fun f _ ⟨x, hx, hf⟩ => ⟨x.2, FirstFailing.map hx, hf⟩

end Layout

namespace MethodDraft

/-- The labels that a body places. -/
def defined (m : MethodDraft) : List String := m.steps.filterMap Step.label?

/-- Every label of the body is placed once, and those that are referred to are placed. -/
structure Resolved (m : MethodDraft) : Prop where
  once : m.defined.Nodup
  steps : ∀ s ∈ m.steps, ∀ t ∈ s.targets, t ∈ m.defined
  handlers : ∀ h ∈ m.handlers, h.start ∈ m.defined ∧ h.stop ∈ m.defined ∧ h.target ∈ m.defined
  /-- An empty label stands for an end of the body. -/
  locals : ∀ l ∈ m.locals, (l.start = "" ∨ l.start ∈ m.defined) ∧
    (l.stop = "" ∨ l.stop ∈ m.defined)

/-- The first step that cannot be written has a descriptor that breaks off. -/
def BreaksOff (m : MethodDraft) : Prop :=
  m.defined.Nodup ∧ ∃ s, FirstFailing (Step.Encodable m.defined) m.steps s ∧ s.Cut

/-- The method has no body, or one that can be written. -/
def Writable (m : MethodDraft) : Prop := m.steps = [] ∨ (m.Resolved ∧ ∀ s ∈ m.steps, ¬s.Cut)

theorem settles_position (labels : List (String × Nat)) {name : String} {fault : WriteFault}
    (hfault : ¬fault.IsCut) :
    Settles (position labels name fault) (name ∈ labels.map (·.1)) (¬·.IsCut) :=
  settles_lookup labels name _ hfault

theorem settles_encodeHandler (labels : List (String × Nat)) (h : HandlerDraft) :
    Settles (encodeHandler labels h) (h.start ∈ labels.map (·.1) ∧ h.stop ∈ labels.map (·.1) ∧
      h.target ∈ labels.map (·.1)) (¬·.IsCut) := by
  have hposition (name : String) :
      Settles (position labels name (.handlerLabel name)) (name ∈ labels.map (·.1)) (¬·.IsCut) :=
    settles_position labels fun ⟨_, h⟩ => nomatch h
  have htype : Settles (catchType h) True fun _ => False := by
    rw [catchType]
    split
    · exact settles_pure _ _
    · exact settles_request _ _
  refine (hposition h.start).bind fun _ => ?_
  refine ((hposition h.stop).bind fun _ => ?_).imp .rfl fun _ _ hcut _ => hcut
  refine Settles.imp (P := h.target ∈ labels.map (·.1) ∧ True) ?_ (and_iff_left trivial)
    fun _ _ hcut _ => hcut
  exact (hposition h.target).bind fun _ => htype.bind_pure.imp .rfl fun _ _ h => h.elim

theorem settles_bound (labels : List (String × Nat)) (l : LocalDraft) (label : String)
    (atEnd : Nat) :
    Settles (bound labels l label atEnd) (label = "" ∨ label ∈ labels.map (·.1)) (¬·.IsCut) := by
  rw [bound]
  split
  · rename_i h
    exact (settles_pure _ _).imp (iff_of_true trivial (.inl (beq_iff_eq.mp h))) fun _ _ h => h
  · rename_i h
    have hne : label ≠ "" := fun heq => h (beq_iff_eq.mpr heq)
    exact (settles_position labels fun ⟨_, h⟩ => nomatch h).imp (or_iff_right hne).symm
      fun _ _ h => h

theorem settles_encodeLocal (labels : List (String × Nat)) (codeLength : Nat) (l : LocalDraft) :
    Settles (encodeLocal labels codeLength l)
      ((l.start = "" ∨ l.start ∈ labels.map (·.1)) ∧ (l.stop = "" ∨ l.stop ∈ labels.map (·.1)))
      (¬·.IsCut) := by
  refine (settles_bound labels l l.start 0).bind fun _ => ?_
  refine Settles.imp (P := (l.stop = "" ∨ l.stop ∈ labels.map (·.1)) ∧ True) ?_
    (and_iff_left trivial) fun _ _ hcut _ => hcut
  refine (settles_bound labels l l.stop codeLength).bind fun _ => ?_
  refine Settles.after (settles_request _ _) fun _ => ?_
  exact (settles_request _ _).bind_pure

theorem settles_encodeLocals (labels : List (String × Nat)) (codeLength : Nat)
    (locals : List LocalDraft) :
    Settles (encodeLocals labels codeLength locals)
      (∀ l ∈ locals, (l.start = "" ∨ l.start ∈ labels.map (·.1)) ∧
        (l.stop = "" ∨ l.stop ∈ labels.map (·.1))) (¬·.IsCut) := by
  rw [encodeLocals]
  split
  · rename_i h
    obtain rfl := List.isEmpty_iff.mp h
    exact (settles_pure _ _).imp (iff_of_true trivial fun _ h => (List.not_mem_nil h).elim)
      fun _ _ h => h
  · refine Settles.imp (P := (∀ l ∈ locals, (l.start = "" ∨ l.start ∈ labels.map (·.1)) ∧
        (l.stop = "" ∨ l.stop ∈ labels.map (·.1))) ∧ True) ?_ (and_iff_left trivial)
      fun _ _ h => h
    refine (Settles.mapM_same fun l _ => settles_encodeLocal labels codeLength l).bind fun _ => ?_
    exact (settles_request _ _).bind_pure.bind_pure

/-- An attribute that is written, or left out, without fail. -/
theorem settles_optional (p : Prop) [Decidable p] (name : String) (content : List UInt8) :
    Settles (if p then pure [] else do
      let entry ← encodeAttribute name content
      return [entry] : Emit (List (List UInt8))) True fun _ => False := by
  split
  · exact settles_pure _ _
  · exact (settles_request _ _).bind_pure.bind_pure

/-- Writing a body whose labels are placed once comes to a descriptor that breaks off if the first
step that cannot be written has one. -/
theorem breaksOff_iff {m : MethodDraft} {s : Step} (honce : m.defined.Nodup)
    (hs : FirstFailing (Step.Encodable m.defined) m.steps s) : m.BreaksOff ↔ s.Cut :=
  ⟨fun ⟨_, _, hs', hcut⟩ => hs.unique hs' ▸ hcut, fun hcut => ⟨honce, s, hs, hcut⟩⟩

theorem not_breaksOff {m : MethodDraft} (h : ∀ s ∈ m.steps, s.Encodable m.defined) :
    ¬m.BreaksOff :=
  fun ⟨_, s, hs, _⟩ => hs.mem.2 (h s hs.mem.1)

theorem encodable_iff (m : MethodDraft) : (m.defined.Nodup ∧
      (∀ s ∈ m.steps, s.Encodable m.defined) ∧
      (∀ h ∈ m.handlers, h.start ∈ m.defined ∧ h.stop ∈ m.defined ∧ h.target ∈ m.defined) ∧
      ∀ l ∈ m.locals, (l.start = "" ∨ l.start ∈ m.defined) ∧
        (l.stop = "" ∨ l.stop ∈ m.defined)) ↔
    m.Resolved ∧ ∀ s ∈ m.steps, ¬s.Cut :=
  ⟨fun ⟨honce, hsteps, hhandlers, hlocals⟩ =>
      ⟨⟨honce, fun s hs => (hsteps s hs).1, hhandlers, hlocals⟩, fun s hs => (hsteps s hs).2⟩,
    fun ⟨h, hcut⟩ => ⟨h.once, fun s hs => ⟨h.steps s hs, hcut s hs⟩, h.handlers, h.locals⟩⟩

/-- **A body can be written exactly if its labels resolve**, unless it calls an interface with a
descriptor that breaks off. -/
theorem settles_encodeCode (m : MethodDraft) :
    Settles m.encodeCode (m.Resolved ∧ ∀ s ∈ m.steps, ¬s.Cut)
      fun f => f.IsCut ↔ m.BreaksOff := by
  refine Settles.imp ?_ m.encodable_iff fun _ _ h => h
  refine Settles.bind_of_run ((Layout.settles_ofSteps m.steps).imp .rfl fun _ honce hcut =>
    iff_of_false hcut fun h => honce h.1) fun layout p p' hlayout => ?_
  have hsteps := Layout.steps_of_ofSteps hlayout
  have hlabels : layout.labels.map (·.1) = m.defined := by
    rw [Layout.names_labels, hsteps, defined]
  refine Settles.bind ?_ fun code => ?_
  · have hcode := layout.settles_code
    rw [hlabels, hsteps] at hcode
    exact hcode.imp .rfl fun f _ ⟨s, hs, hf⟩ honce => hf.trans (breaksOff_iff honce hs).symm
  -- what follows the code array fails for labels only
  refine Settles.imp (?_ : Settles _ _ fun f => ¬f.IsCut) .rfl fun f _ hcut hsteps _ =>
    iff_of_false hcut (not_breaksOff hsteps)
  rw [← hlabels]
  refine Settles.bind (Settles.mapM_same fun h _ => settles_encodeHandler layout.labels h)
    fun _ => Settles.imp ?_ .rfl fun _ _ h _ => h
  refine Settles.after (settles_optional _ _ _) fun _ => ?_
  refine ((settles_encodeLocals layout.labels code.length m.locals).bind fun _ => ?_).imp
    (and_iff_left trivial) fun _ _ h => h
  refine Settles.after (settles_optional _ _ _) fun _ => ?_
  exact (settles_request _ _).bind_pure

/-- Where no descriptor breaks off, only the labels can be at fault. -/
theorem not_resolved_of_not_writable {m : MethodDraft} (hbreaks : ¬m.BreaksOff)
    (h : ¬m.Writable) : ¬m.Resolved := by
  intro hresolved
  refine h (.inr ⟨hresolved, fun s hs hcut => hbreaks ?_⟩)
  obtain ⟨s', hs'⟩ := exists_firstFailing hs fun hgood : s.Encodable m.defined => hgood.2 hcut
  obtain ⟨hmem, hnot⟩ := hs'.mem
  have hcut' : s'.Cut := by
    by_contra hcut'
    exact hnot ⟨hresolved.steps s' hmem, hcut'⟩
  exact ⟨hresolved.once, s', hs', hcut'⟩

end MethodDraft

/-! ### Classes -/

namespace ClassDraft

variable {bad : WriteError → Prop}

theorem settles_request (r : PoolBuilder.Request) : Settles (request r) True bad :=
  ⟨fun _ _ _ => trivial, fun _ _ h => nomatch h⟩

theorem settles_encodeField (f : FieldDraft) : Settles (encodeField f) True bad :=
  Settles.after (settles_request _) fun _ => (settles_request _).bind_pure

/-- A method is written, or reported. -/
theorem settles_encodeMethod (m : MethodDraft) :
    Settles (encodeMethod m) m.Writable
      fun e => e.method = m.name ∧ e.desc = m.desc ∧ (e.fault.IsCut ↔ m.BreaksOff) := by
  refine Settles.after (settles_request _) fun name => ?_
  refine Settles.after (settles_request _) fun desc => ?_
  split
  · rename_i h
    exact (settles_pure _ _).imp (iff_of_true trivial (.inl (List.isEmpty_iff.mp h)))
      fun _ _ h => h
  · rename_i h
    have hne : m.steps ≠ [] := fun heq => h (List.isEmpty_iff.mpr heq)
    refine Settles.imp (Settles.bind_pure ?_) (or_iff_right hne).symm fun _ _ h => h
    exact m.settles_encodeCode.mapError fun f hf => ⟨rfl, rfl, hf⟩

theorem settles_encodeSuper (c : ClassDraft) : Settles (encodeSuper c) True bad := by
  rw [encodeSuper]
  split
  · exact settles_request _
  · split
    · exact settles_request _
    · exact settles_pure _ _

theorem settles_encodeSourceFile (c : ClassDraft) : Settles (encodeSourceFile c) True bad := by
  rw [encodeSourceFile]
  split
  · exact settles_pure _ _
  · exact Settles.after (settles_request _) fun _ => (settles_request _).bind_pure

theorem settles_mapM_total {α β : Type} {f : α → Write β}
    (hf : ∀ a, Settles (f a) True fun _ => False) (as : List α) :
    Settles (as.mapM f) True fun _ => False :=
  (Settles.mapM_same fun a _ => hf a).imp (iff_of_true (fun _ _ => trivial) trivial)
    fun _ _ h => h

/-- Only the methods of a class can be at fault. -/
theorem settles_encodeBody (c : ClassDraft) :
    Settles c.encodeBody (∀ m ∈ c.methods, m.Writable) fun e =>
      ∃ m, FirstFailing MethodDraft.Writable c.methods m ∧ e.method = m.name ∧ e.desc = m.desc ∧
        (e.fault.IsCut ↔ m.BreaksOff) := by
  refine Settles.after (settles_request _) fun name => ?_
  refine Settles.after c.settles_encodeSuper fun superName => ?_
  refine Settles.after (settles_mapM_total (fun i => settles_request _) c.interfaces) fun _ => ?_
  refine Settles.after (settles_mapM_total settles_encodeField c.fields) fun _ => ?_
  refine ((Settles.mapM fun m _ => settles_encodeMethod m).bind fun _ => ?_).imp
    (and_iff_left trivial) fun _ _ h => h
  exact c.settles_encodeSourceFile.bind_pure

theorem encode_eq_error {c : ClassDraft} {e : WriteError} :
    c.encode = .error e ↔ c.encodeBody {} = .error e := by
  rw [encode]
  cases c.encodeBody {} with
  | error e' =>
      exact ⟨fun h => congrArg _ (Except.error.inj h), fun h => congrArg _ (Except.error.inj h)⟩
  | ok x => exact ⟨fun h => (nomatch h), fun h => nomatch h⟩

/-- A method at fault is reported, and without one there are bytes. -/
theorem encode_writable (c : ClassDraft) :
    ((∃ bytes, c.encode = .ok bytes) ↔ ∀ m ∈ c.methods, m.Writable) ∧
    ((∃ e, c.encode = .error e) ↔ ∃ m ∈ c.methods, ¬m.Writable) := by
  have hsettles := c.settles_encodeBody
  cases hbody : c.encodeBody {} with
  | error e =>
      have herror : c.encode = .error e := encode_eq_error.mpr hbody
      have hnot := (hsettles.bad_of_error {} e hbody).1
      rw [herror]
      push Not at hnot
      simpa using hnot
  | ok x =>
      have hall := hsettles.good_of_ok {} x hbody
      obtain ⟨bytes, hok⟩ : ∃ bytes, c.encode = .ok bytes := by
        rw [encode, hbody]
        exact ⟨_, rfl⟩
      rw [hok]
      simpa using hall

/-- **When a class can be written.** Bytes are written exactly if every method has no body, or one
whose labels resolve and that calls no interface with a descriptor that breaks off. Otherwise the
first method at fault is reported, with its labels, or because the scan of a descriptor ran past
the end of the text. Where no descriptor breaks off, the labels alone decide. -/
theorem encode_outcome (c : ClassDraft) :
    ((∃ bytes, c.encode = .ok bytes) ↔ ∀ m ∈ c.methods, m.Writable) ∧
    (∀ e, c.encode = .error e → ∃ m, FirstFailing MethodDraft.Writable c.methods m ∧
      e.method = m.name ∧ e.desc = m.desc ∧ (e.fault.IsCut ↔ m.BreaksOff) ∧
      (¬e.fault.IsCut → ¬m.Resolved)) ∧
    ((∀ m ∈ c.methods, ∀ s ∈ m.steps, ¬s.Cut) →
      ((∃ e, c.encode = .error e) ↔ ∃ m ∈ c.methods, m.steps ≠ [] ∧ ¬m.Resolved) ∧
      ∀ e, c.encode = .error e → ¬e.fault.IsCut) := by
  have hreported {e : WriteError} (h : c.encode = .error e) :
      ∃ m, FirstFailing MethodDraft.Writable c.methods m ∧ e.method = m.name ∧ e.desc = m.desc ∧
        (e.fault.IsCut ↔ m.BreaksOff) :=
    (c.settles_encodeBody.bad_of_error {} e (encode_eq_error.mp h)).2
  refine ⟨c.encode_writable.1, fun e h => ?_, fun hcut => ⟨?_, fun e h hf => ?_⟩⟩
  · obtain ⟨m, hm, hname, hdesc, hf⟩ := hreported h
    exact ⟨m, hm, hname, hdesc, hf, fun hnot =>
      MethodDraft.not_resolved_of_not_writable (fun h => hnot (hf.mpr h)) hm.mem.2⟩
  · rw [c.encode_writable.2]
    refine exists_congr fun m => and_congr_right fun hm => ?_
    rw [MethodDraft.Writable, not_or, not_and_or]
    have hnone : ¬¬∀ s ∈ m.steps, ¬s.Cut := not_not_intro (hcut m hm)
    rw [or_iff_left hnone]
  · obtain ⟨m, hm, -, -, hiff⟩ := hreported h
    obtain ⟨-, s, hs, hscut⟩ := hiff.mp hf
    exact hcut m hm.mem.1 s hs.mem.1 hscut

/-- A loop around an interface call, in the range of a local variable, and a method that jumps to
a label that it does not place. -/
def looseDraft : ClassDraft where
  name := "a/B"
  methods := [
    { name := "run", desc := "()V"
      steps := [.label "top", .invoke .interface ⟨"a/B", "c", "([I)V"⟩, .jump .goto "top"]
      locals := [{ slot := 1, name := "x", desc := "I", start := "top" }] },
    { name := "stop", desc := "()V", steps := [.jump .goto "nowhere", .plain .voidReturn] }]

theorem encode_outcome_loose :
    (∀ m ∈ looseDraft.methods, ∀ s ∈ m.steps, ¬s.Cut) ∧
      (∃ m ∈ looseDraft.methods, m.steps ≠ [] ∧ ¬m.Resolved) ∧
      (∃ e, looseDraft.encode = .error e) ∧ ∀ e, looseDraft.encode = .error e → ¬e.fault.IsCut := by
  have hcut : ∀ m ∈ looseDraft.methods, ∀ s ∈ m.steps, ¬s.Cut := by decide +kernel
  obtain ⟨herror, hfault⟩ := looseDraft.encode_outcome.2.2 hcut
  have hloose : ∃ m ∈ looseDraft.methods, m.steps ≠ [] ∧ ¬m.Resolved :=
    ⟨_, List.mem_cons_of_mem _ List.mem_cons_self, List.cons_ne_nil _ _,
      fun h => absurd (h.steps _ List.mem_cons_self "nowhere" List.mem_cons_self) (by decide)⟩
  exact ⟨hcut, hloose, herror.mpr hloose, hfault⟩

/-- One interface call, whose descriptor is cut off behind the bracket of an array. -/
def cutDraft : ClassDraft where
  name := "a/B"
  methods := [
    { name := "run", desc := "()V", steps := [.invoke .interface ⟨"a/B", "c", "(["⟩] }]

/-- The labels resolve, and yet the class is not written: the scan of the descriptor runs past its
end. -/
theorem resolved_not_written :
    cutDraft.methods.map (Except.ok ·.steps) = [Step.parseAll "invokeinterface a/B c (["] ∧
      (∀ m ∈ cutDraft.methods, m.Resolved) ∧
      cutDraft.encode =
        .error { method := "run", desc := "()V", fault := .cutDescriptor "([" } := by
  refine ⟨by decide +kernel, fun m hm => ?_, by decide +kernel⟩
  obtain rfl := List.mem_singleton.mp hm
  exact ⟨by decide, by decide, by decide, by decide⟩

end ClassDraft

end ClassAudit
