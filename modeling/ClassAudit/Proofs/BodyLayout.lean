import ClassAudit.ClassFile.Parse
import ClassAudit.Proofs.Ordering
import ClassAudit.Proofs.Reading

/-!
# The layout of decoded bodies

A code array is decoded from its first byte on, so the positions of its instructions ascend from
zero, and none of the instructions is a marker. In the body, markers are put between them: two
elements that stand next to each other and are no markers stand next to each other in the code
array too, and nothing refers to the position of the second one.

## Main definitions

* `Read.Gives` - what a reader gives, while it moves on.
* `Decode.Ascending` - instructions whose positions ascend.

## Main statements

* `Decode.gives_one` - no opcode stands for a marker.
* `Decode.ascending_body` - the positions of decoded instructions ascend from zero.
* `Code.Content.mem_labels` - every position that something refers to has a label.
* `Code.Content.adjacent_of_body` - neighbours in the body are neighbours in the code array.
-/

namespace ClassAudit

variable {α β : Type}

/-! ### Readers move on -/

/-- The second cursor is the first one or lies behind it, in the same byte string. -/
structure Cursor.Precedes (c c' : Cursor) : Prop where
  pos_le : c.pos ≤ c'.pos
  total_eq : c'.pos + c'.rest.length = c.pos + c.rest.length

namespace Cursor.Precedes

theorem refl (c : Cursor) : c.Precedes c := ⟨le_rfl, rfl⟩

theorem trans {c c₁ c₂ : Cursor} (h : c.Precedes c₁) (h' : c₁.Precedes c₂) : c.Precedes c₂ :=
  ⟨h.pos_le.trans h'.pos_le, h'.total_eq.trans h.total_eq⟩

end Cursor.Precedes

/-- What the reader gives satisfies `P`, and the reader does not move backward. -/
def Read.Gives (r : Read α) (P : α → Prop) : Prop :=
  ∀ c a c', r c = .ok (a, c') → P a ∧ c.Precedes c'

/-- The reader does not move backward. -/
def Read.Forward (r : Read α) : Prop := r.Gives fun _ => True

namespace Read

variable {P : α → Prop} {Q : β → Prop}

theorem gives_pure {a : α} (h : P a) : (pure a : Read α).Gives P := by
  rintro c _ _ ⟨⟩
  exact ⟨h, .refl c⟩

theorem gives_fail (cause : Malformed.Cause) (offset : Option Nat) :
    (Read.fail cause offset : Read α).Gives P :=
  fun _ _ _ h => nomatch h

theorem Gives.bind {r : Read α} {f : α → Read β} (hr : r.Gives P)
    (hf : ∀ a, P a → (f a).Gives Q) : (r >>= f).Gives Q := by
  intro c b c' h
  obtain ⟨a, c₁, ha, hb⟩ := run_bind_eq_ok.mp h
  obtain ⟨hP, hc₁⟩ := hr c a c₁ ha
  obtain ⟨hQ, hc'⟩ := hf a hP c₁ b c' hb
  exact ⟨hQ, hc₁.trans hc'⟩

theorem Forward.bind {r : Read α} {f : α → Read β} (hr : r.Forward) (hf : ∀ a, (f a).Gives Q) :
    (r >>= f).Gives Q :=
  Gives.bind hr fun a _ => hf a

theorem Forward.bind_pure {r : Read α} {f : α → β} (hr : r.Forward) (hf : ∀ a, Q (f a)) :
    (r >>= fun a => pure (f a)).Gives Q :=
  hr.bind fun a => gives_pure (hf a)

theorem Gives.ite {p : Prop} [Decidable p] {r s : Read α} (hr : r.Gives P) (hs : s.Gives P) :
    (if p then r else s).Gives P := by
  split
  · exact hr
  · exact hs

theorem forward_access (a : Access α) : (Read.access a).Forward := by
  cases a with
  | ok a => exact gives_pure trivial
  | error e => exact gives_fail _ _

theorem forward_bytes (n : Nat) (item : String) : (Read.bytes n item).Forward := by
  intro c taken c' h
  obtain ⟨hrest, hlength, hpos⟩ := eq_append_of_bytes h
  refine ⟨trivial, by omega, ?_⟩
  rw [hrest, List.length_append]
  omega

theorem Forward.map {r : Read α} (hr : r.Forward) (f : α → β) : (f <$> r).Forward :=
  hr.bind fun _ => gives_pure trivial

theorem forward_word (width : Nat) (item : String) : (Read.word width item).Forward := by
  rw [word_eq]
  exact (forward_bytes width item).map _

theorem forward_u1 (item : String) : (Read.u1 item).Forward := forward_word 1 item

theorem pos_lt_of_u1 {item : String} {c c' : Cursor} {n : Nat}
    (h : Read.u1 item c = .ok (n, c')) : c.pos < c'.pos := by
  rw [Read.u1, word_eq] at h
  obtain ⟨taken, hbytes, -⟩ := run_map_eq_ok.mp h
  obtain ⟨-, -, hpos⟩ := eq_append_of_bytes hbytes
  omega

theorem forward_u2 (item : String) : (Read.u2 item).Forward := forward_word 2 item

theorem forward_s4 (item : String) : (Read.s4 item).Forward := (forward_word 4 item).map _

theorem forward_skip (n : Nat) (item : String) : (Read.skip n item).Forward :=
  (forward_bytes n item).map _

theorem forward_position : Read.position.Forward := by
  rintro c _ _ ⟨⟩
  exact ⟨trivial, .refl c⟩

theorem forward_remaining : Read.remaining.Forward := by
  rintro c _ _ ⟨⟩
  exact ⟨trivial, .refl c⟩

theorem forward_lookup (result : Except Malformed α) : (Decode.lookup result).Forward := by
  intro c a c' h
  obtain ⟨a, -, heq⟩ := except_map_eq_ok.mp h
  obtain ⟨-, rfl⟩ := Prod.mk.inj heq
  exact ⟨trivial, .refl c⟩

/-- Every entry of a table is as its reader gives it. -/
theorem Gives.times {r : Read α} (hr : r.Gives P) (n : Nat) :
    (Read.times n r).Gives fun as => ∀ a ∈ as, P a := by
  induction n with
  | zero => exact gives_pure fun a ha => nomatch ha
  | succ n ih =>
      refine hr.bind fun a ha => ih.bind fun as has => ?_
      exact gives_pure (List.forall_mem_cons.mpr ⟨ha, has⟩)

theorem Forward.times {r : Read α} (hr : r.Forward) (n : Nat) : (Read.times n r).Forward :=
  fun c as c' h => ⟨trivial, (Gives.times hr n c as c' h).2⟩

end Read

/-! ### No opcode is a marker -/

namespace Decode

/-- The action is no marker. -/
def Acts (a : Action) : Prop := a.isMarker = false

theorem forward_typeAt (place : Nat) : (typeAt place).Forward :=
  .ite (Read.gives_pure trivial) (Read.gives_fail _ _)

theorem forward_branch16 (pc : Nat) : (branch16 pc).Forward :=
  (Read.forward_u2 _).bind_pure fun _ => trivial

theorem forward_branch32 (pc : Nat) : (branch32 pc).Forward :=
  (Read.forward_s4 _).bind_pure fun _ => trivial

theorem forward_member (pool : ConstantPool) (tags : List Tag) : (member pool tags).Forward :=
  (Read.forward_u2 _).bind fun _ => Read.forward_lookup _

theorem forward_classOperand (pool : ConstantPool) : (classOperand pool).Forward :=
  (Read.forward_u2 _).bind fun _ => Read.forward_lookup _

theorem forward_switchPadding : switchPadding.Forward :=
  Read.forward_position.bind fun _ => Read.forward_skip _ _

theorem gives_tableSwitch (pc : Nat) : (tableSwitch pc).Gives Acts := by
  refine forward_switchPadding.bind fun _ => (Read.forward_s4 _).bind fun _ => ?_
  refine (Read.forward_s4 _).bind fun _ => (Read.forward_s4 _).bind fun _ => ?_
  refine .ite (Read.gives_fail _ _) (Read.forward_remaining.bind fun _ => ?_)
  exact .ite (Read.gives_fail _ _) (((Read.forward_s4 _).times _).bind_pure fun _ => rfl)

theorem gives_lookupSwitch (pc : Nat) : (lookupSwitch pc).Gives Acts := by
  refine forward_switchPadding.bind fun _ => (Read.forward_s4 _).bind fun _ => ?_
  refine (Read.forward_s4 _).bind fun _ => Read.forward_remaining.bind fun _ => ?_
  refine .ite (Read.gives_fail _ _) (Read.Forward.bind_pure (Read.Forward.times ?_ _) fun _ => rfl)
  exact (Read.forward_skip _ _).bind fun _ => Read.forward_s4 _

theorem gives_wide (pc : Nat) : (wide pc).Gives Acts := by
  refine (Read.forward_u1 _).bind fun _ => (Read.forward_u2 _).bind fun _ => ?_
  refine .ite ((forward_typeAt _).bind_pure fun _ => rfl)
    (.ite ((forward_typeAt _).bind_pure fun _ => rfl)
      (.ite (Read.gives_pure rfl) (.ite ?_ (Read.gives_fail _ _))))
  exact (Read.forward_skip _ _).bind_pure fun _ => rfl

theorem gives_push (pool : ConstantPool) (code : Nat) : (push pool code).Gives Acts := by
  have hconst (index : Nat) (op : Opcode) :
      (do discard (lookup (pool.entry index loadable)); return Action.const op).Gives Acts :=
    ((Read.forward_lookup _).map _).bind_pure fun _ => rfl
  refine .ite (Read.gives_pure rfl) (.ite (Read.gives_pure rfl)
    (.ite ((Read.forward_skip _ _).bind_pure fun _ => rfl)
      (.ite ((Read.forward_skip _ _).bind_pure fun _ => rfl) (.ite ?_ ?_))))
  · exact (Read.forward_u1 _).bind fun index => hconst index _
  · exact (Read.forward_u2 _).bind fun index => hconst index _

theorem gives_access (first : Nat) {make : ValueType → Int → Action}
    (h : ∀ type slot, Acts (make type slot)) (code : Nat) :
    (access first make code).Gives Acts := by
  refine .ite ?_ (.ite ((forward_typeAt _).bind_pure fun _ => h _ _) (Read.gives_pure rfl))
  exact (forward_typeAt _).bind fun _ => (Read.forward_u1 _).bind_pure fun _ => h _ _

theorem gives_compute (code : Nat) : (compute code).Gives Acts := by
  refine .ite (Read.gives_pure rfl) (.ite ?_ (Read.gives_pure rfl))
  exact (Read.forward_u1 _).bind fun _ => (Read.forward_skip _ _).bind_pure fun _ => rfl

theorem gives_transfer (pc code : Nat) : (transfer pc code).Gives Acts :=
  .ite ((forward_branch16 pc).bind_pure fun _ => rfl)
    (.ite ((forward_branch16 pc).bind_pure fun _ => rfl)
    (.ite ((forward_branch32 pc).bind_pure fun _ => rfl)
    (.ite ((forward_branch16 pc).bind_pure fun _ => rfl)
    (.ite ((forward_branch32 pc).bind_pure fun _ => rfl)
    (.ite ((Read.forward_skip _ _).bind_pure fun _ => rfl)
    (.ite (gives_tableSwitch pc) (.ite (gives_lookupSwitch pc)
    (.ite ((forward_typeAt _).bind_pure fun _ => rfl) (Read.gives_pure rfl)))))))))

theorem gives_use (pool : ConstantPool) (code : Nat) : (use pool code).Gives Acts := by
  refine .ite ?_ (.ite ((forward_member pool _).bind_pure fun _ => rfl)
    (.ite ((forward_member pool _).bind_pure fun _ => rfl)
    (.ite ((forward_member pool _).bind_pure fun _ => rfl) (.ite ?_ ?_))))
  · exact (Read.forward_access _).bind fun _ => (forward_member pool _).bind_pure fun _ => rfl
  · exact (forward_member pool _).bind fun _ => (Read.forward_skip _ _).bind_pure fun _ => rfl
  · exact (Read.forward_u2 _).bind fun _ => (Read.forward_lookup _).bind fun _ =>
      (Read.forward_skip _ _).bind_pure fun _ => rfl

theorem gives_object (pool : ConstantPool) (pc code : Nat) : (object pool pc code).Gives Acts := by
  refine .ite ((forward_classOperand pool).bind_pure fun _ => rfl)
    (.ite ((Read.forward_skip _ _).bind_pure fun _ => rfl)
    (.ite ((forward_classOperand pool).bind_pure fun _ => rfl)
    (.ite (Read.gives_pure rfl) (.ite (Read.gives_pure rfl)
    (.ite (gives_wide pc) (.ite ?_ (Read.gives_fail _ _)))))))
  exact (forward_classOperand pool).bind fun _ => (Read.forward_skip _ _).bind_pure fun _ => rfl

/-- No opcode stands for a marker. -/
theorem gives_one (pool : ConstantPool) (pc code : Nat) : (one pool pc code).Gives Acts := by
  have hload (type : ValueType) (slot : Int) : Acts (.load type slot) := rfl
  have hstore (type : ValueType) (slot : Int) : Acts (.store type slot) := rfl
  exact .ite (gives_push pool code) (.ite (gives_access 0x15 hload code)
    (.ite (gives_access 0x36 hstore code) (.ite (gives_compute code)
    (.ite (gives_transfer pc code) (.ite (gives_use pool code) (gives_object pool pc code))))))

/-! ### Ascending positions -/

/-- Instructions whose positions ascend from `start`, where the first of them stands. None of them
is a marker. -/
inductive Ascending : Nat → List Instruction → Prop
  | nil (start : Nat) : Ascending start []
  | cons {i : Instruction} {next : Nat} {rest : List Instruction} (hmarker : i.isMarker = false)
      (hlt : i.pc < next) (hrest : Ascending next rest) : Ascending i.pc (i :: rest)

namespace Ascending

variable {start : Nat} {body : List Instruction}

theorem start_le (h : Ascending start body) {i : Instruction} (hi : i ∈ body) : start ≤ i.pc := by
  induction h with
  | nil => exact nomatch hi
  | cons _ hlt _ ih =>
      obtain rfl | hi := List.mem_cons.mp hi
      · exact le_rfl
      · exact hlt.le.trans (ih hi)

theorem isMarker_eq_false (h : Ascending start body) {i : Instruction} (hi : i ∈ body) :
    i.isMarker = false := by
  induction h with
  | nil => exact nomatch hi
  | cons hmarker _ _ ih =>
      obtain rfl | hi := List.mem_cons.mp hi
      · exact hmarker
      · exact ih hi

theorem pairwise (h : Ascending start body) : body.Pairwise fun i j => i.pc < j.pc := by
  induction h with
  | nil => exact .nil
  | cons _ hlt hrest ih => exact .cons (fun j hj => hlt.trans_le (hrest.start_le hj)) ih

/-- No two instructions have the same position. -/
theorem index_eq (h : Ascending start body) {k l : Nat} {i j : Instruction}
    (hk : body[k]? = some i) (hl : body[l]? = some j) (hpc : i.pc = j.pc) : k = l := by
  obtain ⟨hklt, rfl⟩ := List.getElem?_eq_some_iff.mp hk
  obtain ⟨hllt, rfl⟩ := List.getElem?_eq_some_iff.mp hl
  have hmono := List.pairwise_iff_getElem.mp h.pairwise
  rcases Nat.lt_trichotomy k l with hlt | heq | hgt
  · exact absurd hpc (hmono k l hklt hllt hlt).ne
  · exact heq
  · exact absurd hpc (hmono l k hllt hklt hgt).ne'

end Ascending

/-- Instructions are decoded from the position of the cursor on. -/
theorem ascending_upTo {pool : ConstantPool} {fuel : Nat} {c c' : Cursor}
    {body : List Instruction} (h : upTo pool fuel c = .ok (body, c')) : Ascending c.pos body := by
  induction fuel generalizing c body with
  | zero =>
      obtain ⟨rfl, -⟩ := Prod.mk.inj (Except.ok.inj h)
      exact .nil _
  | succ fuel ih =>
      obtain ⟨stop, c₁, hstop, h⟩ := run_bind_eq_ok.mp h
      obtain ⟨rfl, rfl⟩ := Prod.mk.inj (Except.ok.inj hstop)
      split at h
      · obtain ⟨rfl, -⟩ := Prod.mk.inj (Except.ok.inj h)
        exact .nil _
      obtain ⟨pc, c₁, hpc, h⟩ := run_bind_eq_ok.mp h
      obtain ⟨rfl, rfl⟩ := Prod.mk.inj (Except.ok.inj hpc)
      obtain ⟨code, c₂, hcode, h⟩ := run_bind_eq_ok.mp h
      obtain ⟨action, c₃, haction, h⟩ := run_bind_eq_ok.mp h
      obtain ⟨rest, c₄, hrest, h⟩ := run_bind_eq_ok.mp h
      obtain ⟨rfl, rfl⟩ := Prod.mk.inj (Except.ok.inj h)
      obtain ⟨hacts, hle⟩ := gives_one pool _ code c₂ action c₃ haction
      have hlt : c.pos < c₃.pos := (Read.pos_lt_of_u1 hcode).trans_le hle.pos_le
      exact .cons (i := { action, pc := c.pos }) hacts hlt (ih hrest)

/-- **The positions of decoded instructions ascend from zero.** -/
theorem ascending_body {pool : ConstantPool} {code : List UInt8} {body : List Instruction}
    (h : Decode.body pool code = .ok body) : Ascending 0 body := by
  obtain ⟨⟨_, c'⟩, hrun, rfl⟩ := except_map_eq_ok.mp h
  exact ascending_upTo hrun

end Decode

namespace Code

/-! ### Labels -/

/-- Every position that something refers to has a label. -/
theorem Content.mem_labels {c : Content} {pc : Nat} : pc ∈ c.labels ↔ pc ∈ c.references := by
  rw [Content.labels, mem_eraseReps, List.mem_mergeSort]

theorem Content.mem_labels_of_target {c : Content} {i : Instruction} (hi : i ∈ c.instructions)
    {pc : Nat} (hpc : (pc : Int) ∈ i.action.targets) : pc ∈ c.labels := by
  have htarget : pc ∈ c.instructions.flatMap fun i => i.action.targets.map Int.toNat :=
    List.mem_flatMap.mpr ⟨i, hi, List.mem_map.mpr ⟨pc, hpc, rfl⟩⟩
  rw [Content.mem_labels, Content.references]
  simp only [List.mem_append]
  exact .inl (.inl (.inl htarget))

theorem Content.mem_labels_of_handler {c : Content} {h : Handler} (hh : h ∈ c.handlers) :
    h.target ∈ c.labels := by
  have htarget : h.target ∈ c.handlers.flatMap fun h => [h.start, h.stop, h.target] :=
    List.mem_flatMap.mpr ⟨h, hh, by simp⟩
  rw [Content.mem_labels, Content.references]
  simp only [List.mem_append]
  exact .inl (.inl (.inr htarget))

/-! ### Markers between instructions -/

section Interleaving

variable {before : Instruction → List Instruction} {last : List Instruction}

/-- The first element, if it is no marker, is the first instruction, with no marker before it. -/
theorem head_of_interleaved {body rest : List Instruction} {next : Instruction}
    (hbefore : ∀ i, ∀ j ∈ before i, j.isMarker = true) (hlast : ∀ j ∈ last, j.isMarker = true)
    (hnext : next.isMarker = false)
    (h : (body.flatMap fun i => before i ++ [i]) ++ last = next :: rest) :
    ∃ body', body = next :: body' ∧ before next = [] := by
  cases body with
  | nil =>
      rw [List.flatMap_nil, List.nil_append] at h
      have hmarker := hlast next (h ▸ List.mem_cons_self)
      exact absurd hmarker (by rw [hnext]; decide)
  | cons i body =>
      rw [List.flatMap_cons, List.append_assoc, List.append_assoc] at h
      cases hi : before i with
      | nil =>
          rw [hi, List.nil_append, List.singleton_append] at h
          obtain ⟨rfl, -⟩ := List.cons.inj h
          exact ⟨body, rfl, hi⟩
      | cons j js =>
          rw [hi, List.cons_append] at h
          obtain ⟨rfl, -⟩ := List.cons.inj h
          have hmarker := hbefore i j (hi ▸ List.mem_cons_self)
          exact absurd hmarker (by rw [hnext]; decide)

/-- Two neighbours that are no markers are neighbouring instructions, with no marker before the
second one. -/
theorem adjacent_of_interleaved {body pre rest : List Instruction} {cur next : Instruction}
    (hbefore : ∀ i, ∀ j ∈ before i, j.isMarker = true) (hlast : ∀ j ∈ last, j.isMarker = true)
    (hcur : cur.isMarker = false) (hnext : next.isMarker = false)
    (h : (body.flatMap fun i => before i ++ [i]) ++ last = pre ++ cur :: next :: rest) :
    ∃ l₁ l₂, body = l₁ ++ cur :: next :: l₂ ∧ before next = [] := by
  induction body generalizing pre with
  | nil =>
      rw [List.flatMap_nil, List.nil_append] at h
      have hmarker := hlast cur (h ▸ List.mem_append_right _ List.mem_cons_self)
      exact absurd hmarker (by rw [hcur]; decide)
  | cons i body ih =>
      rw [List.flatMap_cons, List.append_assoc, List.append_assoc, List.singleton_append] at h
      -- the pair begins behind the markers of `i`, since it holds none of them
      obtain ⟨pre', hrest⟩ : ∃ pre', i :: ((body.flatMap fun i => before i ++ [i]) ++ last) =
          pre' ++ cur :: next :: rest := by
        obtain ⟨mid, -, hmid⟩ | ⟨mid, hmid, hsuffix⟩ := List.append_eq_append_iff.mp h
        · exact ⟨mid, hmid⟩
        · cases mid with
          | nil => exact ⟨[], hsuffix.symm⟩
          | cons j mid =>
              obtain ⟨rfl, -⟩ := List.cons.inj hsuffix
              have hmarker := hbefore i cur (by rw [hmid]; simp)
              exact absurd hmarker (by rw [hcur]; decide)
      cases pre' with
      | nil =>
          obtain ⟨rfl, htail⟩ := List.cons.inj hrest
          obtain ⟨body', rfl, hnone⟩ := head_of_interleaved hbefore hlast hnext htail
          exact ⟨[], body', rfl, hnone⟩
      | cons j pre' =>
          obtain ⟨rfl, htail⟩ := List.cons.inj hrest
          obtain ⟨l₁, l₂, rfl, hnone⟩ := ih htail
          exact ⟨i :: l₁, l₂, rfl, hnone⟩

end Interleaving

/-- What is placed before an instruction is a marker. -/
theorem isMarker_of_mem_markersAt {labels frames : List Nat} {lines : List LineEntry} {pc : Nat}
    {j : Instruction} (hj : j ∈ markersAt labels lines frames pc) : j.isMarker = true := by
  simp only [markersAt, List.mem_append, List.mem_map] at hj
  rcases hj with (hj | ⟨l, -, rfl⟩) | hj
  · split at hj
    · obtain rfl := List.mem_singleton.mp hj
      rfl
    · exact nomatch hj
  · rfl
  · split at hj
    · obtain rfl := List.mem_singleton.mp hj
      rfl
    · exact nomatch hj

/-- A label at the end of the code is a marker. -/
theorem isMarker_of_mem_last (labels : List Nat) (codeLength : Nat) :
    ∀ i ∈ (match labels.idxOf? codeLength with
      | some id => [{ action := Action.label id, pc := codeLength }]
      | none => [] : List Instruction), i.isMarker = true := by
  intro i hi
  split at hi
  · obtain rfl := List.mem_singleton.mp hi
    rfl
  · exact nomatch hi

theorem not_mem_of_markersAt_eq_nil {labels frames : List Nat} {lines : List LineEntry} {pc : Nat}
    (h : markersAt labels lines frames pc = []) : pc ∉ labels := by
  intro hmem
  obtain ⟨id, hid⟩ := Option.isSome_iff_exists.mp (List.isSome_idxOf?.mpr hmem)
  rw [markersAt, hid] at h
  exact absurd h (by simp)

/-- Neighbours in the body that are no markers are neighbours in the code array, and nothing
refers to the second one. -/
theorem Content.adjacent_of_body {c : Content} {j : Nat} {cur next : Instruction}
    (hj : c.body.elements[j]? = some cur) (hnext : c.body.elements[j + 1]? = some next)
    (hcur' : cur.isMarker = false) (hnext' : next.isMarker = false) :
    (∃ k, c.instructions[k]? = some cur ∧ c.instructions[k + 1]? = some next) ∧
      next.pc ∉ c.labels := by
  obtain ⟨hlt, rfl⟩ := List.getElem?_eq_some_iff.mp hj
  obtain ⟨hlt', rfl⟩ := List.getElem?_eq_some_iff.mp hnext
  have hsplit := List.take_append_drop j c.body.elements
  rw [List.drop_eq_getElem_cons hlt, List.drop_eq_getElem_cons hlt'] at hsplit
  obtain ⟨l₁, l₂, hbody, hnone⟩ := adjacent_of_interleaved
    (fun _ _ => isMarker_of_mem_markersAt) (isMarker_of_mem_last c.labels c.codeLength) hcur' hnext'
    hsplit.symm
  refine ⟨⟨l₁.length, ?_, ?_⟩, not_mem_of_markersAt_eq_nil hnone⟩
  · rw [hbody]
    simp
  · rw [hbody]
    simp

/-- Without its markers, a body is the instructions of the code array. -/
theorem Content.filter_body {c : Content} (h : ∀ i ∈ c.instructions, i.isMarker = false) :
    c.body.elements.filter (!·.isMarker) = c.instructions := by
  have hmarkers {js : List Instruction} (hjs : ∀ j ∈ js, j.isMarker = true) :
      js.filter (!·.isMarker) = [] :=
    List.filter_eq_nil_iff.mpr fun j hj => by simp [hjs j hj]
  have hmarked (is : List Instruction) (his : ∀ i ∈ is, i.isMarker = false) :
      (is.flatMap fun i => markersAt c.labels c.lines c.tables.frames i.pc ++ [i]).filter
        (!·.isMarker) = is := by
    induction is with
    | nil => rfl
    | cons i is ih =>
        rw [List.flatMap_cons, List.filter_append, List.filter_append,
          hmarkers fun j => isMarker_of_mem_markersAt, List.nil_append,
          ih fun j hj => his j (List.mem_cons_of_mem i hj),
          List.filter_cons_of_pos (by simp [his i List.mem_cons_self])]
        rfl
  have hlast := hmarkers (isMarker_of_mem_last c.labels c.codeLength)
  rw [Content.body, interleave, List.filter_append, hmarked c.instructions h]
  exact (congrArg (c.instructions ++ ·) hlast).trans (List.append_nil _)

/-! ### Contents -/

/-- What follows the code array is read only if no branch leads outside, and the instructions stay
as they are. -/
theorem readTablesOf_eq_ok {pool : ConstantPool} {codeLength : Nat}
    {instructions : List Instruction} {content : Content} {c c' : Cursor}
    (h : readTablesOf pool codeLength instructions c = .ok (content, c')) :
    content.instructions = instructions ∧ content.codeLength = codeLength ∧
      badTarget? content.codeLength content.starts content.instructions = none ∧
      ∃ c₁ c₂ c₃ handlerCount attributeCount,
        Read.u2 "exception_table_length" c = .ok (handlerCount, c₁) ∧
        Read.times handlerCount (handler pool content.starts codeLength) c₁ =
          .ok (content.handlers, c₂) ∧
        Read.u2 "code attributes_count" c₂ = .ok (attributeCount, c₃) ∧
        readTables pool attributeCount {} c₃ = .ok (content.tables, c') := by
  cases hbad : badTarget? codeLength (instructions.map (·.pc) ++ [codeLength]) instructions with
  | some x =>
      simp only [readTablesOf, hbad] at h
      exact nomatch h
  | none =>
      simp only [readTablesOf, hbad] at h
      obtain ⟨handlerCount, c₁, hcount, h⟩ := run_bind_eq_ok.mp h
      obtain ⟨handlers, c₂, hhandlers, h⟩ := run_bind_eq_ok.mp h
      obtain ⟨attributeCount, c₃, hcount', h⟩ := run_bind_eq_ok.mp h
      obtain ⟨tables, c₄, htables, h⟩ := run_bind_eq_ok.mp h
      obtain ⟨rfl, rfl⟩ := Prod.mk.inj (Except.ok.inj h)
      exact ⟨rfl, rfl, hbad, c₁, c₂, c₃, handlerCount, attributeCount, hcount, hhandlers, hcount',
        htables⟩

/-- The instructions of a code attribute are those of its code array. -/
theorem exists_code_of_readContent {pool : ConstantPool} {data : List UInt8} {content : Content}
    (h : Read.runOn data (readContent pool) = .ok content) :
    ∃ code, Decode.body pool code = .ok content.instructions := by
  obtain ⟨⟨_, c₁⟩, hrun, rfl⟩ := except_map_eq_ok.mp h
  obtain ⟨_, c₂, -, h⟩ := run_bind_eq_ok.mp hrun
  obtain ⟨_, c₃, -, h⟩ := run_bind_eq_ok.mp h
  obtain ⟨codeLength, c₄, -, h⟩ := run_bind_eq_ok.mp h
  split at h
  · exact nomatch h
  obtain ⟨code, c₅, -, h⟩ := run_bind_eq_ok.mp h
  obtain ⟨_, c₆, hlookup, h⟩ := run_bind_eq_ok.mp h
  obtain ⟨instructions, hbody, hsame⟩ := except_map_eq_ok.mp hlookup
  obtain ⟨rfl, rfl⟩ := Prod.mk.inj hsame
  obtain ⟨hsame, -⟩ := readTablesOf_eq_ok h
  exact ⟨code, hsame ▸ hbody⟩

end Code

end ClassAudit
