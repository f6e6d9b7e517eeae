import ClassAudit.Proofs.StepDecoding

/-!
# Written bodies are read back

The code array of a written body is decoded instruction by instruction: the positions of the
first pass are the positions at which the decoder stands, and a label stands at the position of
the instruction that follows it. A branch offset only determines its target up to a multiple of
65536, but a code array is shorter than that, so a branch that stays inside leads to its label.

## Main definitions

* `Step.labelIndex?` - the number of instructions before a label.
* `Layout.starts` - the positions of the instructions of a written body, and of its end.
* `Step.Renders` - a decoded instruction that means the same as a step, branches included.

## Main statements

* `Laid.decoded_of_upTo` - the code array is decoded to the steps it was written from.
* `Laid.starts_of_lookup` - a label stands where the instruction behind it begins.
* `Code.Content.OfLaid.renders` - an accepted body renders the steps that it was written from.
-/

namespace ClassAudit

namespace Step

/-- The number of instructions before a label. -/
def labelIndex? (name : String) : List Step → Option Nat
  | [] => none
  | s :: rest =>
    if s = .label name then some 0
    else if s.isInstruction then (labelIndex? name rest).map (· + 1)
    else labelIndex? name rest

/-- The bytes of an instruction are decoded to what it means; any other step has none. -/
def Spelled (v : Vocabulary) (t : ConstantPool) (labels : List (String × Nat)) (pc : Nat)
    (s : Step) (bytes : List UInt8) : Prop :=
  if s.isInstruction then s.Decodes v t labels pc bytes else bytes = []

/-- The instruction stands at the position of the step and means the same. -/
structure Decoded (v : Vocabulary) (labels : List (String × Nat)) (x : Nat × Step)
    (i : Instruction) : Prop where
  pc : i.pc = x.1
  agrees : v.Clear → x.2.Unspaced → x.2.Agrees i.action
  aims : AimsAt labels x.2.targets i.action.targets

/-- The instruction means the same as the step, and each of its targets is the position of the
instruction that follows the label: the one with as many instructions before it as the label. -/
structure Renders (steps : List Step) (body : List Instruction) (s : Step) (i : Instruction) :
    Prop where
  agrees : s.Agrees i.action
  targets : List.Forall₂ (fun name (target : Int) => ∃ k j,
    labelIndex? name steps = some k ∧ body[k]? = some j ∧ target = j.pc)
    s.targets i.action.targets

theorem Spelled.eq_nil_iff {v : Vocabulary} {t : ConstantPool} {labels : List (String × Nat)}
    {pc : Nat} {s : Step} {bytes : List UInt8} (h : s.Spelled v t labels pc bytes) :
    bytes = [] ↔ s.isInstruction = false := by
  unfold Spelled at h
  split at h
  · obtain ⟨code, operands, rfl, -⟩ := h
    exact iff_of_false (List.cons_ne_nil _ _) (by simpa)
  · exact iff_of_true h (by simp_all)

theorem size_pos {s : Step} (hs : s.isInstruction = true) (pc : Nat) (p : PoolBuilder) :
    0 < (s.size pc p).1 := by
  have hslot (slot : Int) : 0 < slotSize slot := by
    rw [slotSize]
    split_ifs <;> decide
  have hpush (n : Nat) : 0 < pushSize n := by
    rw [pushSize]
    split_ifs <;> decide
  cases s with
  | label | line | frame => exact absurd hs Bool.false_ne_true
  | load type slot => exact hslot slot
  | store type slot => exact hslot slot
  | inc slot delta =>
      show 0 < if isWideInc slot delta then 6 else 3
      split_ifs <;> decide
  | int value =>
      obtain ⟨_, _, -, hsize, -⟩ | ⟨hsize, -⟩ := int_forms value
      · rw [hsize]
        exact Nat.succ_pos _
      · rw [hsize]
        exact hpush _
  | string text => exact hpush _
  | invoke kind m => cases kind <;> exact Nat.succ_pos _
  | tableSwitch | lookupSwitch => exact Nat.add_pos_left (Nat.succ_pos _) _
  | _ => exact Nat.succ_pos _

/-- Whatever operands it has, an instruction takes bytes, and nothing else does. -/
theorem Written.eq_nil_iff {v : Vocabulary} {t : ConstantPool} {labels : List (String × Nat)}
    {pc : Nat} {s : Step} {bytes : List UInt8} (h : s.Written v t labels pc bytes) :
    bytes = [] ↔ s.isInstruction = false := by
  refine ⟨fun hnil => ?_, h.eq_nil⟩
  obtain ⟨p, p', hencode, -⟩ := h
  have hlength := length_encode hencode
  rw [hnil, List.length_nil] at hlength
  rw [← Bool.not_eq_true]
  intro hs
  exact (size_pos hs pc p).ne hlength

end Step

/-! ### Positions of laid out steps -/

namespace Layout

/-- The positions of the instructions of a written body, and of its end. -/
def starts (located : List (Nat × Step)) (stop : Nat) : List Nat :=
  (located.filter (·.2.isInstruction)).map (·.1) ++ [stop]

variable {pc stop : Nat} {s : Step} {located : List (Nat × Step)}

theorem starts_cons_of_instruction (h : s.isInstruction = true) :
    starts ((pc, s) :: located) stop = pc :: starts located stop := by
  simp [starts, h]

theorem starts_cons_of_pseudo (h : s.isInstruction = false) :
    starts ((pc, s) :: located) stop = starts located stop := by
  simp [starts, h]

theorem labels_cons_label (name : String) :
    labels ⟨(pc, .label name) :: located⟩ = (name, pc) :: labels ⟨located⟩ :=
  rfl

end Layout

namespace Laid

variable {W W' : Nat → Step → List UInt8 → Prop} {v : Vocabulary} {t : ConstantPool}
  {labels : List (String × Nat)} {pc : Nat} {located : List (Nat × Step)}
  {pieces : List (List UInt8)}

theorem imp (h : Laid W pc located pieces)
    (himp : ∀ pc s bytes, s ∈ located.map (·.2) → W pc s bytes → W' pc s bytes) :
    Laid W' pc located pieces := by
  induction h with
  | nil pc => exact .nil pc
  | cons hs _ ih =>
      refine .cons (himp _ _ _ List.mem_cons_self hs) (ih fun pc s bytes hmem => ?_)
      exact himp pc s bytes (List.mem_cons_of_mem _ hmem)

section Positions

variable (hW : ∀ pc s bytes, W pc s bytes → (bytes = [] ↔ s.isInstruction = false))

include hW

/-- Each instruction begins behind the one before it. -/
theorem starts_ascending (h : Laid W pc located pieces) :
    (Layout.starts located (pc + pieces.flatten.length)).Pairwise (· < ·) ∧
      ∀ start ∈ Layout.starts located (pc + pieces.flatten.length), pc ≤ start := by
  induction h with
  | nil pc => simp [Layout.starts]
  | @cons pc s bytes rest pieces hs _ ih =>
      obtain ⟨hpairwise, hle⟩ := ih
      rw [List.flatten_cons, List.length_append, ← Nat.add_assoc]
      cases hi : s.isInstruction with
      | true =>
          have hpos : 0 < bytes.length := List.length_pos_iff.mpr fun hnil => by
            rw [(hW _ _ _ hs).mp hnil] at hi
            exact nomatch hi
          rw [Layout.starts_cons_of_instruction hi]
          refine ⟨.cons (fun start hstart => ?_) hpairwise, fun start hstart => ?_⟩
          · have := hle start hstart
            omega
          · obtain rfl | hstart := List.mem_cons.mp hstart
            · exact le_rfl
            · exact (Nat.le_add_right _ _).trans (hle start hstart)
      | false =>
          rw [Layout.starts_cons_of_pseudo hi]
          exact ⟨hpairwise, fun start hstart => (Nat.le_add_right _ _).trans (hle start hstart)⟩

/-- No instruction begins behind the end of the body. -/
theorem starts_le (h : Laid W pc located pieces) {start : Nat}
    (hstart : start ∈ Layout.starts located (pc + pieces.flatten.length)) :
    start ≤ pc + pieces.flatten.length := by
  have hpairwise := (starts_ascending hW h).1
  rw [Layout.starts] at hstart hpairwise
  obtain hstart | hstart := List.mem_append.mp hstart
  · exact ((List.pairwise_append.mp hpairwise).2.2 start hstart _ (List.mem_singleton.mpr rfl)).le
  · exact (List.mem_singleton.mp hstart).le

/-- The first instruction, or else the end, is where the body begins. -/
theorem starts_zero (h : Laid W pc located pieces) :
    (Layout.starts located (pc + pieces.flatten.length))[0]? = some pc := by
  induction h with
  | nil pc => rfl
  | @cons pc s bytes rest pieces hs _ ih =>
      rw [List.flatten_cons, List.length_append, ← Nat.add_assoc]
      cases hi : s.isInstruction with
      | true => rw [Layout.starts_cons_of_instruction hi, List.getElem?_cons_zero]
      | false =>
          obtain rfl := (hW _ _ _ hs).mpr hi
          rw [Layout.starts_cons_of_pseudo hi]
          exact ih

/-- A label stands where the instruction behind it begins, or at the end of the body. -/
theorem starts_of_lookup (h : Laid W pc located pieces) {name : String} {target : Nat}
    (hname : (Layout.labels ⟨located⟩).lookup name = some target) :
    ∃ k, Step.labelIndex? name (located.map (·.2)) = some k ∧
      (Layout.starts located (pc + pieces.flatten.length))[k]? = some target := by
  induction h with
  | nil pc => exact nomatch hname
  | @cons pc s bytes rest pieces hs hrest ih =>
      by_cases hlabel : s = .label name
      · have hzero := starts_zero hW (Laid.cons hs hrest)
        subst hlabel
        refine ⟨0, by rw [List.map_cons, Step.labelIndex?, if_pos rfl], ?_⟩
        rw [hzero]
        rwa [Layout.labels_cons_label, List.lookup_cons_self] at hname
      -- any other step neither is nor hides the label
      have hlater : (Layout.labels ⟨rest⟩).lookup name = some target := by
        cases s with
        | label other =>
            have hne : (name == other) = false := by
              rw [beq_eq_false_iff_ne]
              rintro rfl
              exact hlabel rfl
            rwa [Layout.labels_cons_label, List.lookup_cons, hne] at hname
        | _ => exact hname
      obtain ⟨k, hk, hstart⟩ := ih hlater
      rw [List.flatten_cons, List.length_append, ← Nat.add_assoc, List.map_cons, Step.labelIndex?,
        if_neg hlabel]
      cases hi : s.isInstruction with
      | true =>
          refine ⟨k + 1, by rw [if_pos rfl, hk]; rfl, ?_⟩
          rw [Layout.starts_cons_of_instruction hi, List.getElem?_cons_succ]
          exact hstart
      | false =>
          refine ⟨k, by rw [if_neg (by simp), hk], ?_⟩
          rw [Layout.starts_cons_of_pseudo hi]
          exact hstart

end Positions

/-! ### Decoding -/

/-- **The code array of a body is decoded to the instructions that it was written from.** -/
theorem decoded_of_upTo (h : Laid (Step.Spelled v t labels) pc located pieces)
    (hlength : pieces.flatten.length < 65536) {fuel : Nat} (hfuel : pieces.flatten.length ≤ fuel)
    {body : List Instruction} {c : Cursor}
    (hrun : Decode.upTo t fuel ⟨pieces.flatten, pc⟩ = .ok (body, c)) :
    List.Forall₂ (Step.Decoded v labels) (located.filter (·.2.isInstruction)) body := by
  induction h generalizing fuel body with
  | nil pc =>
      cases fuel with
      | zero =>
          obtain ⟨rfl, -⟩ := Prod.mk.inj (Except.ok.inj hrun)
          exact .nil
      | succ fuel =>
          obtain ⟨rfl, -⟩ := Prod.mk.inj (Except.ok.inj hrun)
          exact .nil
  | @cons pc s bytes rest pieces hs _ ih =>
      rw [List.flatten_cons, List.length_append] at hlength hfuel
      rw [List.flatten_cons] at hrun
      cases hi : s.isInstruction with
      | false =>
          rw [Step.Spelled, if_neg (by simp [hi])] at hs
          obtain rfl := hs
          rw [List.filter_cons_of_neg (by simp [hi])]
          exact ih (by omega) (by omega) hrun
      | true =>
          rw [Step.Spelled, if_pos hi] at hs
          obtain ⟨code, operands, rfl, haccepts⟩ := hs
          rw [List.length_cons] at hlength hfuel
          obtain ⟨fuel, rfl⟩ : ∃ n, fuel = n + 1 := ⟨fuel - 1, by omega⟩
          obtain ⟨stop, c₁, hstop, hrun⟩ := run_bind_eq_ok.mp hrun
          obtain ⟨rfl, rfl⟩ := Prod.mk.inj (Except.ok.inj hstop)
          obtain ⟨pc', c₁, hpc, hrun⟩ := run_bind_eq_ok.mp hrun
          obtain ⟨rfl, rfl⟩ := Prod.mk.inj (Except.ok.inj hpc)
          obtain ⟨code', c₂, hcode, hrun⟩ := run_bind_eq_ok.mp hrun
          obtain ⟨action, c₃, haction, hrun⟩ := run_bind_eq_ok.mp hrun
          obtain ⟨body', c₄, hbody, hrun⟩ := run_bind_eq_ok.mp hrun
          obtain ⟨rfl, rfl⟩ := Prod.mk.inj (Except.ok.inj hrun)
          have hread := Read.yields_value [code] "opcode" pc (operands ++ pieces.flatten)
          obtain ⟨rfl, rfl⟩ := Prod.mk.inj (Except.ok.inj (hread.symm.trans hcode))
          rw [show Binary.value [code] = code.toNat by simp [Binary.value]] at haction
          obtain ⟨rfl, hagrees, haims⟩ := haccepts pieces.flatten action c₃
            (by rw [List.length_append]; omega) haction
          rw [List.filter_cons_of_pos (a := (pc, s)) hi]
          have hrest : pieces.flatten.length ≤ fuel := by omega
          refine .cons ⟨rfl, hagrees, haims⟩ (ih (by omega) hrest ?_)
          rw [List.length_cons, Nat.add_comm operands.length, ← Nat.add_assoc]
          exact hbody

end Laid

namespace Code

/-- A branch that is accepted stays inside the code array. -/
theorem target_inside {codeLength : Nat} {starts : List Nat} {body : List Instruction}
    (h : badTarget? codeLength starts body = none) {i : Instruction} (hi : i ∈ body) {target : Int}
    (htarget : target ∈ i.action.targets) : 0 ≤ target ∧ target < codeLength := by
  have hnone := List.findSome?_eq_none_iff.mp h i hi
  rw [Option.map_eq_none_iff] at hnone
  have hgood := List.find?_eq_none.mp hnone target htarget
  simp only [Bool.or_eq_true, decide_eq_true_eq, not_or] at hgood
  omega

/-- The content of an accepted code attribute whose code array is laid out. -/
structure Content.OfLaid (v : Vocabulary) (t : ConstantPool) (located : List (Nat × Step))
    (pieces : List (List UInt8)) (content : Content) : Prop where
  laid : Laid (Step.Spelled v t (Layout.labels ⟨located⟩)) 0 located pieces
  codeLength : content.codeLength = pieces.flatten.length
  small : content.codeLength < 65536
  instructions : Decode.body t pieces.flatten = .ok content.instructions
  inside : badTarget? content.codeLength content.starts content.instructions = none

namespace Content.OfLaid

variable {v : Vocabulary} {t : ConstantPool} {located : List (Nat × Step)}
  {pieces : List (List UInt8)} {content : Content}

theorem decoded (h : content.OfLaid v t located pieces) :
    List.Forall₂ (Step.Decoded v (Layout.labels ⟨located⟩)) (located.filter (·.2.isInstruction))
      content.instructions := by
  obtain ⟨⟨_, c⟩, hrun, heq⟩ := except_map_eq_ok.mp h.instructions
  obtain rfl := heq
  exact h.laid.decoded_of_upTo (h.codeLength ▸ h.small) le_rfl hrun

/-- The instructions begin where the first pass put them. -/
theorem starts_eq (h : content.OfLaid v t located pieces) :
    content.starts = Layout.starts located (0 + pieces.flatten.length) := by
  have hpcs : List.Forall₂ (· = ·) ((located.filter (·.2.isInstruction)).map (·.1))
      (content.instructions.map (·.pc)) := by
    rw [List.forall₂_map_left_iff, List.forall₂_map_right_iff]
    exact h.decoded.imp fun _ _ hdecoded => hdecoded.pc.symm
  rw [List.forall₂_eq_eq_eq] at hpcs
  rw [Content.starts, Layout.starts, hpcs, h.codeLength, Nat.zero_add]

theorem starts_ascending (h : content.OfLaid v t located pieces) :
    content.starts.Pairwise (· < ·) := by
  rw [h.starts_eq]
  exact (Laid.starts_ascending (fun _ _ _ => Step.Spelled.eq_nil_iff) h.laid).1

/-- A label stands where the instruction behind it begins, or at the end of the code array. -/
theorem starts_of_lookup (h : content.OfLaid v t located pieces) {name : String} {target : Nat}
    (hname : (Layout.labels ⟨located⟩).lookup name = some target) :
    ∃ k, Step.labelIndex? name (located.map (·.2)) = some k ∧
      content.starts[k]? = some target := by
  rw [h.starts_eq]
  exact Laid.starts_of_lookup (fun _ _ _ => Step.Spelled.eq_nil_iff) h.laid hname

/-- No position lies behind the end of the code array. -/
theorem le_codeLength (h : content.OfLaid v t located pieces) {start : Nat}
    (hstart : start ∈ content.starts) : start ≤ content.codeLength := by
  rw [h.starts_eq] at hstart
  have hle := Laid.starts_le (fun _ _ _ => Step.Spelled.eq_nil_iff) h.laid hstart
  rwa [Nat.zero_add, ← h.codeLength] at hle

/-- A branch that stays inside the code array leads to the instruction behind its label. -/
theorem target_eq (h : content.OfLaid v t located pieces) {name : String} {target k : Int}
    {pc : Nat} (hname : (Layout.labels ⟨located⟩).lookup name = some pc)
    (htarget : target = pc + k * 65536) (hinside : 0 ≤ target ∧ target < content.codeLength) :
    ∃ n j, Step.labelIndex? name (located.map (·.2)) = some n ∧
      content.instructions[n]? = some j ∧ target = j.pc := by
  obtain ⟨n, hn, hstart⟩ := h.starts_of_lookup hname
  have hle := h.le_codeLength (List.mem_of_getElem? hstart)
  have hsmall := h.small
  obtain rfl : k = 0 := by omega
  obtain rfl : target = pc := by omega
  rw [Content.starts] at hstart
  by_cases hlt : n < content.instructions.length
  · rw [List.getElem?_append_left (by rwa [List.length_map]), List.getElem?_map,
      Option.map_eq_some_iff] at hstart
    obtain ⟨j, hj, rfl⟩ := hstart
    exact ⟨n, j, hn, hj, rfl⟩
  · rw [List.getElem?_append_right (by rw [List.length_map]; omega)] at hstart
    obtain rfl := List.mem_singleton.mp (List.mem_of_getElem? hstart)
    omega

/-- **An accepted body renders the steps that it was written from.** -/
theorem renders (h : content.OfLaid v t located pieces) (hclear : v.Clear)
    (hspaced : ∀ s ∈ located.map (·.2), s.Unspaced) :
    List.Forall₂ (Step.Renders (located.map (·.2)) content.instructions)
      ((located.map (·.2)).filter (·.isInstruction)) content.instructions := by
  rw [List.filter_map, List.forall₂_map_left_iff]
  refine forall₂_imp_of_mem h.decoded fun x hx i hi hdecoded => ?_
  have hmem : x.2 ∈ located.map (·.2) := List.mem_map_of_mem (List.mem_filter.mp hx).1
  refine ⟨hdecoded.agrees hclear (hspaced x.2 hmem), ?_⟩
  refine forall₂_imp_of_mem hdecoded.aims fun name _ target htarget haims => ?_
  obtain ⟨pc, k, hname, heq⟩ := haims
  exact h.target_eq hname heq (target_inside h.inside hi htarget)

end Content.OfLaid

end Code

end ClassAudit
