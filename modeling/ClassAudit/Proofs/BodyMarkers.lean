import ClassAudit.Proofs.BodyLayout

/-!
# Where markers stand

The tables of a code attribute come in any order, name positions several times, and may point
between instructions or behind the code array. In the body that is made of them, every instruction
stands directly behind its markers: at most one label, then its source lines in the order of the
table, then at most one frame. A label at the end of the code array comes last. Labels are numbered
in the order in which they stand, and every branch leads to a labelled instruction.

## Main definitions

* `Code.Content.Mentions` - something refers to a position.
* `Code.Content.MarksAt` - the markers of a position.
* `Code.Content.Materialized` - a body with its markers in their places.

## Main statements

* `Decode.pc_lt_of_body` - instructions begin before the end of the code array.
* `Code.sound_of_readContent` - what is accepted refers to instructions, or to the end.
* `Code.Content.Sound.mem_labels_iff` - exactly the positions that something refers to have labels.
* `Code.read_materializes` - the shape of every body that is read.
-/

namespace ClassAudit

/-! ### Positions of instructions -/

namespace Decode

/-- Instructions are decoded from bytes that are left. -/
theorem pc_lt_of_upTo {pool : ConstantPool} {fuel : Nat} {c c' : Cursor} {body : List Instruction}
    (h : upTo pool fuel c = .ok (body, c')) {i : Instruction} (hi : i ∈ body) :
    i.pc < c.pos + c.rest.length := by
  induction fuel generalizing c body with
  | zero =>
      obtain ⟨rfl, -⟩ := Prod.mk.inj (Except.ok.inj h)
      exact nomatch hi
  | succ fuel ih =>
      obtain ⟨stop, c₁, hstop, h⟩ := run_bind_eq_ok.mp h
      obtain ⟨rfl, rfl⟩ := Prod.mk.inj (Except.ok.inj hstop)
      split at h
      · obtain ⟨rfl, -⟩ := Prod.mk.inj (Except.ok.inj h)
        exact nomatch hi
      rename_i hrest
      obtain ⟨pc, c₁, hpc, h⟩ := run_bind_eq_ok.mp h
      obtain ⟨rfl, rfl⟩ := Prod.mk.inj (Except.ok.inj hpc)
      obtain ⟨code, c₂, hcode, h⟩ := run_bind_eq_ok.mp h
      obtain ⟨action, c₃, haction, h⟩ := run_bind_eq_ok.mp h
      obtain ⟨rest, c₄, hbody, h⟩ := run_bind_eq_ok.mp h
      obtain ⟨rfl, rfl⟩ := Prod.mk.inj (Except.ok.inj h)
      obtain rfl | hi := List.mem_cons.mp hi
      · have hpos : 0 < c.rest.length := List.length_pos_iff.mpr (by simpa using hrest)
        exact Nat.lt_add_of_pos_right hpos
      · -- the opcode and its operands only move bytes from before the cursor to behind it
        have hmoved := (Read.forward_u1 _ c code c₂ hcode).2.trans
          (gives_one pool _ code c₂ action c₃ haction).2
        rw [← hmoved.total_eq]
        exact ih hbody hi

/-- Instructions begin before the end of the code array. -/
theorem pc_lt_of_body {pool : ConstantPool} {code : List UInt8} {body : List Instruction}
    (h : Decode.body pool code = .ok body) {i : Instruction} (hi : i ∈ body) :
    i.pc < code.length := by
  obtain ⟨⟨_, c'⟩, hrun, rfl⟩ := except_map_eq_ok.mp h
  have hlt := pc_lt_of_upTo hrun hi
  rwa [Nat.zero_add] at hlt

end Decode

/-- The number of a label. -/
def Action.label? : Action → Option Int
  | .label id => some id
  | _ => none

namespace Code

namespace Content

section Shape

variable (c : Content)

/-! ### What refers to positions -/

/-- An instruction begins at the position. -/
def Begins (pc : Nat) : Prop := ∃ i ∈ c.instructions, i.pc = pc

/-- An instruction begins at the position, or the code array ends there. -/
def Bounds (pc : Nat) : Prop := c.Begins pc ∨ pc = c.codeLength

/-- The line number is at an instruction. -/
def KeepsLine (l : LineEntry) : Prop := l ∈ c.tables.lines ∧ c.Begins l.pc

/-- The range of the local variable lies between instructions. -/
def KeepsLocal (l : LocalEntry) : Prop :=
  l ∈ c.tables.locals ∧ c.Bounds l.start ∧ c.Bounds l.stop

/-- Something refers to the position: a branch or a switch, an exception handler with its range, a
line number or a local variable that is kept. -/
inductive Mentions (pc : Nat) : Prop
  | target {i : Instruction} (hi : i ∈ c.instructions) (hpc : (pc : Int) ∈ i.action.targets)
  | handler {h : Handler} (hh : h ∈ c.handlers) (hpc : pc = h.start ∨ pc = h.stop ∨ pc = h.target)
  | line {l : LineEntry} (hl : c.KeepsLine l) (hpc : pc = l.pc)
  | localVariable {l : LocalEntry} (hl : c.KeepsLocal l) (hpc : pc = l.start ∨ pc = l.stop)

/-- A range ends with the code array, or a local variable that is kept begins there. -/
def MentionsEnd : Prop :=
  (∃ h ∈ c.handlers, h.stop = c.codeLength) ∨
    ∃ l, c.KeepsLocal l ∧ (l.start = c.codeLength ∨ l.stop = c.codeLength)

/-! ### The shape of a body -/

/-- The markers are those of the position, in this order: a label if something refers to the
position, its line numbers in the order of the table, a frame if one is described there. -/
def MarksAt (pc : Nat) (markers : List Instruction) : Prop :=
  ∃ label lines frame, markers = label ++ lines ++ frame ∧
    (c.Mentions pc → ∃ id, label = [{ action := .label id, pc }]) ∧
    (¬c.Mentions pc → label = []) ∧
    lines = (c.tables.lines.filter (·.pc == pc)).map (fun l => { action := .line l.line, pc }) ∧
    (pc ∈ c.tables.frames → frame = [{ action := .frame, pc }]) ∧
    (pc ∉ c.tables.frames → frame = [])

/-- The elements are the instructions, each behind its markers, and a label at the end of the code
array if something refers to it. -/
structure Materialized (elements : List Instruction)
    (groups : List (List Instruction × Instruction)) (last : List Instruction) : Prop where
  elements_eq : elements = (groups.flatMap fun g => g.1 ++ [g.2]) ++ last
  instructions_eq : groups.map (·.2) = c.instructions
  /-- Without the markers, the instructions are left in their order. -/
  semantic_eq : elements.filter (!·.isMarker) = c.instructions
  marked : ∀ g ∈ groups, c.MarksAt g.2.pc g.1
  ended : (c.MentionsEnd → ∃ id, last = [{ action := .label id, pc := c.codeLength }]) ∧
    (¬c.MentionsEnd → last = [])
  /-- The labels are numbered in the order in which they stand. -/
  numbered : ∃ n, elements.filterMap (·.action.label?) = (List.range n).map Nat.cast
  /-- Every branch leads to a labelled instruction. -/
  targeted : ∀ i ∈ elements, ∀ target ∈ i.action.targets, ∃ g ∈ groups, (g.2.pc : Int) = target ∧
    ∃ id, { action := .label id, pc := g.2.pc } ∈ g.1

/-- Instructions are in order, and everything refers to instructions or to the end of the code
array. -/
structure Sound : Prop where
  ascending : Decode.Ascending 0 c.instructions
  pc_lt : ∀ i ∈ c.instructions, i.pc < c.codeLength
  targets : ∀ i ∈ c.instructions, ∀ target ∈ i.action.targets, ∃ pc : Nat,
    (pc : Int) = target ∧ c.Begins pc
  handlers : ∀ h ∈ c.handlers, c.Begins h.start ∧ c.Bounds h.stop ∧ c.Begins h.target

end Shape

variable {c : Content}

theorem mem_starts {pc : Nat} : pc ∈ c.starts ↔ c.Bounds pc := by
  rw [starts, List.mem_append, List.mem_map, List.mem_singleton]
  rfl

theorem mem_locals {l : LocalEntry} : l ∈ c.locals ↔ c.KeepsLocal l := by
  rw [locals, List.mem_filter, Bool.and_eq_true, List.contains_iff_mem, List.contains_iff_mem,
    mem_starts, mem_starts]
  rfl

namespace Sound

/-- No instruction begins where the code array ends. -/
theorem not_begins_codeLength (h : c.Sound) : ¬c.Begins c.codeLength := by
  rintro ⟨i, hi, hpc⟩
  exact absurd hpc (h.pc_lt i hi).ne

theorem pairwise_starts (h : c.Sound) : c.starts.Pairwise (· < ·) := by
  rw [starts, List.pairwise_append]
  refine ⟨List.pairwise_map.mpr h.ascending.pairwise, List.pairwise_singleton _ _, ?_⟩
  intro pc hpc stop hstop
  obtain ⟨i, hi, rfl⟩ := List.mem_map.mp hpc
  obtain rfl := List.mem_singleton.mp hstop
  exact h.pc_lt i hi

theorem mem_lines (h : c.Sound) {l : LineEntry} : l ∈ c.lines ↔ c.KeepsLine l := by
  rw [lines, List.mem_filter, Bool.and_eq_true, List.contains_iff_mem, mem_starts, bne_iff_ne]
  refine and_congr_right fun _ => ⟨fun hl => hl.1.resolve_right hl.2, fun hl => ⟨.inl hl, ?_⟩⟩
  intro hpc
  exact h.not_begins_codeLength (hpc ▸ hl)

/-- The line numbers at an instruction are all kept. -/
theorem filter_lines (h : c.Sound) {pc : Nat} (hpc : c.Begins pc) :
    c.lines.filter (·.pc == pc) = c.tables.lines.filter (·.pc == pc) := by
  rw [lines, List.filter_filter]
  refine List.filter_congr fun l _ => ?_
  rw [Bool.and_eq_left_iff_imp]
  intro hl
  obtain rfl := eq_of_beq hl
  rw [Bool.and_eq_true, List.contains_iff_mem, mem_starts, bne_iff_ne]
  exact ⟨.inl hpc, fun hend => h.not_begins_codeLength (hend ▸ hpc)⟩

/-! ### Labels -/

/-- Exactly the positions that something refers to have labels. -/
theorem mem_labels_iff (h : c.Sound) {pc : Nat} : pc ∈ c.labels ↔ c.Mentions pc := by
  rw [mem_labels, references]
  simp only [List.mem_append, List.mem_flatMap, List.mem_map]
  constructor
  · rintro (((⟨i, hi, target, htarget, hpc⟩ | ⟨e, he, hpc⟩) | ⟨l, hl, hpc⟩) | ⟨l, hl, hpc⟩)
    · obtain ⟨n, rfl, -⟩ := h.targets i hi target htarget
      rw [Int.toNat_natCast] at hpc
      exact .target hi (hpc ▸ htarget)
    · exact .handler he (by simpa using hpc)
    · exact .line (h.mem_lines.mp hl) hpc.symm
    · exact .localVariable (mem_locals.mp hl) (by simpa using hpc)
  · rintro (⟨hi, hpc⟩ | ⟨he, hpc⟩ | ⟨hl, hpc⟩ | ⟨hl, hpc⟩)
    · exact .inl (.inl (.inl ⟨_, hi, _, hpc, Int.toNat_natCast pc⟩))
    · exact .inl (.inl (.inr ⟨_, he, by simpa using hpc⟩))
    · exact .inl (.inr ⟨_, h.mem_lines.mpr hl, hpc.symm⟩)
    · exact .inr ⟨_, mem_locals.mpr hl, by simpa using hpc⟩

/-- Nothing refers to a position between instructions or behind the code array. -/
theorem bounds_of_mentions (h : c.Sound) {pc : Nat} (hpc : c.Mentions pc) : c.Bounds pc := by
  rcases hpc with ⟨hi, hpc⟩ | ⟨he, hpc⟩ | ⟨hl, rfl⟩ | ⟨hl, hpc⟩
  · obtain ⟨n, hn, hbegins⟩ := h.targets _ hi _ hpc
    obtain rfl : n = pc := by exact_mod_cast hn
    exact .inl hbegins
  · obtain ⟨hstart, hstop, htarget⟩ := h.handlers _ he
    obtain rfl | rfl | rfl := hpc
    · exact .inl hstart
    · exact hstop
    · exact .inl htarget
  · exact .inl hl.2
  · obtain rfl | rfl := hpc
    · exact hl.2.1
    · exact hl.2.2

/-- Only ranges, and local variables without a range, refer to the end of the code array. -/
theorem mentions_codeLength_iff (h : c.Sound) : c.Mentions c.codeLength ↔ c.MentionsEnd := by
  constructor
  · rintro (⟨hi, hpc⟩ | ⟨he, hpc⟩ | ⟨hl, hpc⟩ | ⟨hl, hpc⟩)
    · obtain ⟨n, hn, hbegins⟩ := h.targets _ hi _ hpc
      obtain rfl : n = c.codeLength := by exact_mod_cast hn
      exact absurd hbegins h.not_begins_codeLength
    · obtain ⟨hstart, -, htarget⟩ := h.handlers _ he
      obtain hpc | hpc | hpc := hpc
      · exact absurd (hpc ▸ hstart) h.not_begins_codeLength
      · exact .inl ⟨_, he, hpc.symm⟩
      · exact absurd (hpc ▸ htarget) h.not_begins_codeLength
    · exact absurd (hpc ▸ hl.2) h.not_begins_codeLength
    · exact .inr ⟨_, hl, hpc.imp Eq.symm Eq.symm⟩
  · rintro (⟨e, he, hstop⟩ | ⟨l, hl, hpc⟩)
    · exact .handler he (.inr (.inl hstop.symm))
    · exact .localVariable hl (hpc.imp Eq.symm Eq.symm)

theorem pairwise_labels (c : Content) : c.labels.Pairwise (· < ·) :=
  pairwise_eraseReps (List.pairwise_mergeSort' (· ≤ ·) c.references)

/-- Met in the order of positions, the labels are numbered 0, 1, 2 and so on. -/
theorem filterMap_starts (h : c.Sound) :
    c.starts.filterMap c.labels.idxOf? = List.range c.labels.length :=
  filterMap_idxOf?_eq_range (pairwise_labels c) h.pairwise_starts fun _ hpc =>
    mem_starts.mpr (h.bounds_of_mentions (h.mem_labels_iff.mp hpc))

/-! ### Markers -/

/-- The markers that are placed before an instruction are those of its position. -/
theorem marksAt (h : c.Sound) {pc : Nat} (hpc : c.Begins pc) :
    c.MarksAt pc (markersAt c.labels c.lines c.tables.frames pc) := by
  refine ⟨_, _, _, rfl, fun hm => ?_, fun hm => ?_, ?_, fun hf => ?_, fun hf => ?_⟩
  · rw [idxOf?_of_mem (h.mem_labels_iff.mpr hm)]
    exact ⟨_, rfl⟩
  · rw [List.idxOf?_eq_none_iff.mpr (mt h.mem_labels_iff.mp hm)]
  · rw [h.filter_lines hpc]
  · rw [if_pos (List.contains_iff_mem.mpr hf)]
  · rw [if_neg (mt List.contains_iff_mem.mp hf)]

end Sound

end Content

/-- At most one marker of a position is a label, and it has the number of the position. -/
theorem filterMap_markersAt (labels frames : List Nat) (lines : List LineEntry) (pc : Nat) :
    (markersAt labels lines frames pc).filterMap (·.action.label?) =
      (labels.idxOf? pc).toList.map Nat.cast := by
  have hlines (ls : List LineEntry) :
      (ls.map fun l => ({ action := .line l.line, pc } : Instruction)).filterMap
        (·.action.label?) = [] := by
    rw [List.filterMap_map]
    exact List.filterMap_eq_nil_iff.mpr fun _ _ => rfl
  rw [markersAt, List.filterMap_append, List.filterMap_append, hlines, List.append_nil]
  have hframe : (if frames.contains pc then [({ action := .frame, pc } : Instruction)]
      else []).filterMap (·.action.label?) = [] := by
    split <;> rfl
  rw [hframe, List.append_nil]
  cases labels.idxOf? pc with
  | none => rfl
  | some id => rfl

theorem label?_eq_none {i : Instruction} (h : i.isMarker = false) : i.action.label? = none := by
  cases hi : i.action with
  | label id =>
      rw [Instruction.isMarker, hi] at h
      exact nomatch h
  | _ => rfl

namespace Content

variable {c : Content}

/-- The instructions, each with the markers that are placed before it. -/
def groups (c : Content) : List (List Instruction × Instruction) :=
  c.instructions.map fun i => (markersAt c.labels c.lines c.tables.frames i.pc, i)

/-- The label at the end of the code array, if there is one. -/
def endLabel (c : Content) : List Instruction :=
  (c.labels.idxOf? c.codeLength).toList.map fun id =>
    { action := .label id, pc := c.codeLength }

theorem body_eq (c : Content) :
    c.body.elements = (c.groups.flatMap fun g => g.1 ++ [g.2]) ++ c.endLabel := by
  rw [body, interleave, groups, List.flatMap_map, endLabel]
  cases c.labels.idxOf? c.codeLength with
  | none => rfl
  | some id => rfl

/-- The labels before instructions have the numbers of their positions. -/
theorem filterMap_marked (c : Content) {is : List Instruction}
    (h : ∀ i ∈ is, i.isMarker = false) :
    (is.flatMap fun i => markersAt c.labels c.lines c.tables.frames i.pc ++ [i]).filterMap
      (·.action.label?) = ((is.map (·.pc)).filterMap c.labels.idxOf?).map Nat.cast := by
  induction is with
  | nil => rfl
  | cons i is ih =>
      have hi : [i].filterMap (·.action.label?) = [] := by
        simp [label?_eq_none (h i List.mem_cons_self)]
      rw [List.flatMap_cons, List.filterMap_append, List.filterMap_append, filterMap_markersAt, hi,
        List.append_nil, ih fun j hj => h j (List.mem_cons_of_mem i hj), List.map_cons,
        List.filterMap_cons]
      cases c.labels.idxOf? i.pc with
      | none => rfl
      | some id => rfl

/-- The labels of a body have the numbers of its positions, in their order. -/
theorem filterMap_body (h : ∀ i ∈ c.instructions, i.isMarker = false) :
    c.body.elements.filterMap (·.action.label?) =
      (c.starts.filterMap c.labels.idxOf?).map Nat.cast := by
  rw [body_eq, List.filterMap_append, groups, List.flatMap_map, filterMap_marked c h, starts,
    List.filterMap_append, List.map_append, endLabel, List.filterMap_cons]
  cases c.labels.idxOf? c.codeLength with
  | none => rfl
  | some id => rfl

namespace Sound

/-- A label at the end of the code array stands for a range that ends there. -/
theorem endLabel_eq (h : c.Sound) :
    (c.MentionsEnd → ∃ id, c.endLabel = [{ action := .label id, pc := c.codeLength }]) ∧
      (¬c.MentionsEnd → c.endLabel = []) := by
  rw [← h.mentions_codeLength_iff, ← h.mem_labels_iff, endLabel]
  constructor
  · intro hmem
    rw [idxOf?_of_mem hmem]
    exact ⟨_, rfl⟩
  · intro hmem
    rw [List.idxOf?_eq_none_iff.mpr hmem]
    rfl

/-- Every branch of a body leads to a labelled instruction. -/
theorem exists_labelled (h : c.Sound) {i : Instruction} (hi : i ∈ c.instructions) {target : Int}
    (htarget : target ∈ i.action.targets) :
    ∃ g ∈ c.groups, (g.2.pc : Int) = target ∧
      ∃ id, { action := .label id, pc := g.2.pc } ∈ g.1 := by
  obtain ⟨_, rfl, j, hj, rfl⟩ := h.targets i hi target htarget
  refine ⟨_, List.mem_map.mpr ⟨j, hj, rfl⟩, rfl, ?_⟩
  obtain ⟨label, lines, frame, hmarkers, hlabel, -⟩ := h.marksAt ⟨j, hj, rfl⟩
  obtain ⟨id, rfl⟩ := hlabel (.target hi htarget)
  refine ⟨id, ?_⟩
  rw [hmarkers]
  simp

/-- **A body is its instructions, each behind its markers.** -/
theorem materialized (h : c.Sound) : c.Materialized c.body.elements c.groups c.endLabel where
  elements_eq := c.body_eq
  instructions_eq := by
    rw [groups, List.map_map]
    exact List.map_id _
  semantic_eq := filter_body fun _ => h.ascending.isMarker_eq_false
  marked := by
    intro g hg
    obtain ⟨i, hi, rfl⟩ := List.mem_map.mp hg
    exact h.marksAt ⟨i, hi, rfl⟩
  ended := h.endLabel_eq
  numbered := by
    refine ⟨c.labels.length, ?_⟩
    rw [filterMap_body fun _ => h.ascending.isMarker_eq_false, h.filterMap_starts]
  targeted := by
    intro i hi target htarget
    refine h.exists_labelled (i := i) ?_ htarget
    rw [← filter_body fun _ => h.ascending.isMarker_eq_false, List.mem_filter]
    refine ⟨hi, ?_⟩
    -- markers send control nowhere
    rw [Bool.not_eq_true', Instruction.isMarker]
    cases ha : i.action with
    | label | line | frame =>
        rw [ha] at htarget
        exact nomatch htarget
    | _ => rfl

end Sound

end Content

/-! ### Accepted code attributes -/

/-- A branch that is accepted leads to an instruction. -/
theorem begins_of_target {c : Content}
    (h : badTarget? c.codeLength c.starts c.instructions = none) {i : Instruction}
    (hi : i ∈ c.instructions) {target : Int} (htarget : target ∈ i.action.targets) :
    ∃ pc : Nat, (pc : Int) = target ∧ c.Begins pc := by
  have hnone := List.findSome?_eq_none_iff.mp h i hi
  rw [Option.map_eq_none_iff] at hnone
  have hgood := List.find?_eq_none.mp hnone target htarget
  simp only [Bool.or_eq_true, decide_eq_true_eq, Bool.not_eq_true', not_or, Bool.not_eq_false,
    List.contains_iff_mem, Content.mem_starts] at hgood
  obtain ⟨⟨hpos, hlt⟩, hbounds⟩ := hgood
  exact ⟨target.toNat, by omega, hbounds.resolve_right (by omega)⟩

/-- The range of an accepted handler lies between instructions or ends with the code array. -/
theorem gives_handler (pool : ConstantPool) (starts : List Nat) (codeLength : Nat) :
    (handler pool starts codeLength).Gives fun h => h.start ∈ starts ∧ h.stop ∈ starts ∧
      h.target ∈ starts ∧ h.target < codeLength ∧ h.start < h.stop := by
  refine (Read.forward_u2 _).bind fun start => (Read.forward_u2 _).bind fun stop => ?_
  refine (Read.forward_u2 _).bind fun target => (Read.forward_u2 _).bind fun type => ?_
  split
  · exact Read.gives_fail _ _
  · rename_i hgood
    simp only [Bool.or_eq_true, Bool.not_eq_true', decide_eq_true_eq, not_or, Bool.not_eq_false,
      List.contains_iff_mem, not_le] at hgood
    obtain ⟨⟨⟨⟨hstart, hstop⟩, hlt⟩, htarget⟩, horder⟩ := hgood
    have hpure : (pure { start, stop, target } : Read Handler).Gives fun h => h.start ∈ starts ∧
        h.stop ∈ starts ∧ h.target ∈ starts ∧ h.target < codeLength ∧ h.start < h.stop :=
      Read.gives_pure ⟨hstart, hstop, htarget, hlt, horder⟩
    split
    · exact ((Read.forward_lookup _).map _).bind fun _ => hpure
    · exact hpure

/-- The bytes of an accepted code attribute: eight bytes, the code array that the instructions are
decoded from, and the tables. -/
theorem readContent_eq_ok {pool : ConstantPool} {data : List UInt8} {content : Content}
    (h : Read.runOn data (readContent pool) = .ok content) :
    ∃ head code tail, data = head ++ code ++ tail ∧ head.length = 8 ∧
      code.length = content.codeLength ∧ Decode.body pool code = .ok content.instructions ∧
      ∃ c c', readTablesOf pool content.codeLength content.instructions c = .ok (content, c') := by
  obtain ⟨⟨_, c₁⟩, hrun, rfl⟩ := except_map_eq_ok.mp h
  obtain ⟨_, c₂, hskip, h⟩ := run_bind_eq_ok.mp hrun
  obtain ⟨_, c₃, hpos, h⟩ := run_bind_eq_ok.mp h
  obtain ⟨-, rfl⟩ := Prod.mk.inj (Except.ok.inj hpos)
  obtain ⟨codeLength, c₄, hcount, h⟩ := run_bind_eq_ok.mp h
  split at h
  · exact nomatch h
  obtain ⟨code, c₅, hcode, h⟩ := run_bind_eq_ok.mp h
  obtain ⟨_, c₆, hlookup, h⟩ := run_bind_eq_ok.mp h
  obtain ⟨instructions, hbody, hsame⟩ := except_map_eq_ok.mp hlookup
  obtain ⟨rfl, rfl⟩ := Prod.mk.inj hsame
  obtain ⟨skipped, hskipped, -⟩ := run_map_eq_ok.mp hskip
  rw [Read.u4, Read.word_eq] at hcount
  obtain ⟨count, hcounted, -⟩ := run_map_eq_ok.mp hcount
  obtain ⟨hdata, hfour, -⟩ := Read.eq_append_of_bytes hskipped
  obtain ⟨hdata₂, hfour', -⟩ := Read.eq_append_of_bytes hcounted
  obtain ⟨hdata₃, hlength, -⟩ := Read.eq_append_of_bytes hcode
  obtain ⟨hinstructions, hcodeLength, -⟩ := readTablesOf_eq_ok h
  refine ⟨skipped ++ count, code, c₅.rest, ?_, ?_, hlength.trans hcodeLength.symm,
    hinstructions ▸ hbody, c₅, c₁, hcodeLength.symm ▸ hinstructions.symm ▸ h⟩
  · rw [List.append_assoc, List.append_assoc, ← hdata₃, ← hdata₂]
    exact hdata
  · rw [List.length_append, hfour, hfour']

/-- Everything in an accepted code attribute refers to instructions, or to the end of the code
array. -/
theorem sound_of_readContent {pool : ConstantPool} {data : List UInt8} {content : Content}
    (h : Read.runOn data (readContent pool) = .ok content) : content.Sound := by
  obtain ⟨head, code, tail, -, -, hlength, hbody, c, c', htables⟩ := readContent_eq_ok h
  obtain ⟨-, -, htargets, c₁, c₂, c₃, _, _, -, hhandlers, -⟩ := readTablesOf_eq_ok htables
  have hpc (i : Instruction) (hi : i ∈ content.instructions) : i.pc < content.codeLength :=
    hlength ▸ Decode.pc_lt_of_body hbody hi
  refine ⟨Decode.ascending_body hbody, hpc, fun i hi target => begins_of_target htargets hi, ?_⟩
  intro e he
  have hgives := gives_handler pool content.starts content.codeLength
  obtain ⟨hgood, -⟩ := hgives.times _ _ _ _ hhandlers
  obtain ⟨hstart, hstop, htarget, hlt, horder⟩ := hgood e he
  rw [Content.mem_starts] at hstart hstop htarget
  refine ⟨hstart.resolve_right ?_, hstop, htarget.resolve_right hlt.ne⟩
  -- a range that began at the end would have to end behind it
  intro hend
  obtain ⟨i, hi, hi'⟩ | hstop := hstop
  · have := hpc i hi
    omega
  · omega

/-- **Where markers stand.** The body that a code attribute spells is made of the instructions of
its code array, in their order. Directly before each of them stand at most one label, which is there
exactly if something refers to its position, then its line numbers in the order of the table, then
a frame exactly if one is described there; behind the last one stands at most a label, exactly if a
range ends with the code array or a local variable begins there. Every marker has the position that
it stands at, the labels are numbered in their order, and every branch leads to a labelled
instruction. -/
theorem read_materializes {pool : ConstantPool} {data : List UInt8} {body : Body}
    {names : List (Nat × String)} (h : Code.read pool data = .ok (body, names)) :
    ∃ content head code tail groups last,
      Read.runOn data (readContent pool) = .ok content ∧
      data = head ++ code ++ tail ∧ head.length = 8 ∧ code.length = content.codeLength ∧
      Decode.body pool code = .ok content.instructions ∧
      content.Materialized body.elements groups last := by
  obtain ⟨content, hcontent, hbody⟩ := except_map_eq_ok.mp h
  obtain ⟨rfl, -⟩ := Prod.mk.inj hbody
  obtain ⟨head, code, tail, hdata, hhead, hlength, hdecode, -⟩ := readContent_eq_ok hcontent
  exact ⟨content, head, code, tail, _, _, hcontent, hdata, hhead, hlength, hdecode,
    (sound_of_readContent hcontent).materialized⟩

/-- The constants that name the tables of `sampleCode`. -/
def samplePool : ConstantPool :=
  ⟨#[none, some (.utf8 "LineNumberTable".toList), some (.utf8 "StackMapTable".toList)]⟩

/-- A branch to the `return` after it, with a handler for both of them. Two of the three line
numbers and the only frame are at the `return`, the third line number points into the branch. -/
def sampleCode : List UInt8 :=
  [0, 0, 0, 0, 0, 0, 0, 4, 0xa7, 0, 3, 0xb1, 0, 1, 0, 0, 0, 4, 0, 3, 0, 0, 0, 2,
    0, 1, 0, 0, 0, 14, 0, 3, 0, 3, 0, 7, 0, 2, 0, 9, 0, 3, 0, 8,
    0, 2, 0, 0, 0, 3, 0, 1, 3]

/-- What `sampleCode` holds. -/
def sampleContent : Content where
  instructions := [⟨.jump ⟨0xa7⟩ 3, 0⟩, ⟨.return .void, 3⟩]
  codeLength := 4
  handlers := [⟨0, 4, 3⟩]
  tables := { lines := [⟨3, 7⟩, ⟨2, 9⟩, ⟨3, 8⟩], frames := [3] }

/-- The two line numbers at the `return` stand between its label and its frame, and the end of the
handler's range has a label of its own. -/
theorem sampleCode_materializes :
    ∃ groups last, sampleContent.Materialized
      [⟨.label 0, 0⟩, ⟨.jump ⟨0xa7⟩ 3, 0⟩, ⟨.label 1, 3⟩, ⟨.line 7, 3⟩, ⟨.line 8, 3⟩, ⟨.frame, 3⟩,
        ⟨.return .void, 3⟩, ⟨.label 2, 4⟩] groups last := by
  have hcontent : Read.runOn sampleCode (readContent samplePool) = .ok sampleContent := by
    decide +kernel
  have hlabels : sampleContent.labels = [0, 3, 4] := by
    have hsorted := List.mergeSort_eq_insertionSort (· ≤ ·) sampleContent.references
    rw [Content.labels, hsorted]
    decide
  have haccepted : Code.read samplePool sampleCode = .ok (sampleContent.body, []) := by
    rw [Code.read, hcontent]
    rfl
  rw [Content.body, hlabels] at haccepted
  obtain ⟨_, -, -, -, groups, last, hsame, -, -, -, -, h⟩ := read_materializes haccepted
  obtain rfl := Except.ok.inj (hcontent.symm.trans hsame)
  exact ⟨groups, last, h⟩

end Code

end ClassAudit
