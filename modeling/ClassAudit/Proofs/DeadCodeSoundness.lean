import ClassAudit.Detectors.DeadCode
import ClassAudit.Proofs.BodyLayout
import Mathlib.Logic.Relation

/-!
# Dead code is dead

Control passes from an instruction to the next one unless it is a return, a throw or a jump, to
the targets of a branch, switch or subroutine call, and from a covered instruction to its
handler. An instruction that the dead code linter reports cannot be reached on any path along
these edges: the linter only looks at two neighbours in the body, but everything that control
could be sent to has a label there.

## Main definitions

* `Code.Content.Flows` - the edges of the flow of control.
* `Code.Content.Unentered` - an instruction that no edge leads to.
* `DeadCode.CutAt` - a terminal instruction directly followed by another instruction.

## Main statements

* `DeadCode.exists_cutAt_of_mem_blocked`, `DeadCode.mem_blocked_of_cutAt`,
  `DeadCode.pairwise_blocked` - what the linter finds, and in which order.
* `Code.Content.Unentered.not_reachable` - what no edge leads to is not reached.
* `DeadCode.findings_unreachable` - every finding is about an instruction that is not reached.
-/

namespace ClassAudit

namespace Code.Content

variable {c : Content} {cur next : Instruction}

/-- Control can pass from one position of the code array to another. A switch counts as if it
could also pass to the next instruction, and so does a return from a subroutine. -/
inductive Flows (c : Content) : Nat → Nat → Prop
  | next {k : Nat} {i j : Instruction} (hi : c.instructions[k]? = some i)
      (hj : c.instructions[k + 1]? = some j) (hpass : i.action.isTerminal = false) :
      Flows c i.pc j.pc
  | target {i : Instruction} {pc : Nat} (hi : i ∈ c.instructions)
      (hpc : (pc : Int) ∈ i.action.targets) : Flows c i.pc pc
  | handler {i : Instruction} {h : Handler} (hi : i ∈ c.instructions) (hh : h ∈ c.handlers)
      (hstart : h.start ≤ i.pc) (hstop : i.pc < h.stop) : Flows c i.pc h.target

/-- There is a path of control from the beginning of the code array. -/
def Reachable (c : Content) (pc : Nat) : Prop := Relation.ReflTransGen c.Flows 0 pc

/-- Nothing leads to the instruction `next`, which follows `cur`. -/
structure Unentered (c : Content) (cur next : Instruction) : Prop where
  notTarget : ∀ i ∈ c.instructions, (next.pc : Int) ∉ i.action.targets
  notHandler : ∀ h ∈ c.handlers, h.target ≠ next.pc
  notFirst : c.instructions.head? ≠ some next ∧ next.pc ≠ 0
  follows : ∃ k, c.instructions[k]? = some cur ∧ c.instructions[k + 1]? = some next
  onlyAfter : ∀ k i j, c.instructions[k]? = some i → c.instructions[k + 1]? = some j →
    j.pc = next.pc → i = cur
  ended : (∃ type, cur.action = .return type) ∨ cur.action = .throw ∨
    ∃ op target, cur.action = .jump op target

theorem exists_of_isTerminal {a : Action} (h : a.isTerminal = true) :
    (∃ type, a = .return type) ∨ a = .throw ∨ ∃ op target, a = .jump op target := by
  cases a with
  | «return» type => exact .inl ⟨type, rfl⟩
  | throw => exact .inr (.inl rfl)
  | jump op target => exact .inr (.inr ⟨op, target, rfl⟩)
  | _ => exact nomatch h

theorem isMarker_of_isTerminal {i : Instruction} (h : i.action.isTerminal = true) :
    i.isMarker = false := by
  rw [Instruction.isMarker]
  obtain ⟨type, ha⟩ | ha | ⟨op, target, ha⟩ := exists_of_isTerminal h <;> rw [ha] <;> rfl

/-- What no edge leads to is not reached. -/
theorem Unentered.not_reachable (h : c.Unentered cur next) : ¬c.Reachable next.pc := by
  intro hreach
  obtain hzero | ⟨pc, -, hedge⟩ := Relation.ReflTransGen.cases_tail hreach
  · exact h.notFirst.2 hzero
  generalize hto : next.pc = dest at hedge
  cases hedge with
  | next hi hj hpass =>
      obtain rfl := h.onlyAfter _ _ _ hi hj hto.symm
      obtain ⟨type, ha⟩ | ha | ⟨op, target, ha⟩ := h.ended <;> rw [ha] at hpass <;>
        exact nomatch hpass
  | target hi hpc => exact h.notTarget _ hi (hto ▸ hpc)
  | handler _ hh _ _ => exact h.notHandler _ hh hto.symm

/-- Of two neighbours in the body that are no markers, nothing leads to the second one if the first
one is terminal. -/
theorem unentered_of_body {pool : ConstantPool} {data : List UInt8}
    (h : Read.runOn data (readContent pool) = .ok c) {j : Nat}
    (hcur : c.body.elements[j]? = some cur) (hnext : c.body.elements[j + 1]? = some next)
    (hends : cur.action.isTerminal = true) (hmarker : next.isMarker = false) :
    c.Unentered cur next := by
  obtain ⟨code, hdecode⟩ := exists_code_of_readContent h
  have hascending := Decode.ascending_body hdecode
  obtain ⟨⟨k, hk, hk'⟩, hlabel⟩ :=
    adjacent_of_body hcur hnext (isMarker_of_isTerminal hends) hmarker
  have hindex (l : Nat) (i : Instruction) (hl : c.instructions[l]? = some i)
      (hpc : i.pc = next.pc) : l = k + 1 := hascending.index_eq hl hk' hpc
  refine ⟨fun i hi hpc => hlabel (mem_labels_of_target hi hpc), fun h hh hpc => ?_, ⟨?_, ?_⟩,
    ⟨k, hk, hk'⟩, fun l i i' hi hi' hpc => ?_, exists_of_isTerminal hends⟩
  · exact hlabel (hpc ▸ mem_labels_of_handler hh)
  · intro hhead
    rw [List.head?_eq_getElem?] at hhead
    exact absurd (hindex 0 next hhead rfl) (by omega)
  · -- positions ascend, so the second instruction does not stand at the beginning
    obtain ⟨hlt, rfl⟩ := List.getElem?_eq_some_iff.mp hk
    obtain ⟨hlt', rfl⟩ := List.getElem?_eq_some_iff.mp hk'
    have hpos := List.pairwise_iff_getElem.mp hascending.pairwise k (k + 1) hlt hlt' k.lt_succ_self
    omega
  · obtain rfl : l = k := by
      have := hindex (l + 1) i' hi' hpc
      omega
    exact Option.some.inj (hi.symm.trans hk)

end Code.Content

namespace DeadCode

/-- The element at position `j` is a terminal instruction that another instruction directly
follows. -/
def CutAt (b : Body) (j : Nat) (cur next : Instruction) : Prop :=
  b.elements[j]? = some cur ∧ b.elements[j + 1]? = some next ∧ cur.action.isTerminal = true ∧
    next.isMarker = false

theorem le_of_mem_blocked {n : Nat} {l : List Instruction} {x : Nat × Action}
    (h : x ∈ blocked n l) : n ≤ x.1 := by
  fun_induction blocked n l with
  | case1 n i next rest found hcut ih =>
      obtain rfl | h := List.mem_cons.mp h
      · exact le_rfl
      · exact Nat.le_of_succ_le (ih h)
  | case2 n i next rest found hcut ih => exact Nat.le_of_succ_le (ih h)
  | case3 => exact nomatch h

/-- The positions that are found ascend. -/
theorem pairwise_blocked (n : Nat) (l : List Instruction) :
    (blocked n l).Pairwise fun x y => x.1 < y.1 := by
  fun_induction blocked n l with
  | case1 n i next rest found hcut ih =>
      exact .cons (fun x hx => le_of_mem_blocked hx) ih
  | case2 n i next rest found hcut ih => exact ih
  | case3 => exact .nil

/-- Every finding is at an instruction that cuts the code off. -/
theorem exists_cutAt_of_mem_blocked {n : Nat} {l : List Instruction} {x : Nat × Action}
    (h : x ∈ blocked n l) :
    ∃ j cur next, CutAt ⟨l⟩ j cur next ∧ x = (n + j, cur.action) := by
  fun_induction blocked n l with
  | case1 n i next rest found hcut ih =>
      obtain rfl | h := List.mem_cons.mp h
      · rw [Bool.and_eq_true, Bool.not_eq_true'] at hcut
        exact ⟨0, i, next, ⟨rfl, rfl, hcut.1, hcut.2⟩, rfl⟩
      · obtain ⟨j, cur, next', hcutAt, rfl⟩ := ih h
        exact ⟨j + 1, cur, next', hcutAt, by rw [Nat.succ_add_eq_add_succ]⟩
  | case2 n i next rest found hcut ih =>
      obtain ⟨j, cur, next', hcutAt, rfl⟩ := ih h
      exact ⟨j + 1, cur, next', hcutAt, by rw [Nat.succ_add_eq_add_succ]⟩
  | case3 => exact nomatch h

/-- Every instruction that cuts the code off is found. -/
theorem mem_blocked_of_cutAt {n j : Nat} {l : List Instruction} {cur next : Instruction}
    (h : CutAt ⟨l⟩ j cur next) : (n + j, cur.action) ∈ blocked n l := by
  obtain ⟨hcur, hnext, hends, hmarker⟩ := h
  induction l generalizing n j with
  | nil => exact nomatch hcur
  | cons i l ih =>
      cases l with
      | nil => cases j <;> exact nomatch hnext
      | cons i' rest =>
          rw [blocked]
          cases j with
          | zero =>
              obtain rfl : i = cur := Option.some.inj hcur
              obtain rfl : i' = next := Option.some.inj hnext
              rw [if_pos (by rw [hends, hmarker]; rfl)]
              exact List.mem_cons_self
          | succ j =>
              have hfound : (n + 1 + j, cur.action) ∈ blocked (n + 1) (i' :: rest) :=
                ih hcur hnext
              rw [Nat.add_right_comm] at hfound
              split
              · exact List.mem_cons_of_mem _ hfound
              · exact hfound

/-- **Dead code is dead.** Let a method have the body that a code attribute spells. The linter
reports exactly one finding for each terminal instruction that another instruction directly
follows, in program order. That instruction is not a target of any branch, switch or subroutine
call, not a handler and not the first one; the only instruction before it in the code array is
the return, the throw or the jump; and no path of control reaches it. -/
theorem findings_unreachable (o : Origin) (m : MethodModel) (pool : ConstantPool)
    (data : List UInt8) (h : Code.read pool data = .ok (m.code, m.localNames)) :
    ∃ content, Read.runOn data (Code.readContent pool) = .ok content ∧ m.code = content.body ∧
      (∃ positions : List Nat, positions.Pairwise (· < ·) ∧
        (∀ j, j ∈ positions ↔ ∃ cur next, CutAt m.code j cur next) ∧
        List.Forall₂ (fun j finding => ∃ cur next, CutAt m.code j cur next ∧
          finding = o.finding .error m.signature (m.code.lineAt j)
            ("unreachable code after " ++ terminalWord cur.action)) positions (ofMethod o m)) ∧
      ∀ j cur next, CutAt m.code j cur next →
        content.Unentered cur next ∧ ¬content.Reachable next.pc := by
  obtain ⟨content, hcontent, hbody⟩ := except_map_eq_ok.mp h
  obtain ⟨hcode, -⟩ := Prod.mk.inj hbody
  refine ⟨content, hcontent, hcode.symm, ⟨(blocked 0 m.code.elements).map (·.1), ?_, ?_, ?_⟩, ?_⟩
  · exact List.pairwise_map.mpr (pairwise_blocked 0 m.code.elements)
  · intro j
    constructor
    · intro hj
      obtain ⟨x, hx, rfl⟩ := List.mem_map.mp hj
      obtain ⟨k, cur, next, hcut, rfl⟩ := exists_cutAt_of_mem_blocked hx
      exact ⟨cur, next, by rwa [Nat.zero_add]⟩
    · rintro ⟨cur, next, hcut⟩
      exact List.mem_map.mpr ⟨_, mem_blocked_of_cutAt (n := 0) hcut, Nat.zero_add j⟩
  · rw [ofMethod, List.forall₂_map_left_iff, List.forall₂_map_right_iff, List.forall₂_same]
    intro x hx
    obtain ⟨k, cur, next, hcut, rfl⟩ := exists_cutAt_of_mem_blocked hx
    exact ⟨cur, next, by rwa [Nat.zero_add], rfl⟩
  · rintro j cur next ⟨hcur, hnext, hends, hmarker⟩
    rw [← hcode] at hcur hnext
    have hunentered := Code.Content.unentered_of_body hcontent hcur hnext hends hmarker
    exact ⟨hunentered, hunentered.not_reachable⟩

/-- A method with two returns, one after the other. -/
def twoReturns : MethodModel where
  name := "m"
  desc := "()V"
  access := ⟨1⟩
  code := ⟨[{ action := .return .void, pc := 0 }, { action := .return .void, pc := 1 }]⟩

/-- The code attribute of a method with two returns. -/
def twoReturnsData : List UInt8 := [0, 0, 0, 1, 0, 0, 0, 2, 0xb1, 0xb1, 0, 0, 0, 0]

/-- The second of two returns is reported, and it is not reached. -/
theorem second_return_unreachable :
    (ofMethod ⟨name, .style, "A"⟩ twoReturns).length = 1 ∧
    ∃ content, Read.runOn twoReturnsData (Code.readContent ⟨#[none]⟩) = .ok content ∧
      ¬content.Reachable 1 := by
  have hread : Code.read ⟨#[none]⟩ twoReturnsData =
      .ok (twoReturns.code, twoReturns.localNames) := by
    decide +kernel
  obtain ⟨content, hcontent, -, -, hdead⟩ :=
    findings_unreachable ⟨name, .style, "A"⟩ twoReturns ⟨#[none]⟩ twoReturnsData hread
  have hcut : CutAt twoReturns.code 0 ⟨.return .void, 0⟩ ⟨.return .void, 1⟩ :=
    ⟨rfl, rfl, rfl, rfl⟩
  exact ⟨rfl, content, hcontent, (hdead 0 _ _ hcut).2⟩

end DeadCode

end ClassAudit
