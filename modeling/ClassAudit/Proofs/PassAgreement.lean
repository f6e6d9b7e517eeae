import ClassAudit.Proofs.Emission

/-!
# The two passes over a body

The first pass measures every step and notes the positions of labels, source lines and frames;
the second pass writes the bytes, and asks the pool for more constants while it does. That the
bytes lie where the first pass said rests on two facts: a step is written with as many bytes as
it measures, and it measures the same in every later state of the pool, since a constant keeps
the index that it was given. Nothing is assumed of the pool that the first pass begins with.

## Main definitions

* `Layout.stop` - the position, and the pool, behind the steps that the first pass has measured.
* `Layout.offset` - where the bytes of a step begin.
* `Layout.Measured` - bytes of the sizes that the first pass found.
* `Layout.Coherent` - the positions of the first pass are those of the bytes.

## Main statements

* `Layout.measured_of_encodes` - later states of the pool do not change what is measured.
* `Layout.passes_agree` - **the bytes of every step lie where the first pass put the step**.
-/

namespace ClassAudit

open PoolBuilder

namespace Layout

variable {pc : Nat} {p p₁ p₂ : PoolBuilder} {steps : List Step} {pieces : List (List UInt8)}

/-! ### The first pass -/

/-- The first pass over steps that begin at `pc`, up to the position behind the last of them. -/
def stop (pc : Nat) : List Step → StateM PoolBuilder Nat
  | [] => return pc
  | s :: rest => do
    let n ← s.size pc
    stop (pc + n) rest

/-- A step is put behind the steps before it. -/
theorem getElem?_positions (pc : Nat) (steps : List Step) (p : PoolBuilder) (i : Nat) :
    (positions pc steps p).1[i]? = steps[i]?.map fun s => ((stop pc (steps.take i) p).1, s) := by
  induction steps generalizing pc p i with
  | nil => rfl
  | cons s steps ih =>
      cases i with
      | zero => rfl
      | succ i => exact ih (pc + (s.size pc p).1) (s.size pc p).2 i

/-! ### Bytes of the measured sizes -/

/-- The number of bytes before those of the step with the given index. -/
def offset (pieces : List (List UInt8)) (i : Nat) : Nat := (pieces.take i).flatten.length

/-- Each step has as many bytes as the first pass, which begins at `pc` with the pool `p`,
measures. -/
inductive Measured : Nat → PoolBuilder → List Step → List (List UInt8) → Prop
  | nil (pc : Nat) (p : PoolBuilder) : Measured pc p [] []
  | cons {pc : Nat} {p : PoolBuilder} {s : Step} {bytes : List UInt8} {steps : List Step}
      {pieces : List (List UInt8)} (hlength : bytes.length = (s.size pc p).1)
      (hrest : Measured (pc + (s.size pc p).1) (s.size pc p).2 steps pieces) :
      Measured pc p (s :: steps) (bytes :: pieces)

namespace Measured

theorem length_eq (h : Measured pc p steps pieces) : pieces.length = steps.length := by
  induction h with
  | nil => rfl
  | cons _ _ ih => rw [List.length_cons, List.length_cons, ih]

/-- The bytes of the steps begin where the first pass put the steps. -/
theorem offset_eq (h : Measured pc p steps pieces) (i : Nat) :
    pc + offset pieces i = (stop pc (steps.take i) p).1 := by
  induction h generalizing i with
  | nil pc p =>
      rw [offset, List.take_nil, List.take_nil]
      rfl
  | @cons pc p s bytes steps pieces hlength _ ih =>
      cases i with
      | zero => rfl
      | succ i =>
          have hrest := ih i
          simp only [offset, List.take_succ_cons, List.flatten_cons, List.length_append, hlength]
            at hrest ⊢
          rw [← Nat.add_assoc, hrest]
          rfl

/-- A step has as many bytes as the first pass measured when it came to the step. -/
theorem length_of_getElem? (h : Measured pc p steps pieces) {i : Nat} {s : Step}
    {bytes : List UInt8} (hs : steps[i]? = some s) (hbytes : pieces[i]? = some bytes) :
    bytes.length =
      (s.size (stop pc (steps.take i) p).1 (stop pc (steps.take i) p).2).1 := by
  induction h generalizing i with
  | nil => exact nomatch hs
  | cons hlength _ ih =>
      cases i with
      | zero =>
          obtain rfl := Option.some.inj hs
          obtain rfl := Option.some.inj hbytes
          exact hlength
      | succ i => exact ih hs hbytes

end Measured

theorem offset_succ {i : Nat} {bytes : List UInt8} (h : pieces[i]? = some bytes) :
    offset pieces (i + 1) = offset pieces i + bytes.length := by
  rw [offset, offset, List.take_add_one, h, Option.toList_some, List.flatten_append,
    List.length_append]
  simp

/-! ### The second pass -/

/-- The members and call sites of any step. -/
def anything : Vocabulary := ⟨fun _ => True, fun _ _ => True⟩

theorem known_anything (s : Step) : s.Known anything := by
  cases s <;> trivial

theorem extends_positions (pc : Nat) (steps : List Step) (p : PoolBuilder) :
    Extends p (positions pc steps p).2 :=
  (placed_positions anything pc steps p).1.kept

/-- The steps are written one after the other, in pools that only grow. -/
theorem encodes_of_mapM {labels : List (String × Nat)} {located : List (Nat × Step)}
    (h : located.mapM (fun x => x.2.encode labels x.1) p₁ = .ok (pieces, p₂)) :
    List.Forall₂ (fun x bytes => ∃ q q', Extends p₁ q ∧ x.2.encode labels x.1 q = .ok (bytes, q'))
      located pieces := by
  induction located generalizing p₁ pieces with
  | nil =>
      obtain ⟨rfl, -⟩ := Prod.mk.inj (Except.ok.inj h)
      exact .nil
  | cons x located ih =>
      rw [List.mapM_cons, run_bind_eq_ok] at h
      obtain ⟨bytes, q, hx, h⟩ := h
      obtain ⟨rest, q', hrest, h⟩ := run_bind_eq_ok.mp h
      obtain ⟨rfl, rfl⟩ := Prod.mk.inj (Except.ok.inj h)
      have hkept : Extends p₁ q := (Step.grows_encode (known_anything x.2) hx).kept
      refine .cons ⟨p₁, q, .refl p₁, hx⟩ ((ih hrest).imp fun y bytes' hy => ?_)
      obtain ⟨r, r', hr, hy⟩ := hy
      exact ⟨r, r', hkept.trans hr, hy⟩

/-- **What the second pass writes has the sizes that the first pass measured.** The pool may have
grown in between: the indexes that decide a size were given in the first pass. -/
theorem measured_of_encodes {labels : List (String × Nat)}
    (h : List.Forall₂ (fun x bytes => ∃ q q', Extends (positions pc steps p).2 q ∧
      x.2.encode labels x.1 q = .ok (bytes, q')) (positions pc steps p).1 pieces) :
    Measured pc p steps pieces := by
  induction steps generalizing pc p pieces with
  | nil =>
      cases h
      exact .nil pc p
  | cons s steps ih =>
      cases h with
      | cons hs hrest =>
          obtain ⟨q, q', hq, hencode⟩ := hs
          refine .cons ?_ (ih hrest)
          rw [Step.length_encode hencode]
          exact Step.size_stable ((extends_positions _ steps _).trans hq)

/-! ### Positions -/

/-- The positions that the first pass over `steps` noted, started with the pool `p`, are those of
the bytes. -/
structure Coherent (p : PoolBuilder) (steps : List Step) (l : Layout)
    (pieces : List (List UInt8)) : Prop where
  count : pieces.length = steps.length
  /-- The bytes of a step begin at the position that was noted for it. -/
  starts : ∀ (i : Nat) (s : Step), steps[i]? = some s → l.steps[i]? = some (offset pieces i, s)
  /-- A step has as many bytes as it measured there, in the pool as it was then. -/
  sizes : ∀ (i : Nat) (s : Step) (bytes : List UInt8),
    steps[i]? = some s → pieces[i]? = some bytes →
    bytes.length = (s.size (offset pieces i) (stop 0 (steps.take i) p).2).1
  /-- A label has the position at which the next step begins, -/
  labels : ∀ name pc, (name, pc) ∈ l.labels ↔
    ∃ i, steps[i]? = some (.label name) ∧ pc = offset pieces (i + 1)
  /-- and so have a source line -/
  lines : ∀ pc n, (pc, n) ∈ l.lines ↔
    ∃ i, steps[i]? = some (.line n) ∧ pc = offset pieces (i + 1)
  /-- and a frame. -/
  frames : ∀ pc, pc ∈ l.frames ↔ ∃ i, steps[i]? = some .frame ∧ pc = offset pieces (i + 1)

/-- The positions of the first pass are those of bytes that have the measured sizes. -/
theorem Measured.coherent (h : Measured 0 p steps pieces) :
    Coherent p steps ⟨(positions 0 steps p).1⟩ pieces := by
  have hoffset (i : Nat) : offset pieces i = (stop 0 (steps.take i) p).1 := by
    rw [← h.offset_eq, Nat.zero_add]
  have hstarts (i : Nat) :
      (positions 0 steps p).1[i]? = steps[i]?.map fun s => (offset pieces i, s) := by
    rw [getElem?_positions, hoffset]
  -- a mark has no bytes, so the next step begins where it stands
  have hmark {s : Step} (hs : ∀ pc p, (s.size pc p).1 = 0) (pc : Nat) :
      (pc, s) ∈ (positions 0 steps p).1 ↔
        ∃ i, steps[i]? = some s ∧ pc = offset pieces (i + 1) := by
    have hnext {i : Nat} (hi : steps[i]? = some s) : offset pieces (i + 1) = offset pieces i := by
      obtain ⟨hlt, -⟩ := List.getElem?_eq_some_iff.mp hi
      have hbytes := List.getElem?_eq_getElem (h.length_eq ▸ hlt)
      rw [offset_succ hbytes, h.length_of_getElem? hi hbytes, hs, Nat.add_zero]
    rw [List.mem_iff_getElem?]
    constructor
    · rintro ⟨i, hi⟩
      rw [hstarts, Option.map_eq_some_iff] at hi
      obtain ⟨s', hs', heq⟩ := hi
      obtain ⟨rfl, rfl⟩ := Prod.mk.inj heq
      exact ⟨i, hs', (hnext hs').symm⟩
    · rintro ⟨i, hi, rfl⟩
      exact ⟨i, by rw [hstarts, hi, hnext hi]; rfl⟩
  refine ⟨h.length_eq, fun i s hs => ?_, fun i s bytes hs hbytes => ?_, fun name pc => ?_,
    fun pc n => ?_, fun pc => ?_⟩
  · exact (hstarts i).trans (by rw [hs]; rfl)
  · rw [hoffset]
    exact h.length_of_getElem? hs hbytes
  · rw [← hmark fun _ _ => rfl, labels, List.mem_filterMap]
    constructor
    · rintro ⟨x, hmem, heq⟩
      split at heq
      · cases heq
        exact hmem
      · exact nomatch heq
    · exact fun hmem => ⟨_, hmem, rfl⟩
  · rw [← hmark fun _ _ => rfl, lines, List.mem_filterMap]
    constructor
    · rintro ⟨x, hmem, heq⟩
      split at heq
      · cases heq
        exact hmem
      · exact nomatch heq
    · exact fun hmem => ⟨_, hmem, rfl⟩
  · rw [← hmark fun _ _ => rfl, frames, List.mem_filterMap]
    constructor
    · rintro ⟨x, hmem, heq⟩
      split at heq
      · cases heq
        exact hmem
      · exact nomatch heq
    · exact fun hmem => ⟨_, hmem, rfl⟩

/-- **Both passes agree.** Whatever the pool holds at first, if a body is laid out and written, its
code array is as long as the first pass measured it, each step's bytes begin at the position that
the first pass noted and are as many as it measured, and labels, source lines and frames have the
positions at which the bytes of the next step begin. -/
theorem passes_agree {layout : Layout} {code : List UInt8}
    (hfirst : ofSteps steps p = .ok (layout, p₁)) (hsecond : layout.code p₁ = .ok (code, p₂)) :
    ∃ pieces, layout.steps.mapM (fun x => x.2.encode layout.labels x.1) p₁ = .ok (pieces, p₂) ∧
      code = pieces.flatten ∧ code.length = (stop 0 steps p).1 ∧
      Coherent p steps layout pieces := by
  obtain ⟨rfl, rfl⟩ := eq_positions_of_ofSteps hfirst
  obtain ⟨pieces, q, hpieces, h⟩ := run_bind_eq_ok.mp hsecond
  obtain ⟨rfl, rfl⟩ := Prod.mk.inj (Except.ok.inj h)
  have hmeasured := measured_of_encodes (encodes_of_mapM hpieces)
  refine ⟨pieces, hpieces, rfl, ?_, hmeasured.coherent⟩
  have hend := hmeasured.offset_eq steps.length
  rwa [List.take_length, ← hmeasured.length_eq, offset, List.take_length, Nat.zero_add] at hend

/-- A string, a switch that is padded, marks, and a call that adds to the pool only when it is
written. -/
def sampleBody : List Step :=
  [.string (.text ['s']), .label "top", .tableSwitch 0 "top" ["end"], .line 3, .frame,
    .invoke .static ⟨"A", "f", "()V"⟩, .label "end", .plain .voidReturn]

/-- The pool is filled up to the place from which on the index of a string takes two bytes. -/
theorem passes_agree_past_short_index : ∃ layout p₁ code p₂ pieces,
    ofSteps sampleBody { next := 255 } = .ok (layout, p₁) ∧ layout.code p₁ = .ok (code, p₂) ∧
      layout.labels = [("top", 3), ("end", 23)] ∧ code = pieces.flatten ∧
      code.length = (stop 0 sampleBody { next := 255 }).1 ∧
      Coherent { next := 255 } sampleBody layout pieces := by
  obtain ⟨⟨layout, p₁⟩, hfirst⟩ := exists_eq_ok_of_isOk
    (show (ofSteps sampleBody { next := 255 }).isOk = true by decide +kernel)
  obtain ⟨rfl, rfl⟩ := eq_positions_of_ofSteps hfirst
  obtain ⟨⟨code, p₂⟩, hsecond⟩ := exists_eq_ok_of_isOk
    (show (code ⟨(positions 0 sampleBody { next := 255 }).1⟩
      (positions 0 sampleBody { next := 255 }).2).isOk = true by decide +kernel)
  obtain ⟨pieces, -, hcode, hlength, hcoherent⟩ := passes_agree hfirst hsecond
  exact ⟨_, _, code, p₂, pieces, hfirst, hsecond, by decide +kernel, hcode, hlength, hcoherent⟩

end Layout

end ClassAudit
