import ClassAudit.Proofs.Sites

/-!
# Bounded searches

A detector that meets a call asks what stands within so many instructions before or after it. What
such a search may see is a window: the instructions that it meets going from its start, markers left
out, as many as its budget allows. It answers with the first element of the window that is found,
unless it is told to stop at that element or before it.

The windows are cut out of the listing of all instructions of the body by position, so nothing in
them depends on how the searches proceed. A search from a signed position has its start moved to the
nearer end of the body first, which goes wrong at one place: before the least position of 64 bits
comes the greatest, and a search backward from there with a budget that is not spent asks for an
element that no body has.

## Main definitions

* `FirstHit` - the position of the first element that is found, with no stop up to it.
* `Body.listing` - the instructions of a body that are no markers, with their positions.
* `Body.metBack`, `Body.metOn` - the instructions met from a start, nearest first.
* `Body.reversed` - the body in the opposite order.

## Main statements

* `firstHit?_eq_some_iff` - walking along a window finds its first hit.
* `searchBack_eq`, `searchOn_eq` - the searches walk along the listing of their elements.
* `searchOn_eq_some_iff_mirrored` - the search forward is the search backward on mirrored positions.
* `Body.scans_find_first_hits` - the searches from signed positions find the first hits of their
  windows.
* `Body.scanBackward_least` - the search backward from the least position has no element to begin
  with.
-/

namespace ClassAudit

variable {found stop : Instruction → Bool}

/-! ### First hits -/

/-- In the window, the element at position `n` is the first that satisfies `found`, and neither it
nor any element before it satisfies `stop`. -/
def FirstHit (found stop : Instruction → Bool) (window : List (Nat × Instruction)) (n : Nat) :
    Prop :=
  ∃ before i after, window = before ++ (n, i) :: after ∧ found i = true ∧
    (∀ x ∈ before, found x.2 = false) ∧ ∀ x ∈ before ++ [(n, i)], stop x.2 = false

/-- Walks along a window to its first hit. -/
def firstHit? (found stop : Instruction → Bool) : List (Nat × Instruction) → Option Nat
  | [] => none
  | (n, i) :: rest =>
    if stop i then none
    else if found i then some n
    else firstHit? found stop rest

theorem not_firstHit_nil (n : Nat) : ¬FirstHit found stop [] n := by
  rintro ⟨before, i, after, hwindow, -⟩
  simp at hwindow

/-- The first hit is the first element, or it is behind one that is neither found nor a stop. -/
theorem firstHit_cons_iff {m n : Nat} {i : Instruction}
    {rest : List (Nat × Instruction)} :
    FirstHit found stop ((m, i) :: rest) n ↔
      stop i = false ∧
        (found i = true ∧ m = n ∨ found i = false ∧ FirstHit found stop rest n) := by
  constructor
  · rintro ⟨before, j, after, hwindow, hfound, hbefore, hstop⟩
    cases before with
    | nil =>
        obtain ⟨⟨rfl, rfl⟩, rfl⟩ := by simpa using hwindow
        exact ⟨hstop (m, i) (by simp), .inl ⟨hfound, rfl⟩⟩
    | cons x before =>
        obtain ⟨rfl, rfl⟩ := by simpa using hwindow
        refine ⟨hstop (m, i) (by simp), .inr ⟨hbefore (m, i) (by simp), before, j, after, rfl,
          hfound, ?_, ?_⟩⟩
        · exact fun x hx => hbefore x (List.mem_cons_of_mem _ hx)
        · exact fun x hx => hstop x (List.mem_cons_of_mem _ hx)
  · rintro ⟨hstop, ⟨hfound, rfl⟩ | ⟨hmissed, before, j, after, rfl, hfound, hbefore, hpassed⟩⟩
    · exact ⟨[], i, rest, rfl, hfound, by simp, by simpa using hstop⟩
    · refine ⟨(m, i) :: before, j, after, rfl, hfound, ?_, ?_⟩
      · exact List.forall_mem_cons.mpr ⟨hmissed, hbefore⟩
      · exact List.forall_mem_cons.mpr ⟨hstop, hpassed⟩

/-- Walking along a window finds its first hit, and nothing if it has none. -/
theorem firstHit?_eq_some_iff {window : List (Nat × Instruction)} {n : Nat} :
    firstHit? found stop window = some n ↔ FirstHit found stop window n := by
  induction window with
  | nil => simp [firstHit?, not_firstHit_nil]
  | cons x rest ih =>
      obtain ⟨m, i⟩ := x
      rw [firstHit?, firstHit_cons_iff, ← ih]
      cases stop i with
      | true => simp
      | false =>
          cases found i with
          | true | false => simp

/-! ### Listings -/

/-- The instructions of a list whose first element is at position `n`, with their positions. -/
def numbered (n : Nat) (l : List Instruction) : List (Nat × Instruction) :=
  ((l.zipIdx n).map Prod.swap).filter (!·.2.isMarker)

theorem numbered_nil (n : Nat) : numbered n [] = [] := rfl

theorem numbered_cons_of_marker {i : Instruction} (h : i.isMarker = true) (n : Nat)
    (l : List Instruction) : numbered n (i :: l) = numbered (n + 1) l := by
  simp [numbered, List.zipIdx_cons, h]

theorem numbered_cons {i : Instruction} (h : i.isMarker = false) (n : Nat)
    (l : List Instruction) : numbered n (i :: l) = (n, i) :: numbered (n + 1) l := by
  simp [numbered, List.zipIdx_cons, h]

theorem numbered_append (n : Nat) (l l' : List Instruction) :
    numbered n (l ++ l') = numbered n l ++ numbered (n + l.length) l' := by
  simp only [numbered, List.zipIdx_append, List.map_append, List.filter_append]

/-- The positions of a listing are those of its elements. -/
theorem bounds_of_mem_numbered {n : Nat} {l : List Instruction} {x : Nat × Instruction}
    (h : x ∈ numbered n l) : n ≤ x.1 ∧ x.1 < n + l.length := by
  obtain ⟨⟨i, k⟩, hi, rfl⟩ := List.mem_map.mp (List.mem_filter.mp h).1
  have hlast : k < l.length + n := List.snd_lt_of_mem_zipIdx hi
  exact ⟨List.le_snd_of_mem_zipIdx hi, by rwa [Nat.add_comm]⟩

/-- The search backward walks along the listing of its elements from the end. -/
theorem searchBack_eq (steps : Nat) (before : List Instruction) :
    Body.searchBack found stop steps before =
      firstHit? found stop ((numbered 0 before.reverse).reverse.take steps) := by
  induction before generalizing steps with
  | nil =>
      cases steps with
      | zero | succ steps => rfl
  | cons i before ih =>
      rw [List.reverse_cons, numbered_append, List.reverse_append, List.length_reverse]
      cases steps with
      | zero => rfl
      | succ steps =>
          rw [Body.searchBack]
          cases hi : i.isMarker with
          | true =>
              rw [numbered_cons_of_marker hi, numbered_nil, if_pos rfl]
              exact ih (steps + 1)
          | false =>
              rw [numbered_cons hi, numbered_nil, if_neg Bool.false_ne_true, ih steps]
              simp [firstHit?]

/-- The search forward walks along the listing of its elements. -/
theorem searchOn_eq (steps n : Nat) (after : List Instruction) :
    Body.searchOn found stop steps n after =
      firstHit? found stop ((numbered n after).take steps) := by
  induction after generalizing steps n with
  | nil =>
      cases steps with
      | zero | succ steps => rfl
  | cons i after ih =>
      cases steps with
      | zero => rfl
      | succ steps =>
          rw [Body.searchOn]
          cases hi : i.isMarker with
          | true => rw [numbered_cons_of_marker hi, if_pos rfl, ih]
          | false =>
              rw [numbered_cons hi, if_neg Bool.false_ne_true, ih, List.take_succ_cons, firstHit?]

/-- The search forward over elements finds what the search backward finds when it meets them in the
same order. The positions that they answer with are counted from opposite ends. -/
theorem searchOn_eq_some_iff_mirrored {steps n k : Nat} {l : List Instruction} :
    Body.searchOn found stop steps n l = some k ↔
      ∃ m, Body.searchBack found stop steps l = some m ∧ k + m + 1 = n + l.length := by
  induction l generalizing steps n with
  | nil =>
      cases steps with
      | zero | succ steps => simp [Body.searchOn, Body.searchBack]
  | cons i l ih =>
      have hlength : n + 1 + l.length = n + (i :: l).length := by
        rw [List.length_cons]
        omega
      cases steps with
      | zero => simp [Body.searchOn, Body.searchBack]
      | succ steps =>
          rw [Body.searchOn, Body.searchBack, ← hlength]
          cases i.isMarker with
          | true => exact ih
          | false =>
              cases stop i with
              | true => simp
              | false =>
                  cases found i with
                  | true =>
                      simp
                      omega
                  | false => exact ih

namespace Body

/-! ### Windows -/

/-- The instructions of a body that are no markers, with their positions. -/
def listing (b : Body) : List (Nat × Instruction) := numbered 0 b.elements

/-- The instructions that are met going backward from the position before `start` or, if that is
nearer, from the last one. -/
def metBack (b : Body) (start : Int) : List (Nat × Instruction) :=
  (b.listing.filter fun x => (x.1 : Int) ≤ min start b.length - 1).reverse

/-- The instructions that are met going forward from the position after `start` or, if that is
nearer, from the first one. -/
def metOn (b : Body) (start : Int) : List (Nat × Instruction) :=
  b.listing.filter fun x => max (start + 1) 0 ≤ (x.1 : Int)

/-- The listing of a body is cut at every position into those of its two parts. -/
theorem listing_eq_append (b : Body) (n : Nat) :
    b.listing = numbered 0 (b.elements.take n) ++ numbered n (b.elements.drop n) := by
  have hcut : b.listing = numbered 0 (b.elements.take n ++ b.elements.drop n) := by
    rw [List.take_append_drop, listing]
  rw [hcut, numbered_append, List.length_take, Nat.zero_add]
  rcases Nat.le_total n b.elements.length with h | h
  · rw [Nat.min_eq_left h]
  · rw [List.drop_eq_nil_of_le h, numbered_nil, numbered_nil]

theorem filter_listing_lt (b : Body) (n : Nat) :
    b.listing.filter (·.1 < n) = numbered 0 (b.elements.take n) := by
  rw [b.listing_eq_append n, List.filter_append, List.filter_eq_self.mpr,
    List.filter_eq_nil_iff.mpr, List.append_nil]
  · exact fun x hx => by simpa using (bounds_of_mem_numbered hx).1
  · intro x hx
    have hlast := (bounds_of_mem_numbered hx).2
    rw [List.length_take] at hlast
    exact decide_eq_true (by omega)

theorem filter_listing_ge (b : Body) (n : Nat) :
    b.listing.filter (n ≤ ·.1) = numbered n (b.elements.drop n) := by
  rw [b.listing_eq_append n, List.filter_append, List.filter_eq_nil_iff.mpr,
    List.filter_eq_self.mpr, List.nil_append]
  · exact fun x hx => by simpa using (bounds_of_mem_numbered hx).1
  · intro x hx
    have hlast := (bounds_of_mem_numbered hx).2
    rw [List.length_take] at hlast
    simp only [decide_eq_true_eq]
    omega

/-- The window of a search backward from a position within the body, or from its end. -/
theorem metBack_eq (b : Body) (start : Int) :
    b.metBack start =
      (numbered 0 (b.elements.take (min start b.length).toNat)).reverse := by
  rw [metBack, ← filter_listing_lt]
  congr 2
  funext x
  exact decide_eq_decide.mpr (by omega)

theorem metOn_eq (b : Body) (start : Int) :
    b.metOn start = numbered (start + 1).toNat (b.elements.drop (start + 1).toNat) := by
  rw [metOn, ← filter_listing_ge]
  congr 1
  funext x
  exact decide_eq_decide.mpr (by omega)

theorem lookBack_eq (b : Body) (start : Int) (steps : Nat) :
    b.lookBack (min start b.length).toNat found stop steps =
      firstHit? found stop ((b.metBack start).take steps) := by
  rw [lookBack, searchBack_eq, List.reverse_reverse, metBack_eq]

theorem lookOn_eq (b : Body) (start : Int) (steps : Nat) :
    b.lookOn (start + 1).toNat found stop steps =
      firstHit? found stop ((b.metOn start).take steps) := by
  rw [lookOn, searchOn_eq, metOn_eq]

/-- The body in the opposite order. -/
def reversed (b : Body) : Body := ⟨b.elements.reverse⟩

@[simp] theorem length_reversed (b : Body) : b.reversed.length = b.length :=
  List.length_reverse

/-- Looking forward is looking backward in the opposite order. -/
theorem lookOn_eq_some_iff_reversed {b : Body} {n k steps : Nat} (h : n ≤ b.length) :
    b.lookOn n found stop steps = some k ↔
      ∃ m, b.reversed.lookBack (b.length - n) found stop steps = some m ∧
        k + m + 1 = b.length := by
  have hdrop : (b.reversed.elements.take (b.length - n)).reverse = b.elements.drop n := by
    rw [reversed, List.take_reverse, List.reverse_reverse]
    congr 1
    exact Nat.sub_sub_self h
  rw [lookOn, lookBack, hdrop, searchOn_eq_some_iff_mirrored, List.length_drop]
  have hlength : n + (b.elements.length - n) = b.length := Nat.add_sub_cancel' h
  rw [hlength]

/-! ### Searches from signed positions -/

/-- The least position of 64 bits. -/
def leastPosition : Int := -9223372036854775808

/-- The greatest position of 64 bits. -/
def greatestPosition : Int := 9223372036854775807

/-- A number between the least and the greatest position is a position. -/
theorem position_eq {n : Int} (hleast : leastPosition ≤ n) (hgreatest : n ≤ greatestPosition) :
    position n = n := by
  have hspan : Binary.span 64 = 18446744073709551616 := rfl
  have hhalf : Binary.span (64 - 1) = 9223372036854775808 := rfl
  unfold leastPosition at hleast
  unfold greatestPosition at hgreatest
  rw [position, Binary.signed, Binary.wrap, hspan, hhalf]
  split
  · omega
  · omega

section Starts

variable {b : Body} {start steps : Int}

/-- Behind the least position, a search backward begins within the body or at its end. -/
theorem scanBackward_eq (hlength : (b.length : Int) ≤ greatestPosition)
    (hleast : leastPosition < start) :
    b.scanBackward start found stop steps =
      .ok (b.lookBack (min start b.length).toNat found stop steps.toNat) := by
  have hlast : position (min start b.length - 1) = min start b.length - 1 := by
    unfold leastPosition at hleast
    refine position_eq ?_ ?_
    · unfold leastPosition
      omega
    · omega
  have hinside : ¬(0 < steps ∧ (b.length : Int) ≤ min start b.length - 1) := by omega
  simp only [scanBackward, hlast, if_neg hinside, Int.sub_add_cancel]

/-- Before the least position comes the greatest, where the body has no element to begin with. -/
theorem scanBackward_least (hlength : (b.length : Int) ≤ greatestPosition) (hsteps : 0 < steps) :
    b.scanBackward leastPosition found stop steps = .error ⟨greatestPosition⟩ := by
  have hmin : min leastPosition (b.length : Int) = leastPosition := by
    unfold leastPosition
    omega
  have hlast : position (leastPosition - 1) = greatestPosition := by decide
  simp only [scanBackward, hmin, hlast, if_pos (And.intro hsteps hlength)]

/-- Without a budget no element is asked for. -/
theorem scanBackward_of_nonpos (hsteps : steps ≤ 0) :
    b.scanBackward start found stop steps = .ok none := by
  have hspent : ¬(0 < steps ∧ (b.length : Int) ≤ position (min start b.length - 1)) := by omega
  simp only [scanBackward, if_neg hspent, Int.toNat_of_nonpos hsteps, lookBack, searchBack]

theorem scanForward_eq (hleast : leastPosition ≤ start) (hnext : start + 1 ≤ greatestPosition) :
    b.scanForward start found stop steps =
      b.lookOn (start + 1).toNat found stop steps.toNat := by
  rw [scanForward, position_eq (by omega) hnext]

/-- A search forward that begins behind the body may as well begin at its end. -/
theorem lookOn_min (b : Body) (n budget : Nat) :
    b.lookOn n found stop budget = b.lookOn (min n b.length) found stop budget := by
  rcases Nat.le_total n b.length with h | h
  · rw [Nat.min_eq_left h]
  · have hend : b.elements.drop n = [] := List.drop_eq_nil_of_le h
    have hlast : b.elements.drop b.length = [] := List.drop_length
    rw [Nat.min_eq_right h, lookOn, lookOn, hend, hlast, searchOn_eq, searchOn_eq, numbered_nil,
      numbered_nil]

/-- The search forward is the search backward in the opposite order, from the mirrored start. -/
theorem scanForward_eq_some_iff_reversed (hlength : (b.length : Int) ≤ greatestPosition)
    (hleast : leastPosition ≤ start) (hnext : start + 1 ≤ greatestPosition) :
    ∃ r, b.reversed.scanBackward (b.length - 1 - start) found stop steps = .ok r ∧
      ∀ n, b.scanForward start found stop steps = some n ↔
        ∃ m, r = some m ∧ n + m + 1 = b.length := by
  have hstart : leastPosition < b.length - 1 - start := by
    unfold leastPosition
    unfold greatestPosition at hnext
    omega
  have hmirror : (min ((b.length : Int) - 1 - start) b.length).toNat =
      b.length - min (start + 1).toNat b.length := by omega
  refine ⟨_, scanBackward_eq (by rwa [length_reversed]) hstart, fun n => ?_⟩
  rw [scanForward_eq hleast hnext, lookOn_min, length_reversed, hmirror]
  exact lookOn_eq_some_iff_reversed (Nat.min_le_right _ _)

end Starts

/-- Let a body have no more elements than there are positions, and let a start and the one after it
be positions. From there the search backward answers with the position of the first element that
satisfies `found` in the window of the nearest instructions before the start, as many as `steps`
allows, if no element of the window up to it satisfies `stop`, and else without one. Only from the
least position, with a budget, it begins outside the body. The search forward answers in the same
way on its window. It is the search backward on the body in the opposite order, with the positions
mirrored. -/
theorem scans_find_first_hits (b : Body) (found stop : Instruction → Bool) (start steps : Int)
    (hlength : (b.length : Int) ≤ greatestPosition) (hleast : leastPosition ≤ start)
    (hnext : start + 1 ≤ greatestPosition) :
    (start = leastPosition ∧ 0 < steps →
      b.scanBackward start found stop steps = .error ⟨greatestPosition⟩) ∧
    (¬(start = leastPosition ∧ 0 < steps) →
      ∃ r, b.scanBackward start found stop steps = .ok r ∧
        ∀ n, r = some n ↔ FirstHit found stop ((b.metBack start).take steps.toNat) n) ∧
    (∀ n, b.scanForward start found stop steps = some n ↔
      FirstHit found stop ((b.metOn start).take steps.toNat) n) ∧
    ∃ r, b.reversed.scanBackward (b.length - 1 - start) found stop steps = .ok r ∧
      ∀ n, b.scanForward start found stop steps = some n ↔
        ∃ m, r = some m ∧ n + m + 1 = b.length := by
  refine ⟨?_, fun h => ?_, fun n => ?_, scanForward_eq_some_iff_reversed hlength hleast hnext⟩
  · rintro ⟨rfl, hsteps⟩
    exact scanBackward_least hlength hsteps
  · rcases Int.lt_or_le 0 steps with hsteps | hsteps
    · have hstart : leastPosition < start := by omega
      refine ⟨_, scanBackward_eq hlength hstart, fun n => ?_⟩
      rw [lookBack_eq, firstHit?_eq_some_iff]
    · refine ⟨none, scanBackward_of_nonpos hsteps, fun n => ?_⟩
      rw [Int.toNat_of_nonpos hsteps, List.take_zero]
      simp [not_firstHit_nil]
  · rw [scanForward_eq hleast hnext, lookOn_eq, firstHit?_eq_some_iff]

/-- A call on what a field holds, with markers on the way, and another call after it. -/
def twoCalls : Body where
  elements :=
    [⟨.label 0, 0⟩, ⟨.line 10, 0⟩, ⟨.load .reference 0, 0⟩,
      ⟨.field .getField ⟨"a/B", "f", "La/C;"⟩, 1⟩, ⟨.load .int 1, 4⟩, ⟨.frame, 5⟩, ⟨.label 1, 5⟩,
      ⟨.line 11, 5⟩, ⟨.invoke .virtual ⟨"a/C", "run", "(I)V"⟩, 5⟩, ⟨.load .reference 2, 8⟩,
      ⟨.invoke .static ⟨"a/D", "go", "()V"⟩, 9⟩, ⟨.return .void, 12⟩]

/-- From the first call the field is the second instruction back, so a budget of two finds it. From
the field, the second call is the fourth instruction on, so a budget of four finds it. -/
theorem scans_find_first_hits_calls :
    (twoCalls.length : Int) ≤ greatestPosition ∧ leastPosition ≤ 3 ∧
      (8 : Int) + 1 ≤ greatestPosition ∧
      FirstHit Action.isFieldAccess Action.isInvoke ((twoCalls.metBack 8).take 2) 3 ∧
      FirstHit (·.action.uses "a/D" "go" "()V") Action.isTerminal ((twoCalls.metOn 3).take 4) 10 ∧
      ∃ m, 10 + m + 1 = twoCalls.length ∧
        twoCalls.reversed.scanBackward 8 (·.action.uses "a/D" "go" "()V") Action.isTerminal 4 =
          .ok (some m) := by
  have hlength : (twoCalls.length : Int) ≤ greatestPosition := by decide
  obtain ⟨-, hback, -, -⟩ := scans_find_first_hits twoCalls Action.isFieldAccess Action.isInvoke
    8 2 hlength (by decide) (by decide)
  obtain ⟨-, -, hon, r', hreversed, hmirror⟩ := scans_find_first_hits twoCalls
    (·.action.uses "a/D" "go" "()V") Action.isTerminal 3 4 hlength (by decide) (by decide)
  have hfield : twoCalls.scanBackward 8 Action.isFieldAccess Action.isInvoke 2 = .ok (some 3) := by
    decide +kernel
  have hcall : twoCalls.scanForward 3 (·.action.uses "a/D" "go" "()V") Action.isTerminal 4 =
      some 10 := by
    decide +kernel
  obtain ⟨r, hr, hfirst⟩ := hback (by decide)
  obtain rfl : some 3 = r := Except.ok.inj (hfield.symm.trans hr)
  obtain ⟨m, rfl, hm⟩ := (hmirror 10).mp hcall
  exact ⟨hlength, by decide, by decide, (hfirst 3).mp rfl, (hon 10).mp hcall, m, hm, hreversed⟩

/-- A body with one instruction. -/
def loneReturn : Body := ⟨[⟨.return .void, 0⟩]⟩

/-- Nothing stands before the least position, yet the search from there does not answer so. -/
theorem scanBackward_from_least :
    leastPosition + 1 ≤ greatestPosition ∧ loneReturn.metBack leastPosition = [] ∧
      loneReturn.scanBackward leastPosition (fun _ => true) (fun _ => false) 1 =
        .error ⟨greatestPosition⟩ := by
  decide +kernel

end Body

end ClassAudit
