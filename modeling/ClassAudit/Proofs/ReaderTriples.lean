import ClassAudit.Proofs.Reading

/-!
# Triples for readers

A reader is described by three conditions: one for the cursor that it is started at, one for the
value and the cursor where it succeeds, and one for the fault where it fails. Most readers are
started somewhere in a byte string and stay in it; what they are asked for is only their faults.

## Main definitions

* `Faults` - the faults of a computation satisfy a condition.
* `Cursor.In` - the cursor stands in a byte string.
* `Counted` - a stretch of a byte string that follows the word of its length.
* `Read.Triple`, `Read.Keeps` - what a reader does, and what its faults are.

## Main statements

* `Read.Triple.bind`, `Read.Triple.times` - one reader after the other.
* `Read.keeps_bytes` - the end of the input is found where fewer bytes follow than are needed.
* `Read.triple_bytes_counted` - a stretch that is as long as the word before it says.
-/

namespace ClassAudit

variable {α β : Type}

/-! ### Computations that can fail -/

/-- If the computation fails, the fault satisfies `F`. -/
def Faults (F : Malformed → Prop) (result : Except Malformed α) : Prop :=
  ∀ m, result = .error m → F m

section Faults

variable {F : Malformed → Prop}

theorem faults_ok (a : α) : Faults F (.ok a : Except Malformed α) :=
  fun _ h => nomatch h

theorem faults_error {m : Malformed} (h : F m) : Faults F (.error m : Except Malformed α) := by
  rintro _ ⟨⟩
  exact h

theorem Faults.bind {x : Except Malformed α} {f : α → Except Malformed β} (hx : Faults F x)
    (hf : ∀ a, Faults F (f a)) : Faults F (x >>= f) := by
  cases x with
  | error m => exact faults_error (hx m rfl)
  | ok a => exact hf a

theorem Faults.map {x : Except Malformed α} (hx : Faults F x) (f : α → β) :
    Faults F (x.map f) := by
  cases x with
  | error m => exact faults_error (hx m rfl)
  | ok a => exact faults_ok (f a)

end Faults

/-! ### Readers -/

/-- The cursor stands in `whole`: the bytes that are left are its last ones, and the position is
the number of the others. -/
def Cursor.In (whole : List UInt8) (c : Cursor) : Prop :=
  ∃ before, whole = before ++ c.rest ∧ before.length = c.pos

/-- The cursor stands in `whole` behind a four-byte word that spells `n`. -/
def Cursor.Counts (whole : List UInt8) (n : Nat) (c : Cursor) : Prop :=
  ∃ before count, whole = before ++ count ++ c.rest ∧ (before ++ count).length = c.pos ∧
    count.length = 4 ∧ Binary.value count = n

theorem Cursor.Counts.toIn {whole : List UInt8} {n : Nat} {c : Cursor} (h : c.Counts whole n) :
    c.In whole := by
  obtain ⟨before, count, hwhole, hpos, -, -⟩ := h
  exact ⟨before ++ count, hwhole, hpos⟩

/-- In `whole`, a four-byte word tells the length of `part`, and `part` follows it from byte number
`start` on. -/
def Counted (whole : List UInt8) (start : Nat) (part : List UInt8) : Prop :=
  ∃ before count after, whole = before ++ count ++ part ++ after ∧ count.length = 4 ∧
    Binary.value count = part.length ∧ start = before.length + 4

/-- Started at a cursor that satisfies `pre`, the reader gives a value and a cursor that satisfy
`post`, or fails with a fault that satisfies `F`. -/
def Read.Triple (pre : Cursor → Prop) (r : Read α) (post : α → Cursor → Prop)
    (F : Malformed → Prop) : Prop :=
  ∀ c, pre c → (∀ a c', r c = .ok (a, c') → post a c') ∧ ∀ m, r c = .error m → F m

/-- Started in `whole`, the reader stays in `whole`, or fails with a fault that satisfies `F`. -/
def Read.Keeps (whole : List UInt8) (F : Malformed → Prop) (r : Read α) : Prop :=
  r.Triple (Cursor.In whole) (fun _ => Cursor.In whole) F

namespace Read

section Triples

variable {pre : Cursor → Prop} {P Q : α → Cursor → Prop} {post : β → Cursor → Prop}
  {F G : Malformed → Prop}

theorem triple_pure {a : α} (h : ∀ c, pre c → P a c) : (pure a : Read α).Triple pre P F := by
  refine fun c hc => ⟨?_, fun m hm => nomatch hm⟩
  rintro _ _ ⟨⟩
  exact h c hc

theorem triple_fail {cause : Malformed.Cause} {offset : Option Nat} (h : F { cause, offset }) :
    (Read.fail cause offset : Read α).Triple pre P F := by
  refine fun c _ => ⟨fun a c' h => (nomatch h), ?_⟩
  rintro _ ⟨⟩
  exact h

theorem Triple.bind {r : Read α} {f : α → Read β} (hr : r.Triple pre Q F)
    (hf : ∀ a, (f a).Triple (Q a) post F) : (r >>= f).Triple pre post F := by
  refine fun c hc => ⟨fun b c' h => ?_, fun m h => ?_⟩
  · obtain ⟨a, c₁, ha, hb⟩ := run_bind_eq_ok.mp h
    exact (hf a c₁ ((hr c hc).1 a c₁ ha)).1 b c' hb
  · obtain hm | ⟨a, c₁, ha, hm⟩ := run_bind_eq_error.mp h
    · exact (hr c hc).2 m hm
    · exact (hf a c₁ ((hr c hc).1 a c₁ ha)).2 m hm

theorem Triple.imp {r : Read α} (hr : r.Triple pre P F) (hpost : ∀ a c, P a c → Q a c) :
    r.Triple pre Q F :=
  fun c hc => ⟨fun a c' h => hpost a c' ((hr c hc).1 a c' h), (hr c hc).2⟩

theorem Triple.mono {r : Read α} (hr : r.Triple pre P F) (hF : ∀ m, F m → G m) :
    r.Triple pre P G :=
  fun c hc => ⟨(hr c hc).1, fun m h => hF m ((hr c hc).2 m h)⟩

/-- What is known of the value that was read does not depend on the cursor. -/
theorem Triple.of_fact {r : Read α} {p : Prop} (hr : p → r.Triple pre P F) :
    r.Triple (fun c => pre c ∧ p) P F :=
  fun c hc => hr hc.2 c hc.1

theorem Triple.ite {p : Prop} [Decidable p] {r s : Read α} (hr : r.Triple pre P F)
    (hs : s.Triple pre P F) : (if p then r else s).Triple pre P F := by
  split
  · exact hr
  · exact hs

theorem triple_position : Read.position.Triple pre (fun n c => pre c ∧ c.pos = n) F := by
  refine fun c hc => ⟨?_, fun m h => nomatch h⟩
  rintro _ _ ⟨⟩
  exact ⟨hc, rfl⟩

theorem triple_remaining : Read.remaining.Triple pre (fun _ => pre) F := by
  refine fun c hc => ⟨?_, fun m h => nomatch h⟩
  rintro _ _ ⟨⟩
  exact hc

/-- Every entry of a table is as its reader gives it. -/
theorem Triple.times {r : Read α} {p : α → Prop} (hr : r.Triple pre (fun a c => pre c ∧ p a) F)
    (n : Nat) : (Read.times n r).Triple pre (fun as c => pre c ∧ ∀ a ∈ as, p a) F := by
  induction n with
  | zero => exact triple_pure fun c hc => ⟨hc, fun a ha => nomatch ha⟩
  | succ n ih =>
      refine hr.bind fun a => .of_fact fun ha => ih.bind fun as => .of_fact fun has => ?_
      exact triple_pure fun c hc => ⟨hc, List.forall_mem_cons.mpr ⟨ha, has⟩⟩

theorem Triple.within {r : Read α} {place : Malformed.Place}
    (hr : r.Triple pre P fun m => F (m.inside place)) : (Read.within place r).Triple pre P F := by
  intro c hc
  obtain ⟨hok, hfault⟩ := hr c hc
  refine ⟨fun a c' h => hok a c' ?_, fun m h => ?_⟩
  · rwa [Read.within, except_mapError_eq_ok] at h
  · rw [Read.within] at h
    cases hrun : r c with
    | ok x =>
        rw [hrun] at h
        cases h
    | error m' =>
        rw [hrun] at h
        obtain rfl : m'.inside place = m := Except.error.inj h
        exact hfault m' hrun

end Triples

section Keeping

variable {whole : List UInt8} {F G : Malformed → Prop}

theorem keeps_pure (a : α) : (pure a : Read α).Keeps whole F :=
  triple_pure fun _ hc => hc

theorem Keeps.bind {r : Read α} {f : α → Read β} (hr : r.Keeps whole F)
    (hf : ∀ a, (f a).Keeps whole F) : (r >>= f).Keeps whole F :=
  Triple.bind hr hf

theorem Keeps.map {r : Read α} (hr : r.Keeps whole F) (f : α → β) : (f <$> r).Keeps whole F :=
  hr.bind fun a => keeps_pure (f a)

/-- Reads a value and makes something of it. -/
theorem Keeps.bind_pure {r : Read α} (hr : r.Keeps whole F) (f : α → β) :
    (r >>= fun a => pure (f a)).Keeps whole F :=
  hr.bind fun a => keeps_pure (f a)

theorem Keeps.ite {p : Prop} [Decidable p] {r s : Read α} (hr : r.Keeps whole F)
    (hs : s.Keeps whole F) : (if p then r else s).Keeps whole F :=
  Triple.ite hr hs

theorem Keeps.mono {r : Read α} (hr : r.Keeps whole F) (hF : ∀ m, F m → G m) :
    r.Keeps whole G :=
  Triple.mono hr hF

theorem Keeps.discard {r : Read α} (hr : r.Keeps whole F) :
    (discard r : Read PUnit).Keeps whole F :=
  hr.map _

theorem Keeps.times {r : Read α} (hr : r.Keeps whole F) (n : Nat) :
    (Read.times n r).Keeps whole F := by
  have hentry : r.Triple (Cursor.In whole) (fun _ c => c.In whole ∧ True) F :=
    Triple.imp hr fun _ _ h => ⟨h, trivial⟩
  exact (hentry.times n).imp fun _ _ h => h.1

theorem keeps_position : Read.position.Keeps whole F :=
  triple_position.imp fun _ _ h => h.1

theorem keeps_remaining : Read.remaining.Keeps whole F := triple_remaining

theorem keeps_atEnd : Read.atEnd.Keeps whole F := by
  refine fun c hc => ⟨?_, fun m h => nomatch h⟩
  rintro _ _ ⟨⟩
  exact hc

theorem Keeps.within {r : Read α} {place : Malformed.Place}
    (hr : r.Keeps whole fun m => F (m.inside place)) : (Read.within place r).Keeps whole F :=
  Triple.within hr

theorem keeps_lookup {result : Except Malformed α} (h : Faults F result) :
    (Decode.lookup result).Keeps whole F := by
  refine fun c hc => ⟨fun a c' hrun => ?_, h.map _⟩
  obtain ⟨a, -, heq⟩ := except_map_eq_ok.mp hrun
  obtain ⟨-, rfl⟩ := Prod.mk.inj heq
  exact hc

theorem Keeps.runOn {data : List UInt8} {r : Read α} (hr : r.Keeps data F) :
    Faults F (Read.runOn data r) :=
  Faults.map (hr { rest := data } ⟨[], rfl, rfl⟩).2 _

/-! ### Bytes -/

/-- The one reader that finds the end of the input: the bytes that are left are those that follow
the offset, and they are fewer than are needed. -/
theorem keeps_bytes {n : Nat} {item : String}
    (h : ∀ have_ k, have_ < n → k + have_ = whole.length →
      F { cause := .truncated item n have_, offset := some k }) :
    (Read.bytes n item).Keeps whole F := by
  rintro c ⟨before, hwhole, hpos⟩
  refine ⟨fun taken c' hrun => ?_, fun m hrun => ?_⟩
  · obtain ⟨hrest, hlength, hpos'⟩ := eq_append_of_bytes hrun
    refine ⟨before ++ taken, by rw [hwhole, hrest, List.append_assoc], ?_⟩
    rw [List.length_append]
    omega
  · rcases Nat.lt_or_ge c.rest.length n with hlt | hle
    · rw [bytes_of_lt hlt] at hrun
      obtain rfl := Except.error.inj hrun
      refine h _ _ hlt ?_
      rw [hwhole, List.length_append, hpos]
    · rw [bytes_of_le hle] at hrun
      exact nomatch hrun

/-- The byte at a known position. -/
theorem triple_u1_at {item : String} (h : (Read.u1 item).Keeps whole F) (pc : Nat) :
    (Read.u1 item).Triple (fun c => c.In whole ∧ c.pos = pc)
      (fun n c => c.In whole ∧ ∃ b, whole[pc]? = some b ∧ b.toNat = n) F := by
  rintro c ⟨hin, rfl⟩
  obtain ⟨hok, hfault⟩ := h c hin
  refine ⟨fun n c' h => ⟨hok n c' h, ?_⟩, hfault⟩
  rw [Read.u1, word_eq] at h
  obtain ⟨taken, hbytes, rfl⟩ := run_map_eq_ok.mp h
  obtain ⟨hrest, hlength, -⟩ := eq_append_of_bytes hbytes
  obtain ⟨b, rfl⟩ := List.length_eq_one_iff.mp hlength
  obtain ⟨before, hwhole, hpos⟩ := hin
  refine ⟨b, ?_, by simp [Binary.value]⟩
  rw [hwhole, hrest, ← hpos]
  simp

theorem triple_u4_counts {item : String} (h : (Read.u4 item).Keeps whole F) :
    (Read.u4 item).Triple (Cursor.In whole) (fun n c => c.Counts whole n) F := by
  intro c hin
  refine ⟨fun n c' h => ?_, (h c hin).2⟩
  rw [Read.u4, word_eq] at h
  obtain ⟨count, hbytes, rfl⟩ := run_map_eq_ok.mp h
  obtain ⟨hrest, hlength, hpos'⟩ := eq_append_of_bytes hbytes
  obtain ⟨before, hwhole, hpos⟩ := hin
  refine ⟨before, count, by rw [hwhole, hrest, List.append_assoc], ?_, hlength, rfl⟩
  rw [List.length_append]
  omega

/-- Reads as many bytes as the word before them says. -/
theorem triple_bytes_counted {n : Nat} {item : String} (h : (Read.bytes n item).Keeps whole F) :
    (Read.bytes n item).Triple (Cursor.Counts whole n)
      (fun part c => c.In whole ∧ ∃ start, Counted whole start part) F := by
  intro c hcounts
  obtain ⟨hok, hfault⟩ := h c hcounts.toIn
  refine ⟨fun part c' h => ⟨hok part c' h, ?_⟩, hfault⟩
  obtain ⟨before, count, hwhole, -, hcount, hvalue⟩ := hcounts
  obtain ⟨hrest, hlength, -⟩ := eq_append_of_bytes h
  refine ⟨before.length + 4, before, count, c'.rest, ?_, hcount, hvalue.trans hlength.symm, rfl⟩
  rw [hwhole, hrest, List.append_assoc _ part]

end Keeping

end Read

end ClassAudit
