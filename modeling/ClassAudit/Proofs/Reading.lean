import ClassAudit.ClassFile.Decode
import Mathlib.Data.List.Forall2
import Mathlib.Tactic.Linarith
import Mathlib.Tactic.Ring

/-!
# Reading back what was written

A word that is written and read again is the number that went in, cut to the width of the
word. Readers are described by what they make of the bytes that they consume:
`r.Yields pos bytes result` says that the reader `r`, started at position `pos` before `bytes`,
gives `result` and stops right behind `bytes`, whatever follows. The statement composes along
the structure of a reader, so each format is read back piece by piece.

## Main statements

* `Binary.value_word` - the number that a written word spells.
* `Binary.exists_signed_wrap_eq` - a signed word is read back up to a multiple of its range.
* `Read.Yields.bind`, `Read.yields_times` - reading one piece after the other.
* `Read.Accepts.bind` - the same, for readers that may refuse.
* `run_bind_eq_ok`, `run_bind_eq_error`, `mapM_id_eq_ok` - what a sequence or list went through.
-/

namespace ClassAudit

/-! ### Computations that can fail -/

section Results

variable {ε σ α β : Type}

theorem except_bind_eq_ok {x : Except ε α} {f : α → Except ε β} {b : β} :
    (x >>= f) = .ok b ↔ ∃ a, x = .ok a ∧ f a = .ok b := by
  cases x with
  | error e => simp [bind, Except.bind]
  | ok a => simp [bind, Except.bind]

theorem except_map_eq_ok {x : Except ε α} {f : α → β} {b : β} :
    x.map f = .ok b ↔ ∃ a, x = .ok a ∧ f a = b := by
  cases x with
  | error e => simp [Except.map]
  | ok a => simp [Except.map]

theorem exists_eq_ok_of_isOk {x : Except ε α} (h : x.isOk = true) : ∃ a, x = .ok a := by
  cases x with
  | error e => exact nomatch h
  | ok a => exact ⟨a, rfl⟩

theorem except_mapError_eq_ok {ε' : Type} {x : Except ε α} {f : ε → ε'} {a : α} :
    x.mapError f = .ok a ↔ x = .ok a := by
  cases x with
  | error e => simp [Except.mapError]
  | ok b => simp [Except.mapError]

/-- A sequence succeeds exactly if its parts do, one after the other. -/
theorem run_bind_eq_ok {x : StateT σ (Except ε) α} {f : α → StateT σ (Except ε) β} {s s' : σ}
    {b : β} :
    (x >>= f) s = .ok (b, s') ↔ ∃ a s₁, x s = .ok (a, s₁) ∧ f a s₁ = .ok (b, s') := by
  show (x s >>= fun r => f r.1 r.2) = _ ↔ _
  rw [except_bind_eq_ok, Prod.exists]

/-- A sequence fails in its first part, or in its second part after the first one succeeded. -/
theorem run_bind_eq_error {x : StateT σ (Except ε) α} {f : α → StateT σ (Except ε) β} {s : σ}
    {e : ε} : (x >>= f) s = .error e ↔
      x s = .error e ∨ ∃ a s', x s = .ok (a, s') ∧ f a s' = .error e := by
  rw [show (x >>= f) s = x s >>= fun r => f r.1 r.2 from rfl]
  cases x s with
  | error e' =>
      rw [show (Except.error e' >>= fun r : α × σ => f r.1 r.2) = .error e' from rfl]
      simp
  | ok r =>
      obtain ⟨a, s'⟩ := r
      rw [show (Except.ok (a, s') >>= fun r : α × σ => f r.1 r.2) = f a s' from rfl]
      simp

theorem run_map_eq_ok {x : StateT σ (Except ε) α} {f : α → β} {s s' : σ} {b : β} :
    (f <$> x) s = .ok (b, s') ↔ ∃ a, x s = .ok (a, s') ∧ f a = b := by
  show (x s >>= fun r => pure (f r.1, r.2)) = _ ↔ _
  rw [except_bind_eq_ok, Prod.exists]
  constructor
  · rintro ⟨a, s₁, hx, h⟩
    obtain ⟨rfl, rfl⟩ := Prod.mk.inj (Except.ok.inj h)
    exact ⟨a, hx, rfl⟩
  · rintro ⟨a, hx, rfl⟩
    exact ⟨a, s', hx, rfl⟩

/-- A list of results is a result exactly if each of them is. -/
theorem mapM_id_eq_ok {results : List (Except ε α)} {as : List α} :
    results.mapM id = .ok as ↔ results = as.map .ok := by
  induction results generalizing as with
  | nil =>
      rw [List.mapM_nil, eq_comm (a := []), List.map_eq_nil_iff]
      exact ⟨fun h => (Except.ok.inj h).symm, fun h => by rw [h]; rfl⟩
  | cons r results ih =>
      rw [List.mapM_cons, except_bind_eq_ok]
      constructor
      · rintro ⟨a, rfl, h⟩
        obtain ⟨as', has, hpure⟩ := except_bind_eq_ok.mp h
        obtain rfl := Except.ok.inj hpure
        rw [List.map_cons, ih.mp has]
      · intro h
        obtain ⟨a, as', rfl, hr, has⟩ := List.map_eq_cons_iff.mp h.symm
        exact ⟨a, hr.symm, except_bind_eq_ok.mpr ⟨as', ih.mpr has.symm, rfl⟩⟩

theorem mapM_eq_ok_iff {f : α → Except ε β} {as : List α} {bs : List β} :
    as.mapM f = .ok bs ↔ as.map f = bs.map .ok := by
  rw [← mapM_id_eq_ok, List.mapM_map]
  rfl

/-- A list is mapped to results one by one. -/
theorem mapM_eq_ok_of_forall₂ {f : α → Except ε β} {as : List α} {bs : List β}
    (h : List.Forall₂ (fun a b => f a = .ok b) as bs) : as.mapM f = .ok bs := by
  induction h with
  | nil => rfl
  | cons hab _ ih =>
      rw [List.mapM_cons, hab, ih]
      rfl

theorem exists_getElem?_of_forall₂ {R : α → β → Prop} {as : List α} {bs : List β}
    (h : List.Forall₂ R as bs) {i : Nat} {a : α} (ha : as[i]? = some a) :
    ∃ b, bs[i]? = some b ∧ R a b := by
  induction h generalizing i with
  | nil => exact nomatch ha
  | cons hab _ ih =>
      cases i with
      | zero =>
          obtain rfl := Option.some.inj ha
          exact ⟨_, rfl, hab⟩
      | succ i => exact ih ha

theorem forall₂_imp_of_mem {R S : α → β → Prop} {as : List α} {bs : List β}
    (h : List.Forall₂ R as bs) (himp : ∀ a ∈ as, ∀ b ∈ bs, R a b → S a b) :
    List.Forall₂ S as bs := by
  induction h with
  | nil => exact .nil
  | cons hab _ ih =>
      refine .cons (himp _ List.mem_cons_self _ List.mem_cons_self hab) (ih fun a ha b hb => ?_)
      exact himp a (List.mem_cons_of_mem _ ha) b (List.mem_cons_of_mem _ hb)

theorem exists_forall₂ {γ : Type} {R : α → β → Prop} {S : α → γ → Prop} {T : β → γ → Prop}
    {as : List α} {bs : List β} (h : List.Forall₂ R as bs)
    (himp : ∀ a b, R a b → ∃ c, S a c ∧ T b c) :
    ∃ cs, List.Forall₂ S as cs ∧ List.Forall₂ T bs cs := by
  induction h with
  | nil => exact ⟨[], .nil, .nil⟩
  | cons hab _ ih =>
      obtain ⟨c, hac, hbc⟩ := himp _ _ hab
      obtain ⟨cs, has, hbs⟩ := ih
      exact ⟨c :: cs, .cons hac has, .cons hbc hbs⟩

/-- What stands beside two lists, one after the other, are two lists as well. -/
theorem exists_append_of_forall₂ {R : α → β → Prop} {as as' : List α} {bs : List β}
    (h : List.Forall₂ R (as ++ as') bs) :
    ∃ cs cs', bs = cs ++ cs' ∧ List.Forall₂ R as cs ∧ List.Forall₂ R as' cs' := by
  have htake := List.forall₂_take_append bs as as' h.flip
  have hdrop := List.forall₂_drop_append bs as as' h.flip
  exact ⟨_, _, (List.take_append_drop as.length bs).symm, htake.flip, hdrop.flip⟩

end Results

/-! ### Words -/

namespace Binary

@[simp] theorem length_wordOfNat (width n : Nat) : (wordOfNat width n).length = width := by
  induction width generalizing n with
  | zero => rfl
  | succ width ih => rw [wordOfNat, List.length_append, ih, List.length_singleton]

@[simp] theorem length_word (width : Nat) (n : Int) : (word width n).length = width :=
  length_wordOfNat width _

@[simp] theorem length_u2 (n : Int) : (u2 n).length = 2 := length_word 2 n

@[simp] theorem length_u4 (n : Int) : (u4 n).length = 4 := length_word 4 n

theorem value_append_singleton (bytes : List UInt8) (b : UInt8) :
    value (bytes ++ [b]) = value bytes * 256 + b.toNat := by
  simp [value, List.foldl_append]

/-- A number below `256 ^ width` is spelled by its lowest `width` bytes. -/
theorem value_wordOfNat {width n : Nat} (h : n < 256 ^ width) : value (wordOfNat width n) = n := by
  induction width generalizing n with
  | zero =>
      have hn : n = 0 := by simpa using h
      rw [hn]
      rfl
  | succ width ih =>
      have hdiv : n / 256 < 256 ^ width := by
        rw [Nat.div_lt_iff_lt_mul (by decide)]
        rwa [Nat.pow_succ] at h
      rw [wordOfNat, value_append_singleton, ih hdiv]
      simp only [UInt8.toNat_ofNat']
      omega

theorem span_eq (bits : Nat) : span bits = 2 ^ bits := rfl

theorem wrap_eq (bits : Nat) (n : Int) : wrap bits n = (n % 2 ^ bits).toNat := by
  rw [wrap, span_eq]
  norm_cast

theorem wrap_lt (bits : Nat) (n : Int) : wrap bits n < 2 ^ bits := by
  have hpos : (0 : Int) < 2 ^ bits := by exact_mod_cast Nat.two_pow_pos bits
  have hlt := Int.emod_lt_of_pos n hpos
  have hge := Int.emod_nonneg n (ne_of_gt hpos)
  rw [wrap_eq]
  have : ((n % 2 ^ bits).toNat : Int) < 2 ^ bits := by omega
  exact_mod_cast this

/-- A number that fits its word keeps its value. -/
theorem wrap_of_lt {bits n : Nat} (h : n < 2 ^ bits) : wrap bits n = n := by
  have hz : (n : Int) < 2 ^ bits := by exact_mod_cast h
  rw [wrap_eq, Int.emod_eq_of_lt (Int.natCast_nonneg n) hz, Int.toNat_natCast]

/-- The number that a written word spells. -/
theorem value_word (width : Nat) (n : Int) : value (word width n) = wrap (8 * width) n := by
  refine value_wordOfNat ?_
  have h := wrap_lt (8 * width) n
  rwa [Nat.pow_mul] at h

@[simp] theorem value_u2 (n : Int) : value (u2 n) = wrap 16 n := value_word 2 n

@[simp] theorem value_u4 (n : Int) : value (u4 n) = wrap 32 n := value_word 4 n

@[simp] theorem value_byte (n : Int) : value [byte n] = wrap 8 n := value_word 1 n

/-- The signed reading of a word is the number that went in, up to a multiple of the range. -/
theorem exists_signed_wrap_eq (bits : Nat) (n : Int) :
    ∃ k : Int, signed bits (wrap bits n) = n + k * 2 ^ bits := by
  have hpos : (0 : Int) < 2 ^ bits := by positivity
  have hdiv := Int.emod_add_mul_ediv n (2 ^ bits)
  have hcast : ((n % 2 ^ bits).toNat : Int) = n % 2 ^ bits :=
    Int.toNat_of_nonneg (Int.emod_nonneg n hpos.ne')
  rw [signed, wrap_eq, span_eq, span_eq, Nat.cast_pow, Nat.cast_ofNat]
  split
  · refine ⟨-(n / 2 ^ bits), ?_⟩
    rw [hcast]
    linarith
  · refine ⟨-(n / 2 ^ bits) - 1, ?_⟩
    rw [hcast]
    linarith

end Binary

/-- The first bytes of a table spell the number that they spell as a list. -/
theorem Binary.leading_eq {bytes : List UInt8} {width : Nat} (h : width ≤ bytes.length) :
    Binary.leading bytes.toArray width = .ok (Binary.value (bytes.take width)) := by
  induction width with
  | zero => rfl
  | succ width ih =>
      have hget : Access.get bytes.toArray width = .ok bytes[width] := Access.get_of_lt h
      rw [Binary.leading, ih (Nat.le_of_succ_le h), Access.ok_bind, hget, Access.ok_bind,
        List.take_succ_eq_append_getElem h, Binary.value, Binary.value, List.foldl_concat]
      rfl

/-! ### Readers -/

namespace Read

variable {α β : Type}

theorem bytes_of_lt {n : Nat} {c : Cursor} (h : c.rest.length < n) (item : String) :
    Read.bytes n item c =
      .error { cause := .truncated item n c.rest.length, offset := some c.pos } := by
  show (if Access.isShorter c.rest n then _ else _ : Read (List UInt8)) c = _
  rw [if_pos (Access.isShorter_iff.mpr h)]
  rfl

theorem bytes_of_le {n : Nat} {c : Cursor} (h : n ≤ c.rest.length) (item : String) :
    Read.bytes n item c = .ok (c.rest.take n, { rest := c.rest.drop n, pos := c.pos + n }) := by
  show (if Access.isShorter c.rest n then _ else _ : Read (List UInt8)) c = _
  rw [if_neg (Access.isShorter_iff.not.mpr (Nat.not_lt.mpr h)), Access.split_of_le h]
  rfl

/-- The bytes that are read are the first ones of what was left. -/
theorem eq_append_of_bytes {n : Nat} {item : String} {c c' : Cursor} {taken : List UInt8}
    (h : Read.bytes n item c = .ok (taken, c')) :
    c.rest = taken ++ c'.rest ∧ taken.length = n ∧ c'.pos = c.pos + n := by
  rcases Nat.lt_or_ge c.rest.length n with hlt | hle
  · rw [bytes_of_lt hlt] at h
    exact nomatch h
  · rw [bytes_of_le hle] at h
    obtain ⟨rfl, rfl⟩ := Prod.mk.inj (Except.ok.inj h)
    exact ⟨(List.take_append_drop n c.rest).symm, List.length_take_of_le hle, rfl⟩

/-- A word is the number that its bytes spell, and they are all there. -/
theorem word_eq (width : Nat) (item : String) :
    Read.word width item = Binary.value <$> Read.bytes width item := by
  funext c
  show (Read.bytes width item c >>= fun x =>
    Read.access (Binary.leading x.1.toArray width) x.2) =
      Read.bytes width item c >>= fun x => .ok (Binary.value x.1, x.2)
  cases hbytes : Read.bytes width item c with
  | error m => rfl
  | ok x =>
      obtain ⟨-, hlength, -⟩ := eq_append_of_bytes hbytes
      show Read.access (Binary.leading x.1.toArray width) x.2 = .ok (Binary.value x.1, x.2)
      rw [Binary.leading_eq hlength.ge, List.take_of_length_le hlength.le]
      rfl

/-- Started at position `pos` before `bytes`, the reader gives `result`, and if that is a value
it stops right behind `bytes`, whatever follows. -/
def Yields (r : Read α) (pos : Nat) (bytes : List UInt8) (result : Except Malformed α) : Prop :=
  ∀ tail, r ⟨bytes ++ tail, pos⟩ = result.map fun a => (a, ⟨tail, pos + bytes.length⟩)

/-- A reader that succeeds has stopped right behind the bytes. -/
theorem Yields.of_run {r : Read α} {pos : Nat} {bytes tail : List UInt8}
    {result : Except Malformed α} (hr : r.Yields pos bytes result) {a : α} {c : Cursor}
    (h : r ⟨bytes ++ tail, pos⟩ = .ok (a, c)) :
    result = .ok a ∧ c = ⟨tail, pos + bytes.length⟩ := by
  rw [hr] at h
  obtain ⟨a, hresult, heq⟩ := except_map_eq_ok.mp h
  obtain ⟨rfl, rfl⟩ := Prod.mk.inj heq
  exact ⟨hresult, rfl⟩

theorem Yields.runOn_append {r : Read α} {bytes : List UInt8} {result : Except Malformed α}
    (hr : r.Yields 0 bytes result) (tail : List UInt8) :
    Read.runOn (bytes ++ tail) r = result := by
  rw [Read.runOn, hr]
  cases result with
  | error e => rfl
  | ok a => rfl

theorem Yields.runOn {r : Read α} {bytes : List UInt8} {result : Except Malformed α}
    (hr : r.Yields 0 bytes result) : Read.runOn bytes r = result := by
  have hrun := hr.runOn_append []
  rwa [List.append_nil] at hrun

theorem yields_pure (a : α) (pos : Nat) : (pure a : Read α).Yields pos [] (.ok a) :=
  fun _ => rfl

theorem yields_lookup (result : Except Malformed α) (pos : Nat) :
    (Decode.lookup result).Yields pos [] result :=
  fun _ => rfl

theorem yields_fail (cause : Malformed.Cause) (offset : Option Nat) (pos : Nat) :
    (Read.fail cause offset : Read α).Yields pos [] (.error { cause, offset }) :=
  fun _ => rfl

/-- Reading one piece after the other. -/
theorem Yields.bind {r : Read α} {f : α → Read β} {pos : Nat} {first second : List UInt8}
    {result : Except Malformed α} {next : α → Except Malformed β} (hr : r.Yields pos first result)
    (hf : ∀ a, result = .ok a → (f a).Yields (pos + first.length) second (next a)) :
    (r >>= f).Yields pos (first ++ second) (result >>= next) := by
  intro tail
  show (r ⟨first ++ second ++ tail, pos⟩ >>= fun x => f x.1 x.2) = _
  rw [List.append_assoc, hr]
  cases result with
  | error e => rfl
  | ok a =>
      show f a ⟨second ++ tail, pos + first.length⟩ = _
      rw [hf a rfl, List.length_append, Nat.add_assoc]
      rfl

/-- A piece that is read to a known value. -/
theorem Yields.bind_ok {r : Read α} {f : α → Read β} {pos : Nat} {first second : List UInt8}
    {a : α} {next : Except Malformed β} (hr : r.Yields pos first (.ok a))
    (hf : (f a).Yields (pos + first.length) second next) :
    (r >>= f).Yields pos (first ++ second) next := by
  intro tail
  show (r ⟨first ++ second ++ tail, pos⟩ >>= fun x => f x.1 x.2) = _
  rw [List.append_assoc, hr]
  show f a ⟨second ++ tail, pos + first.length⟩ = _
  rw [hf, List.length_append, Nat.add_assoc]

/-- A first byte that is read to a known value. -/
theorem Yields.bind_cons {r : Read α} {f : α → Read β} {pos : Nat} {b : UInt8}
    {bytes : List UInt8} {a : α} {next : Except Malformed β} (hr : r.Yields pos [b] (.ok a))
    (hf : (f a).Yields (pos + 1) bytes next) : (r >>= f).Yields pos (b :: bytes) next :=
  hr.bind_ok hf

theorem yields_bind_position {f : Nat → Read β} {pos : Nat} {bytes : List UInt8}
    {next : Except Malformed β} (hf : (f pos).Yields pos bytes next) :
    (Read.position >>= f).Yields pos bytes next :=
  hf

/-- What is left is at least what is still to be read. -/
theorem yields_bind_remaining {f : Nat → Read β} {pos : Nat} {bytes : List UInt8}
    {next : Except Malformed β} (hf : ∀ n, bytes.length ≤ n → (f n).Yields pos bytes next) :
    (Read.remaining >>= f).Yields pos bytes next :=
  fun tail => hf _ (by rw [List.length_append]; exact Nat.le_add_right _ _) tail

/-- A step that reads nothing and gives a known value. -/
theorem Yields.bind_nil {r : Read α} {f : α → Read β} {pos : Nat} {bytes : List UInt8} {a : α}
    {next : Except Malformed β} (hr : r.Yields pos [] (.ok a)) (hf : (f a).Yields pos bytes next) :
    (r >>= f).Yields pos bytes next :=
  hr.bind_ok hf

/-- A last piece that is read to a known value. -/
theorem Yields.bind_last {r : Read α} {f : α → Read β} {pos : Nat} {bytes : List UInt8} {a : α}
    {next : Except Malformed β} (hr : r.Yields pos bytes (.ok a))
    (hf : (f a).Yields (pos + bytes.length) [] next) : (r >>= f).Yields pos bytes next := by
  have h := hr.bind_ok hf
  rwa [List.append_nil] at h

theorem Yields.map {r : Read α} {pos : Nat} {bytes : List UInt8} {result : Except Malformed α}
    (hr : r.Yields pos bytes result) (f : α → β) : (f <$> r).Yields pos bytes (f <$> result) := by
  intro tail
  show (r ⟨bytes ++ tail, pos⟩ >>= fun x => pure (f x.1, x.2)) = _
  rw [hr]
  cases result with
  | error e => rfl
  | ok a => rfl

/-- A place around a reader only shows in its faults. -/
theorem Yields.within {r : Read α} {pos : Nat} {bytes : List UInt8}
    {result : Except Malformed α} (hr : r.Yields pos bytes result) (place : Malformed.Place) :
    (Read.within place r).Yields pos bytes (result.mapError (·.inside place)) := by
  intro tail
  rw [Read.within, hr]
  cases result with
  | error e => rfl
  | ok a => rfl

theorem yields_bytes (bytes : List UInt8) (item : String) (pos : Nat) :
    (Read.bytes bytes.length item).Yields pos bytes (.ok bytes) := by
  intro tail
  rw [bytes_of_le (by simp), List.take_left, List.drop_left]
  rfl

/-- A word of any width is read to the number that it spells. -/
theorem yields_value (bytes : List UInt8) (item : String) (pos : Nat) :
    (Read.word bytes.length item).Yields pos bytes (.ok (Binary.value bytes)) := by
  rw [word_eq]
  exact (yields_bytes bytes item pos).map Binary.value

theorem yields_u1 (n : Int) (item : String) (pos : Nat) :
    (Read.u1 item).Yields pos [Binary.byte n] (.ok (Binary.wrap 8 n)) := by
  have h := yields_value [Binary.byte n] item pos
  rwa [Binary.value_byte] at h

theorem yields_u2 (n : Int) (item : String) (pos : Nat) :
    (Read.u2 item).Yields pos (Binary.u2 n) (.ok (Binary.wrap 16 n)) := by
  have h := yields_value (Binary.u2 n) item pos
  rwa [Binary.length_u2, Binary.value_u2] at h

/-- A number below 65536 is read back from its two bytes. -/
theorem yields_u2_of_lt {n : Nat} (hn : n < 65536) (item : String) (pos : Nat) :
    (Read.u2 item).Yields pos (Binary.u2 n) (.ok n) := by
  have h := yields_u2 n item pos
  rwa [Binary.wrap_of_lt hn] at h

theorem yields_u4 (n : Int) (item : String) (pos : Nat) :
    (Read.u4 item).Yields pos (Binary.u4 n) (.ok (Binary.wrap 32 n)) := by
  have h := yields_value (Binary.u4 n) item pos
  rwa [Binary.length_u4, Binary.value_u4] at h

theorem yields_s4 (n : Int) (item : String) (pos : Nat) :
    (Read.s4 item).Yields pos (Binary.u4 n) (.ok (Binary.signed 32 (Binary.wrap 32 n))) :=
  (yields_u4 n item pos).map (Binary.signed 32)

theorem yields_skip {n : Nat} {bytes : List UInt8} (hn : bytes.length = n) (item : String)
    (pos : Nat) : (Read.skip n item).Yields pos bytes (.ok ()) := by
  subst hn
  exact (yields_bytes bytes item pos).map fun _ => ()

/-- A list of pieces is read by reading each of them. -/
theorem yields_times {r : Read α} {pieces : List (List UInt8)}
    {results : List (Except Malformed α)}
    (h : List.Forall₂ (fun bytes result => ∀ pos, r.Yields pos bytes result) pieces results)
    (pos : Nat) :
    (Read.times pieces.length r).Yields pos pieces.flatten (results.mapM id) := by
  induction h generalizing pos with
  | nil =>
      rw [List.mapM_nil]
      exact yields_pure [] pos
  | @cons bytes result pieces results hr _ ih =>
      rw [List.length_cons, List.flatten_cons, List.mapM_cons, Read.times]
      refine (hr pos).bind fun a _ => ?_
      rw [← List.append_nil pieces.flatten]
      exact (ih _).bind fun as _ => yields_pure (a :: as) _

/-- A list of values is read back when each of them is. -/
theorem yields_times_ok {r : Read α} {pieces : List (List UInt8)} {values : List α}
    (h : List.Forall₂ (fun bytes a => ∀ pos, r.Yields pos bytes (.ok a)) pieces values)
    (pos : Nat) : (Read.times pieces.length r).Yields pos pieces.flatten (.ok values) := by
  have hresults : List.Forall₂ (fun bytes result => ∀ pos, r.Yields pos bytes result) pieces
      (values.map .ok) := List.forall₂_map_right_iff.mpr h
  have htimes := yields_times hresults pos
  rwa [mapM_id_eq_ok.mpr rfl] at htimes

theorem yields_times_flatMap {γ : Type} {r : Read α} {encode : γ → List UInt8} {decode : γ → α}
    (h : ∀ x pos, r.Yields pos (encode x) (.ok (decode x))) (xs : List γ) (pos : Nat) :
    (Read.times xs.length r).Yields pos (xs.flatMap encode) (.ok (xs.map decode)) := by
  induction xs generalizing pos with
  | nil => exact yields_pure [] pos
  | cons x xs ih =>
      rw [List.length_cons, List.flatMap_cons, Read.times]
      exact (h x pos).bind_ok ((ih _).bind_last (yields_pure _ _))

/-! ### Readers that reach the end -/

/-- Started at position `pos` before the last bytes `bytes`, the reader gives `result`. -/
def Finishes (r : Read α) (pos : Nat) (bytes : List UInt8) (result : Except Malformed α) : Prop :=
  (r ⟨bytes, pos⟩).map (·.1) = result

theorem Yields.bind_finishes {r : Read α} {f : α → Read β} {pos : Nat} {first second : List UInt8}
    {result : Except Malformed α} {next : α → Except Malformed β} (hr : r.Yields pos first result)
    (hf : ∀ a, (f a).Finishes (pos + first.length) second (next a)) :
    (r >>= f).Finishes pos (first ++ second) (result >>= next) := by
  show Except.map (·.1) (r ⟨first ++ second, pos⟩ >>= fun x => f x.1 x.2) = _
  rw [hr]
  cases result with
  | error e => rfl
  | ok a => exact hf a

theorem Yields.bind_ok_finishes {r : Read α} {f : α → Read β} {pos : Nat}
    {first second : List UInt8} {a : α} {next : Except Malformed β}
    (hr : r.Yields pos first (.ok a)) (hf : (f a).Finishes (pos + first.length) second next) :
    (r >>= f).Finishes pos (first ++ second) next := by
  show Except.map (·.1) (r ⟨first ++ second, pos⟩ >>= fun x => f x.1 x.2) = _
  rw [hr]
  exact hf

theorem Yields.bind_nil_finishes {r : Read α} {f : α → Read β} {pos : Nat} {bytes : List UInt8}
    {a : α} {next : Except Malformed β} (hr : r.Yields pos [] (.ok a))
    (hf : (f a).Finishes pos bytes next) : (r >>= f).Finishes pos bytes next :=
  hr.bind_ok_finishes hf

theorem Yields.bind_last_finishes {r : Read α} {f : α → Read β} {pos : Nat} {bytes : List UInt8}
    {a : α} {next : Except Malformed β} (hr : r.Yields pos bytes (.ok a))
    (hf : (f a).Finishes (pos + bytes.length) [] next) : (r >>= f).Finishes pos bytes next := by
  have h := hr.bind_ok_finishes hf
  rwa [List.append_nil] at h

/-! ### What a reader accepts -/

section Accepting

variable {P : α → Prop} {Q : β → Prop} {pos : Nat} {bytes first second : List UInt8}

/-- If the reader, started at position `pos` before `bytes` in a code array, gives a value, the
value satisfies `P` and the reader stops right behind `bytes`. -/
def Accepts (r : Read α) (pos : Nat) (bytes : List UInt8) (P : α → Prop) : Prop :=
  ∀ tail a c', (bytes ++ tail).length < 65536 → r ⟨bytes ++ tail, pos⟩ = .ok (a, c') →
    c' = ⟨tail, pos + bytes.length⟩ ∧ P a

theorem accepts_pure {a : α} (h : P a) : (pure a : Read α).Accepts pos [] P := by
  rintro tail _ _ - ⟨⟩
  exact ⟨rfl, h⟩

theorem Yields.accepts {r : Read α} {result : Except Malformed α} (hr : r.Yields pos bytes result)
    (h : ∀ a, result = .ok a → P a) : r.Accepts pos bytes P := by
  intro tail a c' _ hrun
  obtain ⟨hresult, hc⟩ := hr.of_run hrun
  exact ⟨hc, h a hresult⟩

/-- What a second reader accepts may depend on what the first one gave. -/
theorem Accepts.bind {r : Read α} {f : α → Read β} (hr : r.Accepts pos first P)
    (hf : ∀ a, P a → (f a).Accepts (pos + first.length) second Q) :
    (r >>= f).Accepts pos (first ++ second) Q := by
  intro tail b c' hlength hrun
  obtain ⟨a, c₁, ha, hb⟩ := run_bind_eq_ok.mp hrun
  rw [List.append_assoc] at ha hlength
  obtain ⟨rfl, hP⟩ := hr _ a c₁ hlength ha
  rw [List.length_append] at hlength
  obtain ⟨rfl, hQ⟩ := hf a hP tail b c' (by omega) hb
  exact ⟨by rw [List.length_append, Nat.add_assoc], hQ⟩

/-- A last piece, and something made of it. -/
theorem Accepts.bind_pure {r : Read α} {f : α → β} (hr : r.Accepts pos bytes P)
    (hf : ∀ a, P a → Q (f a)) : (r >>= fun a => pure (f a)).Accepts pos bytes Q := by
  have h := hr.bind fun a ha => accepts_pure (P := Q) (a := f a) (hf a ha)
  rwa [List.append_nil] at h

theorem Accepts.imp {r : Read α} {P' : α → Prop} (hr : r.Accepts pos bytes P)
    (himp : ∀ a, P a → P' a) : r.Accepts pos bytes P' := by
  intro tail a c' hlength hrun
  obtain ⟨hc, hP⟩ := hr tail a c' hlength hrun
  exact ⟨hc, himp a hP⟩

/-- What is looked up after a two-byte index. -/
theorem accepts_lookup {n : Nat} (hn : n < 65536) (item : String)
    (find : Nat → Except Malformed α) (h : ∀ a, find n = .ok a → P a) :
    (Read.u2 item >>= fun index => Decode.lookup (find index)).Accepts pos (Binary.u2 n) P :=
  ((yields_u2_of_lt hn item pos).bind_last (yields_lookup (find n) _)).accepts h

theorem accepts_skip {n : Nat} (hn : bytes.length = n) (item : String) :
    (Read.skip n item).Accepts pos bytes fun _ => True :=
  (yields_skip hn item pos).accepts fun _ _ => trivial

end Accepting

end Read

end ClassAudit
