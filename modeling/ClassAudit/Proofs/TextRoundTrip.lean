import ClassAudit.Text.ModifiedUtf8

/-!
# Modified UTF-8 is read back

A text goes through its UTF-16 units on the way to bytes and back. Each unit is read back from
its one, two or three bytes, and the units of a character join to that character again, whatever
follows them: a character of the basic plane is no surrogate, and the two units of any other
character form a surrogate pair. The byte strings that can be read at all are those that fall into
groups of bytes, one group for each unit; overlong groups and lone surrogates are among them.

## Main definitions

* `Group`, `WellFormed` - the bytes of a unit, and byte strings that fall into such groups.

## Main statements

* `decodeUnits_encodeChar_append` - the units of a character are read back from its bytes.
* `joinUnits_units_append` - the units of a character join to the character.
* `decode_encode_append` - every text is read back, whatever follows.
* `isSome_decode_iff` - exactly the well-formed byte strings can be read.
* `text_survives_encoding` - every text is read back from well-formed bytes.
-/

namespace ClassAudit.Text.ModifiedUtf8

/-! ### One byte after the other -/

/-- The UTF-16 units of a byte string, told by its first bytes and what follows them. -/
def decodeUnits : List UInt8 → Option (List Nat)
  | [] => some []
  | a :: rest =>
    if a = 0 then none
    else if a < 0x80 then (decodeUnits rest).map (a.toNat :: ·)
    else if 0xc0 ≤ a ∧ a < 0xe0 then
      match rest with
      | b :: rest =>
        if isTail b then
          (decodeUnits rest).map (((a.toNat % 32) * 64 + tailBits b) :: ·)
        else none
      | [] => none
    else if 0xe0 ≤ a ∧ a < 0xf0 then
      match rest with
      | b :: c :: rest =>
        if isTail b && isTail c then
          (decodeUnits rest).map
            (((a.toNat % 16) * 4096 + tailBits b * 64 + tailBits c) :: ·)
        else none
      | _ => none
    else none

/-- The entry at an index stands at the beginning of what is left there. -/
theorem get_toArray_of_drop {bytes : List UInt8} {i k : Nat} {b : UInt8}
    (h : (bytes.drop i)[k]? = some b) : Access.get bytes.toArray (i + k) = .ok b := by
  rw [List.getElem?_drop] at h
  exact Access.get_eq_ok_iff.mpr (List.getElem?_toArray.trans h)

/-- The units from an index on are those of what is left there. No access goes past the end, for
the bytes after the first are looked at only where there is room for them. -/
theorem unitsFrom_eq (bytes : List UInt8) (i : Nat) :
    unitsFrom bytes.toArray i = .ok (decodeUnits (bytes.drop i)) := by
  have hlength : (bytes.drop i).length = bytes.length - i := List.length_drop
  have htail (k : Nat) : bytes.drop (i + k) = (bytes.drop i).drop k := List.drop_drop.symm
  rw [unitsFrom, List.size_toArray]
  cases hrest : bytes.drop i with
  | nil =>
      rw [hrest, List.length_nil] at hlength
      rw [if_neg (by omega)]
      rfl
  | cons a rest =>
      have hget {k : Nat} {b : UInt8} (h : (a :: rest)[k]? = some b) :
          Access.get bytes.toArray (i + k) = .ok b :=
        get_toArray_of_drop (hrest ▸ h)
      rw [hrest, List.length_cons] at hlength
      rw [hrest] at htail
      have hlt : i < bytes.length := by omega
      have hfirst : Access.get bytes.toArray i = .ok a := hget (k := 0) rfl
      rw [if_pos hlt, hfirst, decodeUnits.eq_def, Access.ok_bind]
      by_cases hzero : a = 0
      · simp only [if_pos hzero]
        rfl
      by_cases hone : a < 0x80
      · simp only [if_neg hzero, if_pos hone]
        rw [unitsFrom_eq bytes (i + 1), htail]
        rfl
      by_cases htwo : 0xc0 ≤ a ∧ a < 0xe0
      · simp only [if_neg hzero, if_neg hone, if_pos htwo]
        cases rest with
        | nil =>
            rw [if_pos (by rw [List.length_nil] at hlength; omega)]
            rfl
        | cons b rest =>
            have hsecond : Access.get bytes.toArray (i + 1) = .ok b := hget rfl
            rw [if_neg (by rw [List.length_cons] at hlength; omega), hsecond, Access.ok_bind,
              unitsFrom_eq bytes (i + 2), htail]
            dsimp only
            cases isTail b <;> rfl
      by_cases hthree : 0xe0 ≤ a ∧ a < 0xf0
      · simp only [if_neg hzero, if_neg hone, if_neg htwo, if_pos hthree]
        match rest with
        | [] | [_] =>
            rw [if_pos (by simp only [List.length_cons, List.length_nil] at hlength; omega)]
            rfl
        | b :: c :: rest =>
            have hsecond : Access.get bytes.toArray (i + 1) = .ok b := hget rfl
            have hthird : Access.get bytes.toArray (i + 2) = .ok c := hget rfl
            rw [if_neg (by simp only [List.length_cons] at hlength; omega), hsecond,
              Access.ok_bind, hthird, Access.ok_bind, unitsFrom_eq bytes (i + 3), htail]
            dsimp only
            cases isTail b && isTail c <;> rfl
      · simp only [if_neg hzero, if_neg hone, if_neg htwo, if_neg hthree]
        rfl
termination_by bytes.length - i

theorem read_eq (bytes : List UInt8) : read bytes = .ok ((decodeUnits bytes).map joinUnits) := by
  rw [read, unitsFrom_eq]
  rfl

/-- Reading a text never fails by an access. -/
theorem read_eq_decode (bytes : List UInt8) : read bytes = .ok (decode bytes) := by
  rw [decode, read_eq]

theorem decode_eq (bytes : List UInt8) : decode bytes = (decodeUnits bytes).map joinUnits := by
  rw [decode, read_eq]

/-! ### Units and bytes -/

/-- The UTF-16 units of a character. -/
def units (c : Char) : List Nat :=
  if c.toNat < 0x10000 then [c.toNat]
  else [0xd800 + (c.toNat - 0x10000) / 1024, 0xdc00 + (c.toNat - 0x10000) % 1024]

theorem toNat_ofNat_of_lt {n : Nat} (h : n < 256) : (UInt8.ofNat n).toNat = n := by
  rw [UInt8.toNat_ofNat', Nat.mod_eq_of_lt h]

theorem ofNat_ne_zero {n : Nat} (hpos : 0 < n) (h : n < 256) : UInt8.ofNat n ≠ 0 := by
  intro hz
  have hn := toNat_ofNat_of_lt h
  rw [hz, UInt8.toNat_zero] at hn
  omega

theorem isTail_ofNat {n : Nat} (h : n < 64) : isTail (UInt8.ofNat (0x80 + n)) = true := by
  have hn := toNat_ofNat_of_lt (n := 0x80 + n) (by omega)
  simp only [isTail, UInt8.le_iff_toNat_le, hn, Bool.and_eq_true, decide_eq_true_eq]
  exact ⟨Nat.le_add_right _ _, show 0x80 + n ≤ 0xbf by omega⟩

theorem tailBits_ofNat {n : Nat} (h : n < 64) : tailBits (UInt8.ofNat (0x80 + n)) = n := by
  rw [tailBits, toNat_ofNat_of_lt (by omega)]
  omega

/-- A unit of one byte. -/
theorem decodeUnits_one {n : Nat} (hpos : 0 < n) (h : n < 0x80) (rest : List UInt8) :
    decodeUnits (UInt8.ofNat n :: rest) = (decodeUnits rest).map (n :: ·) := by
  have hn := toNat_ofNat_of_lt (n := n) (by omega)
  have hzero := ofNat_ne_zero (n := n) hpos (by omega)
  have hlow : UInt8.ofNat n < 0x80 := by
    rw [UInt8.lt_iff_toNat_lt, hn]
    exact h
  rw [decodeUnits.eq_def]
  simp only [if_neg hzero, if_pos hlow, hn]

/-- A unit of two bytes. -/
theorem decodeUnits_two {n : Nat} (h : n < 0x800) (rest : List UInt8) :
    decodeUnits (UInt8.ofNat (0xc0 + n / 64) :: UInt8.ofNat (0x80 + n % 64) :: rest) =
      (decodeUnits rest).map (n :: ·) := by
  have hn := toNat_ofNat_of_lt (n := 0xc0 + n / 64) (by omega)
  have hzero := ofNat_ne_zero (n := 0xc0 + n / 64) (by omega) (by omega)
  have hlow : ¬ UInt8.ofNat (0xc0 + n / 64) < 0x80 := by
    rw [UInt8.lt_iff_toNat_lt, hn]
    exact Nat.not_lt.mpr (show 0x80 ≤ 0xc0 + n / 64 by omega)
  have hlead : 0xc0 ≤ UInt8.ofNat (0xc0 + n / 64) ∧ UInt8.ofNat (0xc0 + n / 64) < 0xe0 := by
    rw [UInt8.le_iff_toNat_le, UInt8.lt_iff_toNat_lt, hn]
    exact ⟨Nat.le_add_right _ _, show 0xc0 + n / 64 < 0xe0 by omega⟩
  have hmod : n % 64 < 64 := Nat.mod_lt _ (by decide)
  have hvalue : (0xc0 + n / 64) % 32 * 64 + n % 64 = n := by omega
  rw [decodeUnits.eq_def]
  simp only [if_neg hzero, if_neg hlow, if_pos hlead, isTail_ofNat hmod, tailBits_ofNat hmod, hn,
    hvalue, if_true]

/-- A unit of three bytes. -/
theorem decodeUnits_three {n : Nat} (h : n < 0x10000) (rest : List UInt8) :
    decodeUnits (encodeUnit3 n ++ rest) = (decodeUnits rest).map (n :: ·) := by
  have hn := toNat_ofNat_of_lt (n := 0xe0 + n / 4096) (by omega)
  have hzero := ofNat_ne_zero (n := 0xe0 + n / 4096) (by omega) (by omega)
  have hlow : ¬ UInt8.ofNat (0xe0 + n / 4096) < 0x80 := by
    rw [UInt8.lt_iff_toNat_lt, hn]
    exact Nat.not_lt.mpr (show 0x80 ≤ 0xe0 + n / 4096 by omega)
  have htwo : ¬ (0xc0 ≤ UInt8.ofNat (0xe0 + n / 4096) ∧
      UInt8.ofNat (0xe0 + n / 4096) < 0xe0) := by
    rw [UInt8.le_iff_toNat_le, UInt8.lt_iff_toNat_lt, hn]
    exact fun hc => absurd hc.2 (Nat.not_lt.mpr (Nat.le_add_right _ _))
  have hlead : 0xe0 ≤ UInt8.ofNat (0xe0 + n / 4096) ∧
      UInt8.ofNat (0xe0 + n / 4096) < 0xf0 := by
    rw [UInt8.le_iff_toNat_le, UInt8.lt_iff_toNat_lt, hn]
    exact ⟨Nat.le_add_right _ _, show 0xe0 + n / 4096 < 0xf0 by omega⟩
  have hmiddle : n / 64 % 64 < 64 := Nat.mod_lt _ (by decide)
  have hlast : n % 64 < 64 := Nat.mod_lt _ (by decide)
  have hvalue : (0xe0 + n / 4096) % 16 * 4096 + n / 64 % 64 * 64 + n % 64 = n := by omega
  rw [encodeUnit3, List.cons_append, decodeUnits.eq_def]
  simp only [List.cons_append, List.nil_append, if_neg hzero, if_neg hlow, if_neg htwo,
    if_pos hlead, isTail_ofNat hmiddle, tailBits_ofNat hmiddle, isTail_ofNat hlast,
    tailBits_ofNat hlast, hn, hvalue, Bool.and_self, if_true]

/-- The units of a character are read back from its bytes. -/
theorem decodeUnits_encodeChar_append (c : Char) (rest : List UInt8) :
    decodeUnits (encodeChar c ++ rest) = (decodeUnits rest).map (units c ++ ·) := by
  have hvalid : c.toNat < 0xd800 ∨ (0xdfff < c.toNat ∧ c.toNat < 0x110000) := c.valid
  unfold encodeChar units
  simp only
  by_cases h₁ : c.toNat ≠ 0 ∧ c.toNat < 0x80
  · rw [if_pos h₁, if_pos (by omega)]
    exact decodeUnits_one (by omega) h₁.2 rest
  rw [if_neg h₁]
  by_cases h₂ : c.toNat < 0x800
  · rw [if_pos h₂, if_pos (by omega)]
    exact decodeUnits_two h₂ rest
  rw [if_neg h₂]
  by_cases h₃ : c.toNat < 0x10000
  · rw [if_pos h₃, if_pos h₃]
    exact decodeUnits_three h₃ rest
  rw [if_neg h₃, if_neg h₃, List.append_assoc, decodeUnits_three (by omega),
    decodeUnits_three (by omega), Option.map_map]
  rfl

/-! ### Units and characters -/

/-- The units of a character join to the character, whatever follows. -/
theorem joinUnits_units_append (c : Char) (rest : List Nat) :
    joinUnits (units c ++ rest) = c :: joinUnits rest := by
  have hvalid : c.toNat < 0xd800 ∨ (0xdfff < c.toNat ∧ c.toNat < 0x110000) := c.valid
  unfold units
  by_cases h : c.toNat < 0x10000
  · have hhigh : isHighSurrogate c.toNat = false := by
      simp only [isHighSurrogate, Bool.and_eq_false_iff, decide_eq_false_iff_not]
      omega
    have hlow : isLowSurrogate c.toNat = false := by
      simp only [isLowSurrogate, Bool.and_eq_false_iff, decide_eq_false_iff_not]
      omega
    rw [if_pos h]
    cases rest with
    | nil => simp [joinUnits, hhigh, hlow]
    | cons v rest => simp [joinUnits, hhigh, hlow]
  · have hhigh : isHighSurrogate (0xd800 + (c.toNat - 0x10000) / 1024) = true := by
      simp only [isHighSurrogate, Bool.and_eq_true, decide_eq_true_eq]
      omega
    have hlow : isLowSurrogate (0xdc00 + (c.toNat - 0x10000) % 1024) = true := by
      simp only [isLowSurrogate, Bool.and_eq_true, decide_eq_true_eq]
      omega
    have hvalue : 0x10000 + (0xd800 + (c.toNat - 0x10000) / 1024 - 0xd800) * 1024 +
        (0xdc00 + (c.toNat - 0x10000) % 1024 - 0xdc00) = c.toNat := by omega
    rw [if_neg h, List.cons_append, List.cons_append, List.nil_append, joinUnits, hhigh, hlow,
      hvalue, Char.ofNat_toNat]
    rfl

/-- The units of a text are read back from its bytes, whatever follows. -/
theorem decodeUnits_encode_append (s : List Char) (rest : List UInt8) :
    decodeUnits (encode s ++ rest) = (decodeUnits rest).map (s.flatMap units ++ ·) := by
  induction s with
  | nil => simp [encode]
  | cons c s ih =>
      rw [encode, List.flatMap_cons, List.append_assoc, decodeUnits_encodeChar_append, ← encode, ih,
        Option.map_map, List.flatMap_cons]
      simp only [Function.comp_def, List.append_assoc]

theorem joinUnits_flatMap_units_append (s : List Char) (rest : List Nat) :
    joinUnits (s.flatMap units ++ rest) = s ++ joinUnits rest := by
  induction s with
  | nil => rfl
  | cons c s ih =>
      rw [List.flatMap_cons, List.append_assoc, joinUnits_units_append, ih, List.cons_append]

/-- A text is read back from its bytes, and what follows them is read as without them. -/
theorem decode_encode_append (s : List Char) (rest : List UInt8) :
    decode (encode s ++ rest) = (decode rest).map (s ++ ·) := by
  rw [decode_eq, decode_eq, decodeUnits_encode_append, Option.map_map, Option.map_map]
  simp only [Function.comp_def, joinUnits_flatMap_units_append]

/-- Every text is read back from its bytes. -/
theorem decode_encode (s : List Char) : decode (encode s) = some s := by
  have h := decode_encode_append s []
  rw [List.append_nil] at h
  rw [h]
  simp [decode_eq, decodeUnits, joinUnits]

/-! ### Groups of bytes -/

/-- The bytes of one UTF-16 unit: one byte from 01 to 7F, or a leading byte with as many
continuation bytes as it announces. -/
inductive Group : List UInt8 → Prop
  | one {a : UInt8} (ha : 0 < a ∧ a < 0x80) : Group [a]
  | two {a b : UInt8} (ha : 0xc0 ≤ a ∧ a < 0xe0) (hb : 0x80 ≤ b ∧ b < 0xc0) : Group [a, b]
  | three {a b c : UInt8} (ha : 0xe0 ≤ a ∧ a < 0xf0) (hb : 0x80 ≤ b ∧ b < 0xc0)
      (hc : 0x80 ≤ c ∧ c < 0xc0) : Group [a, b, c]

/-- A byte string that falls into complete groups. -/
inductive WellFormed : List UInt8 → Prop
  | nil : WellFormed []
  | cons {group rest : List UInt8} (hgroup : Group group) (hrest : WellFormed rest) :
      WellFormed (group ++ rest)

/-- No group holds a zero byte. -/
theorem WellFormed.zero_not_mem {bytes : List UInt8} (h : WellFormed bytes) : 0 ∉ bytes := by
  have hpos {a b : UInt8} (hb : b ≤ a) (hzero : 0 < b) : 0 ≠ a :=
    UInt8.ne_of_lt (UInt8.lt_of_lt_of_le hzero hb)
  induction h with
  | nil => exact List.not_mem_nil
  | cons hgroup _ ih =>
      refine fun hmem => (List.mem_append.mp hmem).elim ?_ ih
      cases hgroup with
      | one ha => simpa using UInt8.ne_of_lt ha.1
      | two ha hb => simpa using ⟨hpos ha.1 (by decide), hpos hb.1 (by decide)⟩
      | three ha hb hc =>
          simpa using ⟨hpos ha.1 (by decide), hpos hb.1 (by decide), hpos hc.1 (by decide)⟩

theorem isTail_iff {b : UInt8} : isTail b = true ↔ 0x80 ≤ b ∧ b < 0xc0 := by
  simp only [isTail, Bool.and_eq_true, decide_eq_true_eq, UInt8.le_iff_toNat_le,
    UInt8.lt_iff_toNat_lt]
  exact and_congr_right fun _ => Nat.lt_succ_iff.symm

/-- A group is read to one unit, and what follows it is read as without it. -/
theorem Group.isSome_decodeUnits_append {group : List UInt8} (h : Group group) (rest : List UInt8) :
    (decodeUnits (group ++ rest)).isSome = (decodeUnits rest).isSome := by
  have hhigh {a : UInt8} (ha : 0xc0 ≤ a) : a ≠ 0 ∧ ¬ a < 0x80 := by
    refine ⟨?_, UInt8.not_lt.mpr (UInt8.le_trans (by decide) ha)⟩
    rintro rfl
    exact absurd ha (by decide)
  cases h with
  | one ha =>
      have hzero := (UInt8.ne_of_lt ha.1).symm
      rw [List.singleton_append, decodeUnits.eq_def]
      simp only [if_neg hzero, if_pos ha.2, Option.isSome_map]
  | two ha hb =>
      obtain ⟨hzero, hlow⟩ := hhigh ha.1
      rw [List.cons_append, decodeUnits.eq_def]
      simp only [List.singleton_append, if_neg hzero, if_neg hlow, if_pos ha, isTail_iff.mpr hb,
        if_true, Option.isSome_map]
  | @three a b c ha hb hc =>
      obtain ⟨hzero, hlow⟩ := hhigh (UInt8.le_trans (by decide) ha.1)
      have htwo : ¬ (0xc0 ≤ a ∧ a < 0xe0) := fun h => UInt8.not_lt.mpr ha.1 h.2
      rw [List.cons_append, decodeUnits.eq_def]
      simp only [List.cons_append, List.nil_append, if_neg hzero, if_neg hlow, if_neg htwo,
        if_pos ha, isTail_iff.mpr hb, isTail_iff.mpr hc, Bool.and_self, if_true, Option.isSome_map]

theorem WellFormed.isSome_decodeUnits {bytes : List UInt8} (h : WellFormed bytes) :
    (decodeUnits bytes).isSome := by
  induction h with
  | nil => rfl
  | cons hgroup _ ih => rwa [hgroup.isSome_decodeUnits_append]

theorem wellFormed_of_isSome_decodeUnits {bytes : List UInt8} (h : (decodeUnits bytes).isSome) :
    WellFormed bytes := by
  fun_induction decodeUnits bytes with
  | case1 => exact .nil
  | case3 a rest hzero hlow ih =>
      rw [Option.isSome_map] at h
      exact .cons (.one ⟨UInt8.pos_iff_ne_zero.mpr hzero, hlow⟩) (ih h)
  | case4 a _ _ ha b rest hb ih =>
      rw [Option.isSome_map] at h
      exact .cons (.two ha (isTail_iff.mp hb)) (ih h)
  | case7 a _ _ _ ha b c rest htails ih =>
      rw [Option.isSome_map] at h
      obtain ⟨hb, hc⟩ := Bool.and_eq_true_iff.mp htails
      exact .cons (.three ha (isTail_iff.mp hb) (isTail_iff.mp hc)) (ih h)
  | case2 | case5 | case6 | case8 | case9 | case10 => exact nomatch h

/-- Exactly the byte strings that fall into complete groups can be read. -/
theorem isSome_decode_iff {bytes : List UInt8} : (decode bytes).isSome ↔ WellFormed bytes := by
  rw [decode_eq, Option.isSome_map]
  exact ⟨wellFormed_of_isSome_decodeUnits, WellFormed.isSome_decodeUnits⟩

/-- **Every text survives its encoding.** Its bytes fall into complete groups, among which there is
no zero byte, they are read back as the text, and bytes that follow them are read as without them,
so no group of one text is joined with a group of the next. -/
theorem text_survives_encoding (s : String) :
    (decode (encode s.toList)).map String.ofList = some s ∧
      WellFormed (encode s.toList) ∧ 0 ∉ encode s.toList ∧
      ∀ rest, decode (encode s.toList ++ rest) = (decode rest).map (s.toList ++ ·) := by
  have hdecode := decode_encode s.toList
  have hwell : WellFormed (encode s.toList) := isSome_decode_iff.mp (by rw [hdecode]; rfl)
  refine ⟨?_, hwell, hwell.zero_not_mem, decode_encode_append s.toList⟩
  rw [hdecode, Option.map_some, String.ofList_toList]

end ClassAudit.Text.ModifiedUtf8
