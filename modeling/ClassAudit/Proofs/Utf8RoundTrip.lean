import ClassAudit.Text.Basic
import ClassAudit.Text.Utf8

/-!
# UTF-8 is read back

The bytes of a text are read to the text again, and the length of a text in bytes is the number of
its bytes. A character up to U+007F is one byte, and all bytes of other characters are from 80 on,
so what is searched for by the byte of such a character is found where the character is.

## Main statements

* `leadingChar?_append` - a character is read off the beginning of its bytes, whatever follows.
* `decodeForgiving_utf8` - a text is read back from its bytes.
* `utf8EncodeChar_ascii`, `le_of_mem_utf8EncodeChar` - the bytes of a character up to U+007F, and of
  any other.
* `byteLength_eq` - the length of a text in bytes.
-/

namespace ClassAudit.Text

open String (utf8EncodeChar)

/-! ### Leading characters -/

theorem toNat_byte {n : Nat} (h : n < 256) : (UInt8.ofNat n).toNat = n := by
  rw [UInt8.toNat_ofNat', Nat.mod_eq_of_lt h]

theorem leadingChar?_one {n : Nat} (h : n ≤ 0x7f) (rest : List UInt8) :
    leadingChar? (UInt8.ofNat n :: rest) = some (Char.ofNat n, 1) := by
  have ha := toNat_byte (n := n) (by omega)
  simp only [leadingChar?, UInt8.lt_iff_toNat_lt, UInt8.reduceToNat, ha]
  rw [if_pos (Nat.lt_succ_of_le h)]

theorem leadingChar?_two {n : Nat} (hlow : 0x7f < n) (h : n ≤ 0x7ff) (rest : List UInt8) :
    leadingChar? (UInt8.ofNat (n / 64 % 0x20 + 0xc0) :: UInt8.ofNat (n % 0x40 + 0x80) :: rest) =
      some (Char.ofNat n, 2) := by
  have ha := toNat_byte (n := n / 64 % 0x20 + 0xc0) (by omega)
  have hb := toNat_byte (n := n % 0x40 + 0x80) (by omega)
  have hvalue : (n / 64 % 0x20 + 0xc0) % 32 * 64 + (n % 0x40 + 0x80) % 64 = n := by omega
  simp only [leadingChar?, isTail, tailBits, UInt8.lt_iff_toNat_lt, UInt8.le_iff_toNat_le, ha, hb,
    Bool.and_eq_true, decide_eq_true_eq, UInt8.reduceToNat, hvalue]
  rw [if_neg (by omega), if_pos (by omega), if_pos (by omega)]

/-- Three bytes are no overlong form above U+07FF, and no surrogate by `hn`. -/
theorem leadingChar?_three {n : Nat} (hlow : 0x7ff < n) (h : n ≤ 0xffff)
    (hn : n < 0xd800 ∨ 0xdfff < n) (rest : List UInt8) :
    leadingChar? (UInt8.ofNat (n / 4096 % 0x10 + 0xe0) :: UInt8.ofNat (n / 64 % 0x40 + 0x80) ::
      UInt8.ofNat (n % 0x40 + 0x80) :: rest) = some (Char.ofNat n, 3) := by
  have ha := toNat_byte (n := n / 4096 % 0x10 + 0xe0) (by omega)
  have hb := toNat_byte (n := n / 64 % 0x40 + 0x80) (by omega)
  have hc := toNat_byte (n := n % 0x40 + 0x80) (by omega)
  have hvalue : (n / 4096 % 0x10 + 0xe0) % 16 * 4096 + (n / 64 % 0x40 + 0x80) % 64 * 64 +
      (n % 0x40 + 0x80) % 64 = n := by omega
  simp only [leadingChar?, isTail, tailBits, UInt8.lt_iff_toNat_lt, UInt8.le_iff_toNat_le, ha, hb,
    hc, Bool.and_eq_true, decide_eq_true_eq, UInt8.reduceToNat, hvalue, ← UInt8.toNat_inj,
    apply_ite UInt8.toNat]
  rw [if_neg (by omega), if_neg (by omega), if_pos (by omega),
    if_pos (by split <;> split <;> omega)]

theorem leadingChar?_four {n : Nat} (hlow : 0xffff < n) (h : n < 0x110000) (rest : List UInt8) :
    leadingChar? (UInt8.ofNat (n / 262144 % 0x08 + 0xf0) :: UInt8.ofNat (n / 4096 % 0x40 + 0x80) ::
      UInt8.ofNat (n / 64 % 0x40 + 0x80) :: UInt8.ofNat (n % 0x40 + 0x80) :: rest) =
        some (Char.ofNat n, 4) := by
  have ha := toNat_byte (n := n / 262144 % 0x08 + 0xf0) (by omega)
  have hb := toNat_byte (n := n / 4096 % 0x40 + 0x80) (by omega)
  have hc := toNat_byte (n := n / 64 % 0x40 + 0x80) (by omega)
  have hd := toNat_byte (n := n % 0x40 + 0x80) (by omega)
  have hvalue : (n / 262144 % 0x08 + 0xf0) % 8 * 262144 + (n / 4096 % 0x40 + 0x80) % 64 * 4096 +
      (n / 64 % 0x40 + 0x80) % 64 * 64 + (n % 0x40 + 0x80) % 64 = n := by omega
  simp only [leadingChar?, isTail, tailBits, UInt8.lt_iff_toNat_lt, UInt8.le_iff_toNat_le, ha, hb,
    hc, hd, Bool.and_eq_true, decide_eq_true_eq, UInt8.reduceToNat, hvalue, ← UInt8.toNat_inj,
    apply_ite UInt8.toNat]
  rw [if_neg (by omega), if_neg (by omega), if_neg (by omega), if_pos (by omega),
    if_pos (by split <;> split <;> omega)]

/-- A character is read off the beginning of its bytes, whatever follows. -/
theorem leadingChar?_append (c : Char) (rest : List UInt8) :
    leadingChar? (utf8EncodeChar c ++ rest) = some (c, (utf8EncodeChar c).length) := by
  have hvalid : c.val.toNat < 0xd800 ∨ (0xdfff < c.val.toNat ∧ c.val.toNat < 0x110000) := c.valid
  have hchar : Char.ofNat c.val.toNat = c := Char.ofNat_toNat c
  rw [utf8EncodeChar]
  split
  case isTrue hone =>
    have h := leadingChar?_one hone rest
    rw [hchar] at h
    exact h
  case isFalse hone =>
  split
  case isTrue htwo =>
    have h := leadingChar?_two (Nat.not_le.mp hone) htwo rest
    rw [hchar] at h
    exact h
  case isFalse htwo =>
  split
  case isTrue hthree =>
    have h := leadingChar?_three (Nat.not_le.mp htwo) hthree (by omega) rest
    rw [hchar] at h
    exact h
  case isFalse hthree =>
    have h := leadingChar?_four (Nat.not_le.mp hthree) (by omega) rest
    rw [hchar] at h
    exact h

/-! ### Texts -/

theorem symbolsUpTo_utf8 {s : List Char} {fuel : Nat}
    (h : (s.flatMap utf8EncodeChar).length ≤ fuel) :
    symbolsUpTo fuel (s.flatMap utf8EncodeChar) = s.map .char := by
  induction s generalizing fuel with
  | nil => cases fuel <;> rfl
  | cons c s ih =>
      have hpos : 0 < (utf8EncodeChar c).length :=
        List.length_pos_iff.mpr String.utf8EncodeChar_ne_nil
      rw [List.flatMap_cons, List.length_append] at h
      obtain ⟨fuel, rfl⟩ : ∃ n, fuel = n + 1 := ⟨fuel - 1, by omega⟩
      obtain ⟨b, bytes, hbytes⟩ := List.exists_cons_of_ne_nil (String.utf8EncodeChar_ne_nil (c := c))
      have hlead := leadingChar?_append c (s.flatMap utf8EncodeChar)
      rw [List.flatMap_cons]
      rw [hbytes, List.cons_append] at hlead ⊢
      rw [symbolsUpTo, hlead, ← List.cons_append, ← hbytes]
      dsimp only
      rw [List.drop_left, ih (by omega), List.map_cons]

/-- The bytes of a text have no stray ones among them. -/
theorem symbols_utf8 (s : List Char) : symbols (s.flatMap utf8EncodeChar) = s.map .char :=
  symbolsUpTo_utf8 (Nat.le_refl _)

/-- A text is read back from its bytes. -/
theorem decodeForgiving_utf8 (s : List Char) :
    decodeForgiving (s.flatMap utf8EncodeChar) = s := by
  rw [decodeForgiving, symbols_utf8, List.map_map]
  exact List.map_id s

/-! ### Symbols up to U+007F -/

theorem eq_toNat_of_ofNat_eq {n : Nat} {c : Char} (h : Char.ofNat n = c) (hpos : c.toNat ≠ 0) :
    n = c.toNat := by
  subst h
  by_cases hvalid : n.isValidChar
  · rw [Char.ofNat, dif_pos hvalid]
    rfl
  · rw [Char.ofNat, dif_neg hvalid] at hpos
    exact absurd rfl hpos

/-- The second byte goes up to BF, and it is bounded from below behind the lowest first byte. -/
theorem second_byte_range {a b lead low last high : UInt8} (ha : lead ≤ a)
    (hlow : (if a = lead then low else 0x80) ≤ b) (hhigh : b ≤ if a = last then high else 0xbf)
    (hlast : high ≤ 0xbf) : (lead.toNat < a.toNat ∨ low.toNat ≤ b.toNat) ∧ b.toNat ≤ 0xbf := by
  constructor
  · by_cases heq : a = lead
    · rw [if_pos heq] at hlow
      exact .inr (UInt8.le_iff_toNat_le.mp hlow)
    · have hne : lead.toNat ≠ a.toNat := fun h => heq (UInt8.toNat_inj.mp h).symm
      exact .inl (Nat.lt_of_le_of_ne (UInt8.le_iff_toNat_le.mp ha) hne)
  · split at hhigh
    · exact UInt8.le_iff_toNat_le.mp (UInt8.le_trans hhigh hlast)
    · exact UInt8.le_iff_toNat_le.mp hhigh

/-- A character up to U+007F, other than the first one, is read off its own byte. -/
theorem head?_of_leadingChar?_eq {bytes : List UInt8} {c : Char} {width : Nat}
    (h : leadingChar? bytes = some (c, width)) (hpos : c.toNat ≠ 0) (hc : c.toNat < 0x80) :
    bytes.head? = some (UInt8.ofNat c.toNat) := by
  cases bytes with
  | nil => exact nomatch h
  | cons a rest =>
      rw [leadingChar?.eq_def] at h
      dsimp only at h
      split at h
      · obtain ⟨heq, -⟩ := Prod.mk.inj (Option.some.inj h)
        rw [List.head?_cons, ← eq_toNat_of_ofNat_eq heq hpos, UInt8.ofNat_toNat]
      · -- More bytes make a greater number.
        exfalso
        simp only [Bool.and_eq_true, decide_eq_true_eq] at h
        split at h
        case isTrue hrange =>
          split at h
          · obtain ⟨-, h⟩ := Option.ite_none_right_eq_some.mp h
            have hvalue := eq_toNat_of_ofNat_eq (Prod.mk.inj (Option.some.inj h)).1 hpos
            simp only [UInt8.le_iff_toNat_le, UInt8.reduceToNat] at hrange
            omega
          · exact nomatch h
        split at h
        case isTrue hrange =>
          split at h
          · obtain ⟨⟨⟨hlow, hhigh⟩, -⟩, h⟩ := Option.ite_none_right_eq_some.mp h
            have hvalue := eq_toNat_of_ofNat_eq (Prod.mk.inj (Option.some.inj h)).1 hpos
            have hsecond := second_byte_range hrange.1 hlow hhigh (by decide)
            rw [tailBits, tailBits] at hvalue
            simp only [UInt8.le_iff_toNat_le, UInt8.reduceToNat] at hrange hsecond
            omega
          · exact nomatch h
        split at h
        case isTrue hrange =>
          split at h
          · obtain ⟨⟨⟨⟨hlow, hhigh⟩, -⟩, -⟩, h⟩ := Option.ite_none_right_eq_some.mp h
            have hvalue := eq_toNat_of_ofNat_eq (Prod.mk.inj (Option.some.inj h)).1 hpos
            have hsecond := second_byte_range hrange.1 hlow hhigh (by decide)
            rw [tailBits, tailBits, tailBits] at hvalue
            simp only [UInt8.le_iff_toNat_le, UInt8.reduceToNat] at hrange hsecond
            omega
          · exact nomatch h
        exact nomatch h

theorem byte_mem_of_char_mem_symbols {bytes : List UInt8} {c : Char}
    (h : .char c ∈ symbols bytes) (hpos : c.toNat ≠ 0) (hc : c.toNat < 0x80) :
    UInt8.ofNat c.toNat ∈ bytes := by
  rw [symbols] at h
  generalize bytes.length = fuel at h
  induction fuel generalizing bytes with
  | zero => exact nomatch h
  | succ fuel ih =>
      cases bytes with
      | nil => exact nomatch h
      | cons b rest =>
          rw [symbolsUpTo] at h
          split at h
          · rename_i d width hlead
            obtain heq | hmem := List.mem_cons.mp h
            · cases heq
              exact List.mem_of_head? (head?_of_leadingChar?_eq hlead hpos hc)
            · exact List.mem_of_mem_drop (ih hmem)
          · obtain heq | hmem := List.mem_cons.mp h
            · cases heq
            · exact List.mem_cons_of_mem _ (ih hmem)

/-- A character up to U+007F, other than the first one, is kept for its own byte only. -/
theorem byte_mem_of_mem_decodeKeeping {bytes : List UInt8} {c : Char}
    (h : c ∈ decodeKeeping bytes) (hpos : c.toNat ≠ 0) (hc : c.toNat < 0x80) :
    UInt8.ofNat c.toNat ∈ bytes := by
  obtain ⟨x, hx, hkept⟩ := List.mem_map.mp h
  cases x with
  | char d =>
      obtain rfl : d = c := hkept
      exact byte_mem_of_char_mem_symbols hx hpos hc
  | stray b =>
      have hvalue := eq_toNat_of_ofNat_eq hkept hpos
      omega

/-! ### Lengths -/

theorem byteLength_eq (s : List Char) : byteLength s = (s.flatMap utf8EncodeChar).length := by
  have hfold (n : Nat) : s.foldl (fun n c => n + c.utf8Size) n =
      n + (s.flatMap utf8EncodeChar).length := by
    induction s generalizing n with
    | nil => rfl
    | cons c s ih =>
        rw [List.foldl_cons, ih, List.flatMap_cons, List.length_append,
          String.length_utf8EncodeChar, Nat.add_assoc]
  rw [byteLength, hfold, Nat.zero_add]

/-! ### Bytes of characters -/

/-- A character up to U+007F is one byte. -/
theorem utf8EncodeChar_ascii {c : Char} (h : c.toNat ≤ 0x7f) :
    utf8EncodeChar c = [UInt8.ofNat c.toNat] := by
  rw [utf8EncodeChar]
  exact if_pos h

/-- The bytes of a character from U+0080 on are from 80 on. -/
theorem le_of_mem_utf8EncodeChar {c : Char} (h : 0x7f < c.toNat) {b : UInt8}
    (hb : b ∈ utf8EncodeChar c) : 0x80 ≤ b := by
  have hvalue : 0x7f < c.val.toNat := h
  have hbyte {n low : Nat} (hlow : 0x80 ≤ low) (hlt : n + low < 256) :
      0x80 ≤ UInt8.ofNat (n + low) := by
    rw [UInt8.le_iff_toNat_le, toNat_byte hlt]
    exact Nat.le_add_left_of_le hlow
  rw [utf8EncodeChar, if_neg (by omega)] at hb
  split at hb
  · simp only [List.mem_cons, List.not_mem_nil, or_false] at hb
    obtain rfl | rfl := hb <;> exact hbyte (by decide) (by omega)
  split at hb
  · simp only [List.mem_cons, List.not_mem_nil, or_false] at hb
    obtain rfl | rfl | rfl := hb <;> exact hbyte (by decide) (by omega)
  · simp only [List.mem_cons, List.not_mem_nil, or_false] at hb
    obtain rfl | rfl | rfl | rfl := hb <;> exact hbyte (by decide) (by omega)

end ClassAudit.Text
