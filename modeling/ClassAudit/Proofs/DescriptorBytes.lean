import ClassAudit.Proofs.DescriptorGrammar
import ClassAudit.Proofs.Utf8RoundTrip

/-!
# Descriptors as bytes

Descriptors are taken apart by indexes into their bytes, and this agrees with taking them apart by
their characters: whatever is compared, searched for or cut at is a character up to U+007F, so every
index lies between characters, and the bytes from there on are those of the characters that are
left. On the way every access turns out to lie inside its table. So exactly the descriptors of the
grammar can be read, a method descriptor as exactly the parts that it is written from.

## Main statements

* `slice_byteTable`, `exists_get_byteTable` - the bytes between and before characters.
* `fieldLength_eq` - the bytes of a field descriptor are those of its characters.
* `checkFieldDescriptor_eq`, `MethodDescriptor.parse_eq` - both ways lead to the same result, and no
  access fails.
* `MethodDescriptor.parse_iff_text` - reading inverts writing and accepts nothing else.
-/

namespace ClassAudit

open String (utf8EncodeChar)
open Text (byteLength)

/-! ### Bytes between characters -/

theorem byteLength_append (s t : List Char) : byteLength (s ++ t) = byteLength s + byteLength t := by
  rw [Text.byteLength_eq, Text.byteLength_eq, Text.byteLength_eq, List.flatMap_append,
    List.length_append]

theorem byteLength_cons (c : Char) (s : List Char) :
    byteLength (c :: s) = byteLength s + (utf8EncodeChar c).length := by
  rw [Text.byteLength_eq, Text.byteLength_eq, List.flatMap_cons, List.length_append, Nat.add_comm]

theorem byteLength_ascii {c : Char} (h : c.toNat ≤ 0x7f) : byteLength [c] = 1 := by
  rw [Text.byteLength_eq, List.flatMap_singleton, Text.utf8EncodeChar_ascii h]
  rfl

theorem size_byteTable (s : List Char) : (byteTable s).size = byteLength s := by
  rw [byteTable, List.size_toArray, Text.byteLength_eq]

theorem lt_size_byteTable (a : List Char) (c : Char) (rest : List Char) :
    byteLength a < (byteTable (a ++ c :: rest)).size := by
  have hpos : 0 < byteLength [c] := by
    rw [Text.byteLength_eq, List.flatMap_singleton]
    exact List.length_pos_iff.mpr String.utf8EncodeChar_ne_nil
  rw [size_byteTable, List.append_cons, byteLength_append, byteLength_append]
  omega

theorem ofByteTable_byteTable (s : List Char) : ofByteTable (byteTable s) = String.ofList s := by
  rw [ofByteTable, byteTable, Text.decodeForgiving_utf8]

/-- The part between two characters has the bytes of what lies between them. -/
theorem slice_byteTable (a b c : List Char) :
    Access.slice (byteTable (a ++ b ++ c)) (byteLength a) (byteLength a + byteLength b) =
      .ok (byteTable b) := by
  have hsize : byteLength a + byteLength b ≤ (byteTable (a ++ b ++ c)).size := by
    rw [size_byteTable, byteLength_append, byteLength_append]
    exact Nat.le_add_right _ _
  rw [Access.slice_of_le hsize (Nat.le_add_right _ _), byteTable, byteTable, List.extract_toArray]
  rw [Text.byteLength_eq, Text.byteLength_eq, List.flatMap_append, List.flatMap_append]
  simp [List.extract]

theorem slice_byteTable_end (a b : List Char) :
    Access.slice (byteTable (a ++ b)) (byteLength a) (byteTable (a ++ b)).size =
      .ok (byteTable b) := by
  have h := slice_byteTable a b []
  rwa [List.append_nil, ← byteLength_append, ← size_byteTable (a ++ b)] at h

/-- A character up to U+007F is the one byte that it is compared by. -/
theorem utf8EncodeChar_ascii {c : Char} (h : c.toNat ≤ 0x7f) : utf8EncodeChar c = [c.toUInt8] :=
  Text.utf8EncodeChar_ascii h

theorem toNat_toUInt8 {c : Char} (h : c.toNat ≤ 0x7f) : c.toUInt8.toNat = c.toNat :=
  Text.toNat_byte (Nat.lt_of_le_of_lt h (by decide))

/-- The byte of a character up to U+007F is part of no other character. -/
theorem eq_of_toUInt8_mem {c d : Char} (hd : d.toNat ≤ 0x7f) (h : d.toUInt8 ∈ utf8EncodeChar c) :
    c = d := by
  by_cases hc : c.toNat ≤ 0x7f
  · rw [utf8EncodeChar_ascii hc, List.mem_singleton, ← UInt8.toNat_inj, toNat_toUInt8 hd,
      toNat_toUInt8 hc] at h
    exact Char.toNat_inj.mp h.symm
  · have hhigh := Text.le_of_mem_utf8EncodeChar (Nat.not_le.mp hc) h
    rw [UInt8.le_iff_toNat_le, toNat_toUInt8 hd] at hhigh
    exact absurd hhigh (Nat.not_le.mpr (Nat.lt_succ_of_le hd))

/-- The byte before a character is that of a character up to U+007F exactly if the two are the
same. -/
theorem exists_get_byteTable (a : List Char) (c : Char) (rest : List Char) :
    ∃ b, Access.get (byteTable (a ++ c :: rest)) (byteLength a) = .ok b ∧
      ∀ d : Char, d.toNat ≤ 0x7f → (b = d.toUInt8 ↔ c = d) := by
  obtain ⟨b, bytes, hbytes⟩ := List.exists_cons_of_ne_nil (String.utf8EncodeChar_ne_nil (c := c))
  refine ⟨b, ?_, fun d hd => ?_⟩
  · rw [Access.get_eq_ok_iff, byteTable, List.getElem?_toArray, List.flatMap_append,
      Text.byteLength_eq, List.getElem?_append_right (Nat.le_refl _), Nat.sub_self,
      List.flatMap_cons, hbytes]
    rfl
  · have hmem : b ∈ utf8EncodeChar c := hbytes ▸ List.mem_cons_self
    constructor
    · rintro rfl
      exact eq_of_toUInt8_mem hd hmem
    · rintro rfl
      rw [utf8EncodeChar_ascii hd] at hbytes
      exact (List.cons.inj hbytes).1.symm

/-! ### Field descriptors -/

theorem skipBrackets_eq (a s : List Char) :
    skipBrackets (byteTable (a ++ s)) (byteLength a) =
      .ok (byteLength (a ++ s.takeWhile (· == '['))) := by
  induction s generalizing a with
  | nil =>
      rw [skipBrackets, if_neg (by rw [size_byteTable, List.append_nil]; exact Nat.lt_irrefl _),
        List.takeWhile_nil, List.append_nil]
      rfl
  | cons c s ih =>
      obtain ⟨b, hget, hb⟩ := exists_get_byteTable a c s
      rw [skipBrackets, if_pos (lt_size_byteTable a c s), hget, Access.ok_bind]
      by_cases hc : c = '['
      · subst hc
        have hrest := ih (a ++ ['['])
        rw [List.append_assoc, byteLength_append, byteLength_ascii (by decide)] at hrest
        rw [if_pos ((hb '[' (by decide)).mpr rfl), List.takeWhile_cons_of_pos rfl]
        exact hrest.trans (by rw [List.append_assoc]; rfl)
      · rw [if_neg (mt (hb '[' (by decide)).mp hc),
          List.takeWhile_cons_of_neg (by simpa using hc), List.append_nil]
        rfl

/-- A character up to U+007F is found by its byte where the text is cut at it. -/
theorem idxOf?_utf8 {d : Char} (hd : d.toNat ≤ 0x7f) (s : List Char) :
    (s.flatMap utf8EncodeChar).idxOf? d.toUInt8 =
      (Text.cutAt (· == d) s).map fun x => byteLength x.1 := by
  induction s with
  | nil => rfl
  | cons c s ih =>
      rw [List.flatMap_cons, Text.cutAt]
      by_cases hc : c = d
      · subst hc
        rw [utf8EncodeChar_ascii hd, List.singleton_append, List.idxOf?_cons,
          if_pos (beq_self_eq_true _), if_pos (beq_self_eq_true _)]
        rfl
      · have hnone : (utf8EncodeChar c).idxOf? d.toUInt8 = none :=
          List.idxOf?_eq_none_iff.mpr (mt (eq_of_toUInt8_mem hd) hc)
        rw [if_neg (by simpa using hc), List.idxOf?, List.findIdx?_append]
        rw [List.idxOf?] at hnone ih
        rw [hnone, ih, Option.none_or, Option.map_map, Option.map_map]
        refine congrArg (Option.map · _) (funext fun x => ?_)
        exact (byteLength_cons c x.1).symm

theorem byteLength_brackets (s : List Char) :
    byteLength (s.takeWhile (· == '[')) = (s.takeWhile (· == '[')).length := by
  induction s with
  | nil => rfl
  | cons c s ih =>
      by_cases hc : c = '['
      · subst hc
        rw [List.takeWhile_cons_of_pos rfl, byteLength_cons, ih]
        rfl
      · rw [List.takeWhile_cons_of_neg (by simpa using hc)]
        rfl

theorem byteLength_eq_zero_iff {s : List Char} : byteLength s = 0 ↔ s = [] := by
  cases s with
  | nil => exact iff_of_true rfl rfl
  | cons c s =>
      have hpos : 0 < (utf8EncodeChar c).length :=
        List.length_pos_iff.mpr String.utf8EncodeChar_ne_nil
      rw [byteLength_cons]
      exact iff_of_false (by omega) (by simp)

theorem toNat_primitive_le {c : Char} (hc : c ∈ primitiveLetters) : c.toNat ≤ 0x7f := by
  have hall : primitiveLetters.all (·.toNat ≤ 0x7f) = true := rfl
  exact of_decide_eq_true (List.all_eq_true.mp hall c hc)

/-- The byte of a letter of a primitive type. -/
theorem contains_primitive_iff {b : UInt8} {c : Char}
    (hb : ∀ d : Char, d.toNat ≤ 0x7f → (b = d.toUInt8 ↔ c = d)) :
    (primitiveLetters.map Char.toUInt8).contains b = primitiveLetters.contains c := by
  rw [Bool.eq_iff_iff, List.contains_iff_mem, List.contains_iff_mem, List.mem_map]
  constructor
  · rintro ⟨d, hd, hbyte⟩
    exact (hb d (toNat_primitive_le hd)).mp hbyte.symm ▸ hd
  · intro hc
    exact ⟨c, hc, ((hb c (toNat_primitive_le hc)).mpr rfl).symm⟩

/-- The field descriptor that a text begins with is the same by bytes and by characters. -/
theorem fieldLength_eq (s : List Char) :
    fieldLength (byteTable s) = .ok ((takeField s).elim 0 fun x => byteLength x.1) := by
  have hsplit : s.takeWhile (· == '[') ++ s.dropWhile (· == '[') = s :=
    List.takeWhile_append_dropWhile
  have hdims := byteLength_brackets s
  have hskip : skipBrackets (byteTable s) 0 = .ok (byteLength (s.takeWhile (· == '['))) :=
    skipBrackets_eq [] s
  rw [fieldLength, hskip, Access.ok_bind, takeField]
  generalize s.takeWhile (· == '[') = dims at hsplit hdims
  cases hrest : s.dropWhile (· == '[') with
  | nil =>
      rw [hrest, List.append_nil] at hsplit
      rw [if_pos (.inl (by rw [size_byteTable, hsplit]))]
      split <;> rfl
  | cons c rest =>
      rw [hrest] at hsplit
      subst hsplit
      by_cases hlong : dims.length > 255
      · rw [if_pos (.inr (hdims ▸ hlong)), if_pos hlong]
        rfl
      obtain ⟨b, hget, hb⟩ := exists_get_byteTable dims c rest
      have hlt := lt_size_byteTable dims c rest
      rw [if_neg (not_or.mpr ⟨by omega, hdims ▸ hlong⟩), if_neg hlong, hget, Access.ok_bind,
        contains_primitive_iff hb]
      dsimp only
      by_cases hletter : primitiveLetters.contains c
      · have hone := byteLength_ascii (toNat_primitive_le (List.contains_iff_mem.mp hletter))
        rw [if_pos hletter, if_pos hletter, Option.elim_some, byteLength_append, hone]
        rfl
      by_cases hobject : c = 'L'
      · subst hobject
        rw [if_neg hletter, if_pos ((hb 'L' (by decide)).mpr rfl),
          slice_byteTable_end dims ('L' :: rest), Access.ok_bind,
          if_neg hletter, if_pos (beq_self_eq_true 'L'), byteTable, List.toList_toArray,
          idxOf?_utf8 (by decide), Text.cutAt, if_neg (by decide)]
        cases Text.cutAt (· == ';') rest with
        | none => rfl
        | some x =>
            obtain ⟨name, rest'⟩ := x
            have hname : byteLength ('L' :: name) = byteLength name + 1 := byteLength_cons _ _
            have hobject : byteLength (dims ++ 'L' :: name ++ [';']) =
                byteLength dims + byteLength ('L' :: name) + 1 := by
              rw [byteLength_append, byteLength_append, byteLength_ascii (by decide)]
            by_cases hempty : name = []
            · subst hempty
              rfl
            · have hpos : byteLength name ≠ 0 := mt byteLength_eq_zero_iff.mp hempty
              simp only [Option.map_some, Option.elim_some, hobject,
                if_neg (mt List.isEmpty_iff.mp hempty)]
              rw [if_neg (by omega)]
              rfl
      · rw [if_neg hletter, if_neg (mt (hb 'L' (by decide)).mp hobject), if_neg hletter,
          if_neg (by simpa using hobject)]
        rfl

/-- A text is one field descriptor exactly if the one that it begins with has all its bytes. -/
theorem fieldLength_eq_byteLength_iff {s : List Char} (hne : s ≠ []) :
    (takeField s).elim 0 (fun x => byteLength x.1) = byteLength s ↔ isFieldDescriptor s = true := by
  rw [isFieldDescriptor]
  cases htake : takeField s with
  | none =>
      rw [Option.elim_none, eq_comm, byteLength_eq_zero_iff]
      exact iff_of_false hne (by simp)
  | some x =>
      obtain ⟨field, rest⟩ := x
      obtain ⟨-, rfl⟩ := fieldDescriptor_of_takeField htake
      rw [Option.elim_some, byteLength_append, eq_comm, Nat.add_eq_left, byteLength_eq_zero_iff]
      cases rest <;> simp

theorem isEmpty_byteTable (s : List Char) : (byteTable s).isEmpty = s.isEmpty := by
  rw [Bool.eq_iff_iff, Array.isEmpty_iff_size_eq_zero, size_byteTable, byteLength_eq_zero_iff,
    List.isEmpty_iff]

theorem checkFieldDescriptor_eq_isFieldDescriptor (desc : String) :
    checkFieldDescriptor desc = .ok (isFieldDescriptor desc.toList) := by
  rw [checkFieldDescriptor, isEmpty_byteTable]
  by_cases hempty : desc.toList = []
  · rw [hempty]
    rfl
  · rw [if_neg (mt List.isEmpty_iff.mp hempty), fieldLength_eq, Access.ok_bind, size_byteTable]
    refine congrArg Except.ok ?_
    rw [Bool.eq_iff_iff, beq_iff_eq]
    exact fieldLength_eq_byteLength_iff hempty

/-- Checking a field descriptor never fails by an access. -/
theorem checkFieldDescriptor_eq (desc : String) :
    checkFieldDescriptor desc = .ok (validFieldDescriptor desc) := by
  rw [validFieldDescriptor, checkFieldDescriptor_eq_isFieldDescriptor]

theorem validFieldDescriptor_eq (desc : String) :
    validFieldDescriptor desc = isFieldDescriptor desc.toList := by
  rw [validFieldDescriptor, checkFieldDescriptor_eq_isFieldDescriptor]

theorem validFieldDescriptor_iff {desc : String} :
    validFieldDescriptor desc = true ↔ FieldDescriptor desc.toList := by
  rw [validFieldDescriptor_eq, isFieldDescriptor_iff]

/-! ### Method descriptors -/

namespace MethodDescriptor

theorem access_ok {α : Type} (a : α) : access (.ok a) = .ok a := rfl

theorem ok_bind {α β : Type} (a : α) (f : α → Except DescriptorFault β) :
    (Except.ok a >>= f) = f a := rfl

/-- Parameters are read in the same way by bytes and by characters. -/
theorem readParams_eq (a s : List Char) :
    readParams (byteTable (a ++ s)) (byteLength a) =
      (takeParams (byteLength a) s).map fun x =>
        (x.1, byteLength (a ++ s) - byteLength x.2 - 1) := by
  cases s with
  | nil =>
      rw [readParams, takeParams,
        if_neg (by rw [size_byteTable, List.append_nil]; exact Nat.lt_irrefl _)]
      rfl
  | cons c rest =>
      obtain ⟨b, hget, hb⟩ := exists_get_byteTable a c rest
      rw [readParams, if_pos (lt_size_byteTable a c rest), hget, access_ok, ok_bind]
      by_cases hc : c = ')'
      · subst hc
        have hwhole : byteLength (a ++ ')' :: rest) = byteLength a + 1 + byteLength rest := by
          rw [byteLength_append, byteLength_cons, Nat.add_assoc, Nat.add_comm 1]
          rfl
        have hstop : byteLength (a ++ ')' :: rest) - byteLength rest - 1 = byteLength a := by omega
        rw [if_pos ((hb ')' (by decide)).mpr rfl), takeParams, if_pos (beq_self_eq_true ')')]
        exact congrArg (fun stop => Except.ok ([], stop)) hstop.symm
      rw [if_neg (mt (hb ')' (by decide)).mp hc), slice_byteTable_end a (c :: rest),
        Access.ok_bind, fieldLength_eq, access_ok, ok_bind]
      cases htake : takeField (c :: rest) with
      | none =>
          rw [takeParams_of_takeField_eq_none hc htake]
          rfl
      | some x =>
          obtain ⟨field, rest'⟩ := x
          obtain ⟨hfield, hs⟩ := fieldDescriptor_of_takeField htake
          have hpos : byteLength field ≠ 0 := by
            obtain ⟨_, _, rfl, -⟩ := hfield.exists_cons
            exact mt byteLength_eq_zero_iff.mp (List.cons_ne_nil _ _)
          have hslice := slice_byteTable a field rest'
          have hrest := readParams_eq (a ++ field) rest'
          rw [List.append_assoc, ← hs] at hslice hrest
          rw [byteLength_append] at hrest
          rw [Option.elim_some, if_neg hpos, hslice, access_ok, ok_bind, hrest,
            ofByteTable_byteTable, hs, hfield.takeParams_append]
          cases takeParams (byteLength a + byteLength field) rest' <;> rfl
termination_by s.length
decreasing_by exact takeField_length htake

/-- A method descriptor is taken apart in the same way by bytes and by characters, and never fails
by an access. -/
theorem parse_eq (desc : String) : parse desc = ofChars desc.toList := by
  rw [parse]
  split
  case h_2 hdesc =>
    rw [ofChars]
    exact hdesc
  case h_1 rest hdesc =>
    have hparams := readParams_eq ['('] rest
    rw [List.singleton_append, byteLength_ascii (by decide)] at hparams
    rw [hdesc, ofChars]
    dsimp only
    rw [hparams]
    cases htake : takeParams 1 rest with
    | error fault => rfl
    | ok x =>
        obtain ⟨params, tail⟩ := x
        obtain ⟨-, hrest⟩ := takeParams_eq_ok_iff.mp htake
        have hwhole : '(' :: rest = ('(' :: params.flatMap String.toList ++ [')']) ++ tail := by
          rw [hrest]
          simp
        have hslice := slice_byteTable_end ('(' :: params.flatMap String.toList ++ [')']) tail
        have hstart : byteLength ('(' :: rest) - byteLength tail - 1 + 1 =
            byteLength ('(' :: params.flatMap String.toList ++ [')']) := by
          rw [hwhole, byteLength_append, byteLength_append, byteLength_ascii (by decide)]
          omega
        rw [← hwhole, ← hstart] at hslice
        rw [Except.map, ok_bind, hslice, access_ok, ok_bind, ok_bind, ofByteTable_byteTable,
          isEmpty_byteTable, fieldLength_eq, access_ok, ok_bind, size_byteTable]
        dsimp only
        by_cases hempty : tail = []
        · subst hempty
          rfl
        rw [if_neg (mt List.isEmpty_iff.mp hempty)]
        by_cases hvoid : (String.ofList tail == "V") = true
        · rw [if_pos hvoid, hvoid, Bool.true_or, if_pos rfl]
        rw [if_neg hvoid, Bool.eq_false_iff.mpr hvoid, Bool.false_or]
        exact if_congr (fieldLength_eq_byteLength_iff hempty) rfl rfl

/-- Reading a method descriptor never fails by an access. -/
theorem parse_ne_outside (desc : String) (access : OutOfBounds) :
    parse desc ≠ .error (.outside access) := by
  rw [parse_eq, ofChars.eq_def]
  split
  · rename_i rest hdesc
    cases htake : takeParams 1 rest with
    | error fault =>
        rintro ⟨⟩
        exact takeParams_ne_outside 1 rest access htake
    | ok x =>
        rw [ok_bind]
        dsimp only
        split <;> exact nofun
  · exact nofun

/-- A result is accepted exactly if it is `V` or a field descriptor. -/
theorem accepts_result_iff {result : String} :
    (result == "V" || isFieldDescriptor result.toList) = true ↔
      FieldDescriptor result.toList ∨ result = "V" := by
  rw [Bool.or_eq_true, beq_iff_eq, isFieldDescriptor_iff, or_comm]

theorem toList_text (d : MethodDescriptor) :
    d.text.toList = '(' :: (d.params.flatMap String.toList ++ ')' :: d.result.toList) := by
  simp [text, String.toList_join]

/-- Exactly the written forms of proper descriptors can be read, and they are read as what was
written. -/
theorem parse_eq_ok_iff {desc : String} {d : MethodDescriptor} :
    MethodDescriptor.parse desc = .ok d ↔ d.Proper ∧ desc = d.text := by
  rw [← String.toList_inj, toList_text, parse_eq, ofChars.eq_def]
  split
  · rename_i rest hdesc
    rw [hdesc]
    simp only [except_bind_eq_ok, Prod.exists, takeParams_eq_ok_iff]
    constructor
    · rintro ⟨params, result, ⟨hparams, rfl⟩, h⟩
      split at h
      · rename_i hresult
        have htoList : (String.ofList result).toList = result := String.toList_ofList
        obtain rfl := Except.ok.inj h
        exact ⟨⟨hparams, accepts_result_iff.mp (htoList.symm ▸ hresult)⟩, by rw [htoList]⟩
      · exact nomatch h
    · rintro ⟨⟨hparams, hresult⟩, hrest⟩
      refine ⟨d.params, d.result.toList, ⟨hparams, (List.cons.inj hrest).2⟩, ?_⟩
      rw [String.ofList_toList, if_pos (accepts_result_iff.mpr hresult)]
      rfl
  · rename_i hdesc
    constructor
    · intro h
      exact nomatch h
    · rintro ⟨-, htext⟩
      exact absurd htext (hdesc _)

example : MethodDescriptor.parse "([La)(;I)V" = .ok ⟨["[La)(;", "I"], "V"⟩ := by cbv

/-- **Reading a method descriptor inverts writing it, and nothing else can be read.** A text is read
as `d` exactly if the parts of `d` belong to the grammar and the text is their written form: so the
written form of every list of field descriptors with a result is read back as that list and that
result, and whatever can be read is such a written form. One field descriptor alone is told by the
same grammar. -/
theorem parse_iff_text (desc : String) :
    (∀ d, MethodDescriptor.parse desc = .ok d ↔ d.Proper ∧ desc = d.text) ∧
      (validFieldDescriptor desc = true ↔ FieldDescriptor desc.toList) :=
  ⟨fun _ => parse_eq_ok_iff, validFieldDescriptor_iff⟩

end MethodDescriptor

end ClassAudit
