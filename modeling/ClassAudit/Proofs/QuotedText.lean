import ClassAudit.Text.Quoted
import ClassAudit.Text.Blank
import ClassAudit.Proofs.Separators
import Mathlib.Data.List.Chain
import Mathlib.Data.Set.List
import Mathlib.Tactic.Ring

/-!
# Quoted texts among words

A text in double quotes is read back as the text that was quoted. Of all blanks a quoted text
shows only the ordinary space, each character for itself, and it shows a comment mark only for a
comment mark. So a quoted text that goes through a splitting into words, and is joined again with
single spaces, loses nothing but spaces at its ends and spaces next to each other. What is cut
off before its closing mark, on the other hand, is no quoted text any more.

## Main definitions

* `Token` - one written character: a space, or characters that are no blanks.
* `squeezed` - tokens, with a single space between those that spaces separate.

## Main statements

* `unquote_quoteChars` - **a quoted text is read back**.
* `unquote_open` - without its closing mark it is not.
* `joinWith_words_quoteChars` - **a quoted text without adjacent spaces is not changed by words**.
-/

namespace ClassAudit.Text

/-! ### Written characters -/

/-- The blanks from U+0080 on. -/
def wideBlanks : List Nat :=
  [0x85, 0xa0, 0x1680, 0x2000, 0x2001, 0x2002, 0x2003, 0x2004, 0x2005, 0x2006, 0x2007, 0x2008,
    0x2009, 0x200a, 0x2028, 0x2029, 0x202f, 0x205f, 0x3000]

theorem mem_wideBlanks {c : Char} (hwide : ¬c.toNat < 0x80) (h : isBlank c = true) :
    c.toNat ∈ wideBlanks := by
  simp only [isBlank, Bool.or_eq_true, Bool.and_eq_true, decide_eq_true_eq, beq_iff_eq] at h
  simp only [wideBlanks, List.mem_cons, List.not_mem_nil, or_false]
  omega

/-- Of the blanks, a quoted text shows only the ordinary space. -/
theorem eq_space_of_isPrintable {c : Char} (hshown : isPrintable c = true)
    (hblank : isBlank c = true) : c = ' ' := by
  by_cases hwide : c.toNat < 0x80
  · simp only [isPrintable, if_pos hwide, Bool.and_eq_true, decide_eq_true_eq] at hshown
    simp only [isBlank, Bool.or_eq_true, Bool.and_eq_true, decide_eq_true_eq, beq_iff_eq] at hblank
    have hspace : c.toNat = ' '.toNat := show c.toNat = 0x20 by omega
    exact Char.toNat_inj.mp hspace
  · have hnone : ∀ n ∈ wideBlanks,
        (printableRanges.any fun r => decide (r.1 ≤ n) && decide (n ≤ r.2)) = false := by
      decide +kernel
    rw [isPrintable, if_neg hwide, hnone _ (mem_wideBlanks hwide hblank)] at hshown
    exact nomatch hshown

theorem hexDigit_ink (n : Nat) : isBlank (hexDigit n) = false ∧ hexDigit n ≠ '#' := by
  have hall : ∀ k < 16, isBlank (hexDigit k) = false ∧ hexDigit k ≠ '#' := by decide
  have hmod : hexDigit n = hexDigit (n % 16) := by rw [hexDigit, hexDigit, Nat.mod_mod]
  rw [hmod]
  exact hall _ (Nat.mod_lt n (by decide))

theorem hexDigits_ink (width n : Nat) :
    ∀ d ∈ hexDigits width n, isBlank d = false ∧ d ≠ '#' := by
  induction width generalizing n with
  | zero => exact fun _ h => (List.not_mem_nil h).elim
  | succ width ih =>
      rw [hexDigits, List.forall_mem_append, List.forall_mem_singleton]
      exact ⟨ih (n / 16), hexDigit_ink n⟩

/-! ### Reading digits -/

theorem readDigits_add (base first second acc : Nat) (s : List Char) :
    readDigits base (first + second) acc s =
      (readDigits base first acc s).bind fun r => readDigits base second r.1 r.2 := by
  induction first generalizing acc s with
  | zero => rw [Nat.zero_add]; rfl
  | succ first ih =>
      rw [Nat.succ_add]
      cases s with
      | nil => rfl
      | cons c s =>
          rw [readDigits, readDigits]
          cases digitValue? base c with
          | none => rfl
          | some v => exact ih _ _

theorem digitValue?_hexDigit (n : Nat) : digitValue? 16 (hexDigit n) = some (n % 16) := by
  have hall : ∀ k < 16, digitValue? 16 (hexDigit k) = some k := by decide
  have hmod : hexDigit n = hexDigit (n % 16) := by rw [hexDigit, hexDigit, Nat.mod_mod]
  rw [hmod]
  exact hall _ (Nat.mod_lt n (by decide))

/-- The digits of a number are read back. -/
theorem readDigits_hexDigits (width n acc : Nat) (rest : List Char) :
    readDigits 16 width acc (hexDigits width n ++ rest) =
      some (acc * 16 ^ width + n % 16 ^ width, rest) := by
  induction width generalizing n rest with
  | zero => simp [readDigits, hexDigits, Nat.mod_one]
  | succ width ih =>
      have hvalue : (acc * 16 ^ width + n / 16 % 16 ^ width) * 16 + n % 16 =
          acc * 16 ^ (width + 1) + n % 16 ^ (width + 1) := by
        rw [Nat.pow_succ, Nat.mul_comm (16 ^ width) 16, Nat.mod_mul]
        ring
      rw [hexDigits, List.append_assoc, readDigits_add, ih]
      simp only [Option.bind_some, List.singleton_append, readDigits, digitValue?_hexDigit, hvalue]

/-! ### Reading characters back -/

theorem eq_of_escapeLetter? {c letter : Char} (h : escapeLetter? c = some letter) :
    (∀ d ∈ [letter], isBlank d = false ∧ d ≠ '#') ∧
      ∀ rest, readEscape doubleMark (letter :: rest) = some (.char c, rest) := by
  have hc : c = Char.ofNat c.toNat := (Char.ofNat_toNat c).symm
  rw [escapeLetter?] at h
  split at h
  case h_8 => cases h
  all_goals
    rename_i hcode
    rw [hcode] at hc
    subst hc
    cases h
    exact ⟨List.forall_mem_singleton.mpr (by decide), fun _ => rfl⟩

/-- A character is written as it is, or as an escape that is read back. -/
theorem quoteChar_forms (c : Char) :
    (c ≠ doubleMark ∧ c ≠ '\\' ∧ isPrintable c = true ∧ quoteChar c = [c]) ∨
      ∃ code, quoteChar c = '\\' :: code ∧ (∀ d ∈ code, isBlank d = false ∧ d ≠ '#') ∧
        ∀ rest, readEscape doubleMark (code ++ rest) = some (.char c, rest) := by
  have hsurrogate : c.toNat < 0xd800 ∨ (0xdfff < c.toNat ∧ c.toNat < 0x110000) := c.valid
  have hpoint : Piece.ofCodePoint? c.toNat = some (.char c) := by
    rw [Piece.ofCodePoint?, if_pos (by omega), Char.ofNat_toNat]
  rw [quoteChar]
  by_cases hmark : c = doubleMark ∨ c = '\\'
  · rw [if_pos hmark]
    refine .inr ⟨[c], rfl, ?_⟩
    obtain rfl | rfl := hmark
    · exact ⟨List.forall_mem_singleton.mpr (by decide), fun _ => rfl⟩
    · exact ⟨List.forall_mem_singleton.mpr (by decide), fun _ => rfl⟩
  rw [if_neg hmark]
  obtain ⟨hquote, hslash⟩ := not_or.mp hmark
  by_cases hshown : isPrintable c = true
  · rw [if_pos hshown]
    exact .inl ⟨hquote, hslash, hshown, rfl⟩
  rw [if_neg hshown]
  refine .inr ?_
  cases hletter : escapeLetter? c with
  | some letter => exact ⟨[letter], rfl, eq_of_escapeLetter? hletter⟩
  | none =>
      have hink {letter : Char} {width : Nat} (hl : isBlank letter = false ∧ letter ≠ '#') :
          ∀ d ∈ letter :: hexDigits width c.toNat, isBlank d = false ∧ d ≠ '#' :=
        List.forall_mem_cons.mpr ⟨hl, hexDigits_ink width c.toNat⟩
      have hdigits {width : Nat} (hlt : c.toNat < 16 ^ width) (rest : List Char) :
          readDigits 16 width 0 (hexDigits width c.toNat ++ rest) = some (c.toNat, rest) := by
        rw [readDigits_hexDigits, Nat.mod_eq_of_lt hlt, Nat.zero_mul, Nat.zero_add]
      by_cases hascii : c.toNat < 0x80
      · refine ⟨'x' :: hexDigits 2 c.toNat, by rw [if_pos hascii], hink (by decide), fun rest => ?_⟩
        rw [List.cons_append, readEscape, hdigits (by omega)]
        simp [Piece.ofByte, hascii]
      by_cases hplane : c.toNat < 0x10000
      · refine ⟨'u' :: hexDigits 4 c.toNat, by rw [if_neg hascii, if_pos hplane],
          hink (by decide), fun rest => ?_⟩
        rw [List.cons_append, readEscape, hdigits (by omega)]
        simp [hpoint]
      · refine ⟨'U' :: hexDigits 8 c.toNat, by rw [if_neg hascii, if_neg hplane],
          hink (by decide), fun rest => ?_⟩
        rw [List.cons_append, readEscape, hdigits (by omega)]
        simp [hpoint]

/-- A written character is read as one piece. -/
theorem readPieces_quoteChar (c : Char) (fuel : Nat) (rest : List Char) :
    readPieces doubleMark (fuel + 1) (quoteChar c ++ rest) =
      (readPieces doubleMark fuel rest).map (.char c :: ·) := by
  obtain ⟨hquote, hslash, hshown, heq⟩ | ⟨code, heq, -, hread⟩ := quoteChar_forms c
  · have hline : c ≠ '\n' := by
      rintro rfl
      exact absurd hshown (by decide)
    rw [heq, List.singleton_append, readPieces, if_neg hquote, if_neg hline]
    simp only [if_neg hslash]
    rw [Option.map_eq_bind]
    rfl
  · have hslash : '\\' ≠ doubleMark ∧ '\\' ≠ '\n' := by decide
    rw [heq, List.cons_append, readPieces, if_neg hslash.1, if_neg hslash.2]
    simp only [if_true, hread]
    rw [Option.map_eq_bind]
    rfl

theorem quoteChar_ne_nil (c : Char) : quoteChar c ≠ [] := by
  obtain ⟨-, -, -, heq⟩ | ⟨code, heq, -⟩ := quoteChar_forms c <;> simp [heq]

theorem length_le_length_flatMap_quoteChar (s : List Char) :
    s.length ≤ (s.flatMap quoteChar).length := by
  induction s with
  | nil => exact Nat.zero_le _
  | cons c s ih =>
      have hpos : 0 < (quoteChar c).length := List.length_pos_iff.mpr (quoteChar_ne_nil c)
      rw [List.flatMap_cons, List.length_append, List.length_cons]
      omega

theorem readPieces_closed {fuel : Nat} {s : List Char} (hfuel : s.length ≤ fuel) :
    readPieces doubleMark fuel (s.flatMap quoteChar ++ [doubleMark]) = some (s.map .char) := by
  induction s generalizing fuel with
  | nil => cases fuel <;> simp [readPieces]
  | cons c s ih =>
      cases fuel with
      | zero => exact nomatch hfuel
      | succ fuel =>
          rw [List.flatMap_cons, List.append_assoc, readPieces_quoteChar,
            ih (Nat.le_of_succ_le_succ hfuel)]
          rfl

theorem chars?_map_char (s : List Char) : Piece.chars? (s.map .char) = some s := by
  induction s with
  | nil => rfl
  | cons c s ih => simp [Piece.chars?, ih]

/-- **A quoted text is read back.** -/
theorem unquote_quoteChars (s : List Char) : unquote (quoteChars s) = some (.text s) := by
  have hfuel : s.length ≤ (s.flatMap quoteChar ++ [doubleMark]).length := by
    have := length_le_length_flatMap_quoteChar s
    rw [List.length_append]
    omega
  rw [quoteChars, unquote, if_pos rfl, readPieces_closed hfuel, Option.map_some,
    Literal.ofPieces, chars?_map_char]

theorem readPieces_open (fuel : Nat) (s : List Char) :
    readPieces doubleMark fuel (s.flatMap quoteChar) = none := by
  induction s generalizing fuel with
  | nil => simp [readPieces]
  | cons c s ih =>
      cases fuel with
      | zero =>
          -- no written character begins with the mark
          obtain ⟨hquote, -, -, heq⟩ | ⟨code, heq, -⟩ := quoteChar_forms c
          · simp [heq, readPieces, hquote]
          · simp [heq, readPieces, show '\\' ≠ doubleMark by decide]
      | succ fuel => rw [List.flatMap_cons, readPieces_quoteChar, ih, Option.map_none]

/-- Written characters behind an opening mark are no quoted text. -/
theorem unquote_open (s : List Char) : unquote (doubleMark :: s.flatMap quoteChar) = none := by
  rw [unquote, if_pos rfl, readPieces_open, Option.map_none]

/-! ### Words of written tokens -/

/-- A written character: a space, or characters that are no blanks. -/
def Token (t : List Char) : Prop := t = [' '] ∨ (t ≠ [] ∧ ∀ c ∈ t, isBlank c = false)

theorem token_quoteChar (c : Char) : Token (quoteChar c) := by
  by_cases hspace : c = ' '
  · exact .inl (by rw [hspace]; decide)
  · refine .inr ⟨quoteChar_ne_nil c, ?_⟩
    obtain ⟨-, -, hshown, heq⟩ | ⟨code, heq, hcode, -⟩ := quoteChar_forms c
    · rw [heq, List.forall_mem_singleton]
      exact Bool.eq_false_iff.mpr fun hblank => hspace (eq_space_of_isPrintable hshown hblank)
    · rw [heq, List.forall_mem_cons]
      exact ⟨by decide, fun d hd => (hcode d hd).1⟩

/-- Characters that are no separators join the piece that begins behind them. -/
theorem splitOnP_append {α : Type} {p : α → Bool} {s t piece : List α} {pieces : List (List α)}
    (hs : ∀ a ∈ s, p a = false) (ht : t.splitOnP p = piece :: pieces) :
    (s ++ t).splitOnP p = (s ++ piece) :: pieces := by
  induction s with
  | nil => exact ht
  | cons a s ih =>
      obtain ⟨ha, hs⟩ := List.forall_mem_cons.mp hs
      rw [List.cons_append, List.splitOnP_cons_eq_if_modifyHead, if_neg (Bool.eq_false_iff.mp ha),
        ih hs]
      rfl

/-- Tokens are not taken apart. -/
theorem splitOnP_flatten {tokens : List (List Char)} (htokens : ∀ t ∈ tokens, Token t) :
    tokens.flatten.splitOnP isBlank = (tokens.splitOn [' ']).map List.flatten := by
  induction tokens with
  | nil => rfl
  | cons t tokens ih =>
      obtain ⟨ht, hrest⟩ := List.forall_mem_cons.mp htokens
      have ih := ih hrest
      rw [List.flatten_cons, List.splitOn, List.splitOnP_cons_eq_if_modifyHead, ← List.splitOn]
      obtain rfl | ⟨hne, hink⟩ := ht
      · rw [List.singleton_append, List.splitOnP_cons_eq_if_modifyHead, if_pos (by decide),
          if_pos (by decide), ih]
        rfl
      · have hspace : ¬(t == [' ']) = true := by
          rw [beq_iff_eq]
          rintro rfl
          exact absurd (hink ' ' (List.mem_singleton.mpr rfl)) (by decide)
        obtain ⟨piece, pieces, hpieces⟩ :=
          List.exists_cons_of_ne_nil (List.splitOnP_ne_nil (· == [' ']) tokens)
        rw [List.splitOn, hpieces] at ih
        rw [if_neg hspace, splitOnP_append hink ih, List.splitOn, hpieces]
        rfl

/-- Tokens, with a single space between those that spaces separate. -/
def squeezed (tokens : List (List Char)) : List (List Char) :=
  [[' ']].intercalate ((tokens.splitOn [' ']).filter (!·.isEmpty))

theorem mem_of_mem_splitOn {α : Type} [BEq α] [LawfulBEq α] {x a : α} {l piece : List α}
    (hpiece : piece ∈ l.splitOn x) (ha : a ∈ piece) : a ∈ l := by
  induction l generalizing piece with
  | nil =>
      obtain rfl := List.mem_singleton.mp hpiece
      exact ha
  | cons b l ih =>
      obtain ⟨head, pieces, hpieces⟩ :=
        List.exists_cons_of_ne_nil (List.splitOnP_ne_nil (· == x) l)
      rw [List.splitOn, hpieces] at ih
      rw [List.splitOn, List.splitOnP_cons_eq_if_modifyHead, hpieces] at hpiece
      split at hpiece
      · obtain rfl | hpiece := List.mem_cons.mp hpiece
        · exact (List.not_mem_nil ha).elim
        · exact List.mem_cons_of_mem b (ih hpiece ha)
      · obtain rfl | hpiece := List.mem_cons.mp hpiece
        · obtain rfl | ha := List.mem_cons.mp ha
          · exact List.mem_cons_self
          · exact List.mem_cons_of_mem b (ih List.mem_cons_self ha)
        · exact List.mem_cons_of_mem b (ih (List.mem_cons_of_mem head hpiece) ha)

/-- The words of a text that is written in tokens. -/
theorem words_flatten {tokens : List (List Char)} (htokens : ∀ t ∈ tokens, Token t) :
    words tokens.flatten =
      ((tokens.splitOn [' ']).filter (!·.isEmpty)).map List.flatten := by
  rw [words, splitWhere_eq_splitOnP, splitOnP_flatten htokens, List.filter_map]
  congr 1
  refine List.filter_congr fun piece hpiece => ?_
  cases piece with
  | nil => rfl
  | cons t piece =>
      have ht : t ≠ [] := by
        obtain rfl | ⟨hne, -⟩ := htokens t (mem_of_mem_splitOn hpiece List.mem_cons_self)
        · exact List.cons_ne_nil _ _
        · exact hne
      simp [ht]

theorem intercalate_map_flatten (sep : List Char) (pieces : List (List (List Char))) :
    sep.intercalate (pieces.map List.flatten) = ([sep].intercalate pieces).flatten := by
  induction pieces with
  | nil => rfl
  | cons piece pieces ih =>
      cases pieces with
      | nil => simp
      | cons next pieces =>
          rw [List.map_cons, List.map_cons, List.intercalate_cons_cons,
            List.intercalate_cons_cons, ← List.map_cons, ih]
          simp

/-- The words, joined again with single spaces. -/
theorem joinWith_words {tokens : List (List Char)} (htokens : ∀ t ∈ tokens, Token t) :
    (joinWith " " ((words tokens.flatten).map String.ofList)).toList =
      (squeezed tokens).flatten := by
  have hofList : (String.toList ∘ String.ofList) = id := funext fun s => String.toList_ofList
  rw [joinWith, String.toList_intercalate, List.map_map, hofList, List.map_id,
    words_flatten htokens, squeezed, ← intercalate_map_flatten]
  rfl

/-! ### What squeezing keeps -/

theorem head_splitOn_ne_nil {α : Type} [BEq α] [LawfulBEq α] {x a : α} (ha : a ≠ x) (l : List α) :
    ∃ piece pieces, l.splitOn x = piece :: pieces ∧
      (a :: l).splitOn x = (a :: piece) :: pieces := by
  obtain ⟨piece, pieces, hpieces⟩ :=
    List.exists_cons_of_ne_nil (List.splitOnP_ne_nil (· == x) l)
  refine ⟨piece, pieces, hpieces, ?_⟩
  rw [List.splitOn, List.splitOnP_cons_eq_if_modifyHead, if_neg (by simpa using ha), hpieces]
  rfl

/-- Between separators that do not stand next to each other or at the end, no piece is empty. -/
theorem ne_nil_of_mem_tail_splitOn {α : Type} [BEq α] [LawfulBEq α] {x : α} {l : List α}
    (hchain : l.IsChain fun a b => a ≠ x ∨ b ≠ x) (hlast : l.getLast? ≠ some x) :
    ∀ piece ∈ (l.splitOn x).tail, piece ≠ [] := by
  induction l with
  | nil => simp
  | cons a l ih =>
      cases l with
      | nil =>
          have ha : a ≠ x := fun h => hlast (by rw [h]; rfl)
          obtain ⟨piece, pieces, hpieces, heq⟩ := head_splitOn_ne_nil ha []
          obtain ⟨rfl, rfl⟩ : piece = [] ∧ pieces = [] := by simpa using hpieces.symm
          simp [heq]
      | cons b l =>
          obtain ⟨hab, hchain⟩ := List.isChain_cons_cons.mp hchain
          have hrest := ih hchain (by rwa [List.getLast?_cons_cons] at hlast)
          by_cases ha : a = x
          · -- the separator is followed by a piece that begins with `b`
            have hb : b ≠ x := hab.resolve_left fun h => h ha
            obtain ⟨piece, pieces, -, heq⟩ := head_splitOn_ne_nil hb l
            rw [heq, List.tail_cons] at hrest
            rw [ha, List.splitOn, List.splitOnP_cons_eq_if_modifyHead, if_pos (beq_self_eq_true x),
              List.tail_cons, ← List.splitOn, heq]
            exact List.forall_mem_cons.mpr ⟨List.cons_ne_nil _ _, hrest⟩
          · obtain ⟨piece, pieces, hpieces, heq⟩ := head_splitOn_ne_nil ha (b :: l)
            rw [hpieces, List.tail_cons] at hrest
            rwa [heq, List.tail_cons]

/-- Single spaces between tokens are kept. -/
theorem squeezed_eq_self {t : List Char} {tokens : List (List Char)} (ht : t ≠ [' '])
    (hsingle : (t :: tokens).IsChain fun t u => t ≠ [' '] ∨ u ≠ [' '])
    (hlast : (t :: tokens).getLast? ≠ some [' ']) :
    squeezed (t :: tokens) = t :: tokens := by
  obtain ⟨piece, pieces, -, heq⟩ := head_splitOn_ne_nil ht tokens
  have htail := ne_nil_of_mem_tail_splitOn hsingle hlast
  have hall : ∀ piece ∈ (t :: tokens).splitOn [' '], (!piece.isEmpty) = true := by
    rw [heq, List.tail_cons] at htail
    rw [heq]
    exact List.forall_mem_cons.mpr ⟨rfl, fun piece hpiece => by simp [htail piece hpiece]⟩
  rw [squeezed, List.filter_eq_self.mpr hall, List.intercalate_splitOn]

theorem mem_intercalate {α : Type} {sep : List α} {pieces : List (List α)} {a : α}
    (h : a ∈ sep.intercalate pieces) : a ∈ sep ∨ ∃ piece ∈ pieces, a ∈ piece := by
  induction pieces with
  | nil => exact (List.not_mem_nil h).elim
  | cons piece pieces ih =>
      by_cases hne : pieces = []
      · subst hne
        exact .inr ⟨piece, List.mem_cons_self, by simpa using h⟩
      · rw [List.intercalate_cons_of_ne_nil hne, List.mem_append, List.mem_append] at h
        obtain (h | h) | h := h
        · exact .inr ⟨piece, List.mem_cons_self, h⟩
        · exact .inl h
        · obtain h | ⟨piece', hpiece', h⟩ := ih h
          · exact .inl h
          · exact .inr ⟨piece', List.mem_cons_of_mem piece hpiece', h⟩

/-- The first token stays the first one, and no tokens but spaces are added. -/
theorem squeezed_cons {t : List Char} (ht : t ≠ [' ']) (tokens : List (List Char)) :
    ∃ more, squeezed (t :: tokens) = t :: more ∧ ∀ u ∈ more, u ∈ tokens ∨ u = [' '] := by
  obtain ⟨piece, pieces, hpieces, heq⟩ := head_splitOn_ne_nil ht tokens
  have hmem {u : List Char} (hu : ∃ p ∈ piece :: pieces, u ∈ p) : u ∈ tokens := by
    obtain ⟨p, hp, hu⟩ := hu
    exact mem_of_mem_splitOn (hpieces ▸ hp) hu
  rw [squeezed, heq, List.filter_cons_of_pos rfl]
  by_cases hne : pieces.filter (!·.isEmpty) = []
  · rw [hne]
    refine ⟨piece, by simp, fun u hu => .inl (hmem ⟨piece, List.mem_cons_self, hu⟩)⟩
  · rw [List.intercalate_cons_of_ne_nil hne]
    refine ⟨piece ++ [[' ']] ++ [[' ']].intercalate (pieces.filter (!·.isEmpty)), by simp, ?_⟩
    intro u hu
    rw [List.mem_append, List.mem_append] at hu
    obtain (hu | hu) | hu := hu
    · exact .inl (hmem ⟨piece, List.mem_cons_self, hu⟩)
    · exact .inr (List.mem_singleton.mp hu)
    · obtain hu | ⟨p, hp, hu⟩ := mem_intercalate hu
      · exact .inr (List.mem_singleton.mp hu)
      · exact .inl (hmem ⟨p, List.mem_cons_of_mem piece (List.mem_filter.mp hp |>.1), hu⟩)

/-! ### Quoted texts -/

/-- The tokens of a quoted text, with the marks around it. -/
theorem quoteChars_eq_flatten (s : List Char) :
    quoteChars s = ([doubleMark] :: (s.map quoteChar ++ [[doubleMark]])).flatten := by
  simp [quoteChars, List.flatMap]

theorem token_doubleMark : Token [doubleMark] :=
  .inr ⟨List.cons_ne_nil _ _, List.forall_mem_singleton.mpr (by decide)⟩

theorem token_map_quoteChar (s : List Char) : ∀ t ∈ s.map quoteChar, Token t :=
  List.forall_mem_map.mpr fun c _ => token_quoteChar c

theorem quoteChar_eq_space_iff {c : Char} : quoteChar c = [' '] ↔ c = ' ' := by
  constructor
  · intro h
    obtain ⟨-, -, -, heq⟩ | ⟨code, heq, -⟩ := quoteChar_forms c
    · rw [heq] at h
      exact List.singleton_inj.mp h
    · rw [heq] at h
      exact absurd (List.cons.inj h).1 (by decide)
  · rintro rfl
    decide

/-- No two spaces stand next to each other. -/
def SingleSpaced (s : List Char) : Prop := s.IsChain fun a b => a ≠ ' ' ∨ b ≠ ' '

instance (s : List Char) : Decidable (SingleSpaced s) := inferInstanceAs (Decidable (s.IsChain _))

/-- **A quoted text without adjacent spaces is not changed**: its words, joined again, give the
text. -/
theorem joinWith_words_quoteChars {s : List Char} (hsingle : SingleSpaced s) :
    (joinWith " " ((words (quoteChars s)).map String.ofList)).toList = quoteChars s := by
  have hmark : [doubleMark] ≠ [' '] := by decide
  have htokens : ∀ t ∈ [doubleMark] :: (s.map quoteChar ++ [[doubleMark]]), Token t :=
    List.forall_mem_cons.mpr ⟨token_doubleMark, List.forall_mem_append.mpr
      ⟨token_map_quoteChar s, List.forall_mem_singleton.mpr token_doubleMark⟩⟩
  have hinner : (s.map quoteChar).IsChain fun t u => t ≠ [' '] ∨ u ≠ [' '] := by
    rw [List.isChain_map]
    exact hsingle.imp fun a b h => h.imp (mt quoteChar_eq_space_iff.mp)
      (mt quoteChar_eq_space_iff.mp)
  have hchain : ([doubleMark] :: (s.map quoteChar ++ [[doubleMark]])).IsChain
      fun t u => t ≠ [' '] ∨ u ≠ [' '] := by
    rw [List.isChain_cons, List.isChain_append]
    refine ⟨fun _ _ => .inl hmark, hinner, List.isChain_singleton _, fun _ _ u hu => .inr ?_⟩
    obtain rfl := Option.some.inj hu
    exact hmark
  have hlast : ([doubleMark] :: (s.map quoteChar ++ [[doubleMark]])).getLast? ≠ some [' '] := by
    rw [← List.cons_append, List.getLast?_append_cons]
    exact fun h => hmark (Option.some.inj h)
  rw [quoteChars_eq_flatten, joinWith_words htokens, squeezed_eq_self hmark hchain hlast]

/-- What is cut off before the closing mark has none either when its words are joined. -/
theorem exists_joinWith_words_open (s : List Char) :
    ∃ s' : List Char,
      (joinWith " " ((words (doubleMark :: s.flatMap quoteChar)).map String.ofList)).toList =
        doubleMark :: s'.flatMap quoteChar := by
  have htokens : doubleMark :: s.flatMap quoteChar = ([doubleMark] :: s.map quoteChar).flatten := by
    simp [List.flatMap]
  obtain ⟨more, hmore, hmem⟩ := squeezed_cons (t := [doubleMark]) (by decide) (s.map quoteChar)
  have hwritten : ∀ u ∈ more, ∃ c, quoteChar c = u := fun u hu => by
    obtain h | rfl := hmem u hu
    · obtain ⟨c, -, rfl⟩ := List.mem_map.mp h
      exact ⟨c, rfl⟩
    · exact ⟨' ', by decide⟩
  have hrange : more ∈ Set.range (List.map quoteChar) := by
    rw [Set.range_list_map]
    exact hwritten
  obtain ⟨s', rfl⟩ := hrange
  rw [htokens, joinWith_words (List.forall_mem_cons.mpr ⟨token_doubleMark, token_map_quoteChar s⟩),
    hmore]
  exact ⟨s', by simp [List.flatMap]⟩

end ClassAudit.Text
