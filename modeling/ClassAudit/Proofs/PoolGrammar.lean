import ClassAudit.Proofs.PoolTable

/-!
# The grammar of constant pools

Readers are compared with grammars: `r.Recognizes P` says that the reader `r` succeeds exactly on
the bytes that the grammar `P` has for a value, whatever follows them. A sequence of readers
recognizes a sequence of grammars, so the grammar of constants and then that of pools is put
together as their readers are.

A pool is well formed if its constants take all indexes from 1 up to the count that it begins with,
two each for the eight-byte literals, and if every reference leads to a constant of the right kind.
Reading accepts these pools and one more kind: the second index of an eight-byte literal is stepped
over without a look at the count, so such a literal may also stand at the last index.

## Main definitions

* `Read.Recognizes` - a reader that accepts exactly the bytes of a grammar.
* `Constant.Content`, `Constant.SpelledBy` - the grammar of constants.
* `ConstantPool.Fills` - which constants fill a number of places.
* `ConstantPool.Backs`, `ConstantPool.Consistent` - references that lead where they should.
* `ConstantPool.WellFormed`, `ConstantPool.CutShort` - the two kinds of pools.

## Main statements

* `Read.Recognizes.bind` - one grammar after the other.
* `Constant.recognizes_read`, `ConstantPool.recognizes_readEntries`,
  `ConstantPool.recognizes_read` - what is read.
* `ConstantPool.read_succeeds_iff` - exactly the pools of the two kinds are read.
-/

namespace ClassAudit

variable {α β : Type}

/-! ### Readers and grammars -/

namespace Read

/-- The reader succeeds exactly on the bytes that the grammar `P` has for a value, gives that value
and stops right behind them. -/
def Recognizes (r : Read α) (P : α → List UInt8 → Prop) : Prop :=
  ∀ c a c', r c = .ok (a, c') ↔
    ∃ bytes, P a bytes ∧ c.rest = bytes ++ c'.rest ∧ c'.pos = c.pos + bytes.length

theorem Recognizes.congr {r : Read α} {P Q : α → List UInt8 → Prop} (hr : r.Recognizes P)
    (h : ∀ a bytes, P a bytes ↔ Q a bytes) : r.Recognizes Q := by
  intro c a c'
  simp only [hr c a c', h]

theorem recognizes_pure (a : α) :
    (pure a : Read α).Recognizes fun b bytes => b = a ∧ bytes = [] := by
  intro c b c'
  constructor
  · rintro ⟨⟩
    exact ⟨[], ⟨rfl, rfl⟩, rfl, rfl⟩
  · rintro ⟨bytes, ⟨rfl, rfl⟩, hrest, hpos⟩
    obtain rfl : c = c' := by
      cases c
      cases c'
      simp_all
    rfl

theorem recognizes_fail (cause : Malformed.Cause) (offset : Option Nat) :
    (Read.fail cause offset : Read α).Recognizes fun _ _ => False := by
  intro c a c'
  constructor
  · intro h
    exact nomatch h
  · rintro ⟨bytes, h, -⟩
    exact h.elim

/-- One grammar after the other. -/
theorem Recognizes.bind {r : Read α} {f : α → Read β} {P : α → List UInt8 → Prop}
    {Q : α → β → List UInt8 → Prop} (hr : r.Recognizes P) (hf : ∀ a, (f a).Recognizes (Q a)) :
    (r >>= f).Recognizes fun b bytes => ∃ a x y, P a x ∧ Q a b y ∧ bytes = x ++ y := by
  intro c b c'
  rw [run_bind_eq_ok]
  constructor
  · rintro ⟨a, c₁, ha, hb⟩
    obtain ⟨x, hx, hrest, hpos⟩ := (hr c a c₁).mp ha
    obtain ⟨y, hy, hrest₁, hpos₁⟩ := (hf a c₁ b c').mp hb
    refine ⟨x ++ y, ⟨a, x, y, hx, hy, rfl⟩, ?_, ?_⟩
    · rw [hrest, hrest₁, List.append_assoc]
    · rw [hpos₁, hpos, List.length_append, Nat.add_assoc]
  · rintro ⟨_, ⟨a, x, y, hx, hy, rfl⟩, hrest, hpos⟩
    rw [List.append_assoc] at hrest
    rw [List.length_append, ← Nat.add_assoc] at hpos
    exact ⟨a, ⟨y ++ c'.rest, c.pos + x.length⟩, (hr _ _ _).mpr ⟨x, hx, hrest, rfl⟩,
      (hf a _ _ _).mpr ⟨y, hy, rfl, hpos⟩⟩

/-- A grammar whose values are looked at afterwards. -/
theorem Recognizes.bind_check {r : Read α} {f : α → Read β} {P : α → List UInt8 → Prop}
    {R : α → β → Prop} (hr : r.Recognizes P)
    (hf : ∀ a, (f a).Recognizes fun b bytes => R a b ∧ bytes = []) :
    (r >>= f).Recognizes fun b bytes => ∃ a, P a bytes ∧ R a b := by
  refine (hr.bind hf).congr fun b bytes => ?_
  constructor
  · rintro ⟨a, x, y, hx, ⟨hb, rfl⟩, rfl⟩
    exact ⟨a, by rwa [List.append_nil], hb⟩
  · rintro ⟨a, ha, hb⟩
    exact ⟨a, bytes, [], ha, ⟨hb, rfl⟩, (List.append_nil bytes).symm⟩

theorem Recognizes.map {r : Read α} {P : α → List UInt8 → Prop} (hr : r.Recognizes P) (f : α → β) :
    (f <$> r).Recognizes fun b bytes => ∃ a, P a bytes ∧ b = f a :=
  hr.bind_check fun a => recognizes_pure (f a)

theorem Recognizes.ite {p : Prop} [Decidable p] {r s : Read α} {P Q : α → List UInt8 → Prop}
    (hr : r.Recognizes P) (hs : s.Recognizes Q) :
    (if p then r else s).Recognizes fun a bytes => if p then P a bytes else Q a bytes := by
  by_cases hp : p
  · simpa only [if_pos hp] using hr
  · simpa only [if_neg hp] using hs

/-- Where a reader stands shows in its faults only. -/
theorem recognizes_bind_position {f : Nat → Read β} {P : β → List UInt8 → Prop}
    (hf : ∀ pos, (f pos).Recognizes P) : (Read.position >>= f).Recognizes P :=
  fun c => hf c.pos c

theorem recognizes_bytes (n : Nat) (item : String) :
    (Read.bytes n item).Recognizes fun taken bytes => taken = bytes ∧ bytes.length = n := by
  intro c taken c'
  constructor
  · intro h
    obtain ⟨hrest, hlength, hpos⟩ := eq_append_of_bytes h
    exact ⟨taken, ⟨rfl, hlength⟩, hrest, by rw [hpos, hlength]⟩
  · rintro ⟨bytes, ⟨rfl, rfl⟩, hrest, hpos⟩
    rw [bytes_of_le (by simp [hrest]), hrest, List.take_left, List.drop_left, ← hpos]

end Read

/-- The bytes are the word of the given width that spells the number. -/
def Binary.Spells (width n : Nat) (bytes : List UInt8) : Prop :=
  bytes.length = width ∧ Binary.value bytes = n

theorem Read.recognizes_value (width : Nat) (item : String) :
    (Read.word width item).Recognizes (Binary.Spells width) := by
  rw [Read.word_eq]
  refine ((recognizes_bytes width item).map _).congr fun n bytes => ?_
  constructor
  · rintro ⟨_, ⟨rfl, hlength⟩, rfl⟩
    exact ⟨hlength, rfl⟩
  · rintro ⟨hlength, rfl⟩
    exact ⟨bytes, ⟨rfl, hlength⟩, rfl⟩

/-! ### Constants -/

namespace Constant

open Text

/-- The bytes are one word, and the constant is made from the number that it spells. -/
def OfWord (width : Nat) (make : Nat → Constant) (c : Constant) (bytes : List UInt8) : Prop :=
  ∃ n, Binary.Spells width n bytes ∧ c = make n

/-- The bytes are two indexes, and the constant is made from them. -/
def OfIndexes (make : Nat → Nat → Constant) (c : Constant) (bytes : List UInt8) : Prop :=
  ∃ a b x y, Binary.Spells 2 a x ∧ Binary.Spells 2 b y ∧ bytes = x ++ y ∧ c = make a b

/-- What follows the tag of a constant. -/
def Content : Tag → Constant → List UInt8 → Prop
  | .utf8 => fun c bytes => ∃ length body text, Binary.Spells 2 body.length length ∧
      ModifiedUtf8.WellFormed body ∧ ModifiedUtf8.decode body = some text ∧
      bytes = length ++ body ∧ c = utf8 text
  | .integer => OfWord 4 integer
  | .float => OfWord 4 float
  | .long => OfWord 8 long
  | .double => OfWord 8 double
  | .classRef => OfWord 2 Constant.classRef
  | .string => OfWord 2 string
  | .methodType => OfWord 2 methodType
  | .module => OfWord 2 module
  | .package => OfWord 2 package
  | .fieldRef => OfIndexes fieldRef
  | .methodRef => OfIndexes methodRef
  | .interfaceMethodRef => OfIndexes interfaceMethodRef
  | .nameAndType => OfIndexes nameAndType
  | .dynamic => OfIndexes dynamic
  | .invokeDynamic => OfIndexes invokeDynamic
  | .methodHandle => fun c bytes => ∃ kind target x y, (1 ≤ kind ∧ kind ≤ 9) ∧
      Binary.Spells 1 kind x ∧ Binary.Spells 2 target y ∧ bytes = x ++ y ∧
      c = methodHandle kind target

/-- The bytes are the tag of the constant and its content. -/
def SpelledBy (c : Constant) (bytes : List UInt8) : Prop :=
  ∃ tag content, bytes = UInt8.ofNat tag.number :: content ∧ Content tag c content

theorem recognizes_word (width : Nat) (make : Nat → Constant) (item : String) :
    ((make ∘ Binary.value) <$> Read.bytes width item).Recognizes (OfWord width make) := by
  refine ((Read.recognizes_bytes width item).map _).congr fun c bytes => ?_
  constructor
  · rintro ⟨_, ⟨rfl, hlength⟩, rfl⟩
    exact ⟨_, ⟨hlength, rfl⟩, rfl⟩
  · rintro ⟨_, ⟨hlength, rfl⟩, rfl⟩
    exact ⟨bytes, ⟨rfl, hlength⟩, rfl⟩

theorem recognizes_readOne (make : Nat → Constant) :
    (readOne make).Recognizes (OfWord 2 make) :=
  (Read.recognizes_value 2 _).map make

theorem recognizes_readTwo (make : Nat → Nat → Constant) :
    (readTwo make).Recognizes (OfIndexes make) := by
  have hlast (a : Nat) := (Read.recognizes_value 2 "constant index").map (make a)
  refine ((Read.recognizes_value 2 "constant index").bind hlast).congr fun c bytes => ?_
  constructor
  · rintro ⟨a, x, y, hx, ⟨b, hy, rfl⟩, rfl⟩
    exact ⟨a, b, x, y, hx, hy, rfl, rfl⟩
  · rintro ⟨a, b, x, y, hx, hy, rfl, rfl⟩
    exact ⟨a, x, y, hx, ⟨b, hy, rfl⟩, rfl⟩

/-- The bytes of a text are accepted if they spell one. -/
theorem recognizes_decoded (index start : Nat) (raw : List UInt8) :
    (match ModifiedUtf8.decode raw with
      | some text => pure (utf8 text)
      | none => Read.fail (.badText index) (some start) : Read Constant).Recognizes
      fun c bytes => (∃ text, ModifiedUtf8.decode raw = some text ∧ c = utf8 text) ∧
        bytes = [] := by
  cases hdecode : ModifiedUtf8.decode raw with
  | none => exact (Read.recognizes_fail _ _).congr fun c bytes => by simp
  | some text => exact (Read.recognizes_pure _).congr fun c bytes => by simp

/-- A text that can be read is well formed, and the other way round. -/
theorem recognizes_readText (index start : Nat) :
    (readText index start).Recognizes (Content .utf8) := by
  rw [readText_eq]
  have hraw (n : Nat) :=
    (Read.recognizes_bytes n "utf8 bytes").bind_check (recognizes_decoded index start)
  refine ((Read.recognizes_value 2 "utf8 length").bind hraw).congr fun c bytes => ?_
  constructor
  · rintro ⟨n, length, body, hlength, ⟨_, ⟨rfl, rfl⟩, text, htext, rfl⟩, rfl⟩
    have hwell := ModifiedUtf8.isSome_decode_iff.mp (Option.isSome_of_mem htext)
    exact ⟨length, _, text, hlength, hwell, htext, rfl, rfl⟩
  · rintro ⟨length, body, text, hlength, -, htext, rfl, rfl⟩
    exact ⟨_, length, body, hlength, ⟨body, ⟨rfl, rfl⟩, text, htext, rfl⟩, rfl⟩

theorem recognizes_readHandle (index start : Nat) :
    (do
      let kind ← Read.u1 "reference_kind"
      if 1 ≤ kind ∧ kind ≤ 9 then
        let target ← Read.u2 "reference_index"
        return methodHandle kind target
      else Read.fail (.badReferenceKind index kind) (some start) : Read Constant).Recognizes
        (Content .methodHandle) := by
  have htarget (kind : Nat) :=
    ((Read.recognizes_value 2 "reference_index").map (methodHandle kind)).ite
      (p := 1 ≤ kind ∧ kind ≤ 9)
      (Read.recognizes_fail (.badReferenceKind index kind) (some start))
  refine ((Read.recognizes_value 1 "reference_kind").bind htarget).congr fun c bytes => ?_
  constructor
  · rintro ⟨kind, x, y, hx, h, rfl⟩
    split at h
    · rename_i hkind
      obtain ⟨target, hy, rfl⟩ := h
      exact ⟨kind, target, x, y, hkind, hx, hy, rfl, rfl⟩
    · exact h.elim
  · rintro ⟨kind, target, x, y, hkind, hx, hy, rfl, rfl⟩
    refine ⟨kind, x, y, hx, ?_, rfl⟩
    rw [if_pos hkind]
    exact ⟨target, hy, rfl⟩

/-- The content behind a tag is told by the number of the tag. -/
theorem recognizes_of_tag (tag : Tag) {r : Read Constant} (hr : r.Recognizes (Content tag)) :
    r.Recognizes fun c content => ∃ t : Tag, t.number = tag.number ∧ Content t c content := by
  refine hr.congr fun c content => ⟨fun h => ⟨tag, rfl, h⟩, ?_⟩
  rintro ⟨t, ht, h⟩
  rwa [← ConstantPool.number_injective ht]

/-- Exactly the spellings of constants are read. -/
theorem recognizes_read (index : Nat) : (Constant.read index).Recognizes SpelledBy := by
  refine Read.recognizes_bind_position fun start => ?_
  refine ((Read.recognizes_value 1 "constant tag").bind
    (Q := fun n c content => ∃ t : Tag, t.number = n ∧ Content t c content) fun n => ?_).congr ?_
  · split
    case h_1 => exact recognizes_of_tag .utf8 (recognizes_readText index start)
    case h_2 => exact recognizes_of_tag .integer (recognizes_word 4 _ _)
    case h_3 => exact recognizes_of_tag .float (recognizes_word 4 _ _)
    case h_4 => exact recognizes_of_tag .long (recognizes_word 8 _ _)
    case h_5 => exact recognizes_of_tag .double (recognizes_word 8 _ _)
    case h_6 => exact recognizes_of_tag .classRef (recognizes_readOne _)
    case h_7 => exact recognizes_of_tag .string (recognizes_readOne _)
    case h_8 => exact recognizes_of_tag .methodType (recognizes_readOne _)
    case h_9 => exact recognizes_of_tag .module (recognizes_readOne _)
    case h_10 => exact recognizes_of_tag .package (recognizes_readOne _)
    case h_11 => exact recognizes_of_tag .fieldRef (recognizes_readTwo _)
    case h_12 => exact recognizes_of_tag .methodRef (recognizes_readTwo _)
    case h_13 => exact recognizes_of_tag .interfaceMethodRef (recognizes_readTwo _)
    case h_14 => exact recognizes_of_tag .nameAndType (recognizes_readTwo _)
    case h_15 => exact recognizes_of_tag .dynamic (recognizes_readTwo _)
    case h_16 => exact recognizes_of_tag .invokeDynamic (recognizes_readTwo _)
    case h_17 => exact recognizes_of_tag .methodHandle (recognizes_readHandle index start)
    case h_18 =>
      refine (Read.recognizes_fail _ _).congr fun c content => ⟨False.elim, ?_⟩
      rintro ⟨t, ht, -⟩
      cases t <;> exact absurd ht.symm (by assumption)
  · intro c bytes
    constructor
    · rintro ⟨_, x, content, ⟨hlength, rfl⟩, ⟨t, ht, hcontent⟩, rfl⟩
      obtain ⟨b, rfl⟩ := List.length_eq_one_iff.mp hlength
      have hb : Binary.value [b] = b.toNat := by simp [Binary.value]
      refine ⟨t, content, ?_, hcontent⟩
      rw [ht, hb, UInt8.ofNat_toNat]
      rfl
    · rintro ⟨t, content, rfl, hcontent⟩
      have hvalue : Binary.value [UInt8.ofNat t.number] = t.number := by cases t <;> decide
      exact ⟨_, [UInt8.ofNat t.number], content, ⟨rfl, rfl⟩, ⟨t, hvalue.symm, hcontent⟩, rfl⟩

end Constant

/-! ### Places -/

namespace ConstantPool

open PoolBuilder (placesOf)

/-- The constants fill a number of places with these entries. An eight-byte literal at the last
place has no second place there. -/
inductive Fills : Nat → List Constant → List (Option Constant) → Prop
  | nil : Fills 0 [] []
  | narrow {n : Nat} {c : Constant} {cs : List Constant} {es : List (Option Constant)}
      (hc : c.isWide = false) (hcs : Fills n cs es) : Fills (n + 1) (c :: cs) (some c :: es)
  | wide {n : Nat} {c : Constant} {cs : List Constant} {es : List (Option Constant)}
      (hc : c.isWide = true) (hcs : Fills n cs es) : Fills (n + 2) (c :: cs) (some c :: none :: es)
  | cut {c : Constant} (hc : c.isWide = true) : Fills 1 [c] [some c]

/-- The bytes spell constants that fill the places. -/
def SpelledEntries (places : Nat) (es : List (Option Constant)) (bytes : List UInt8) : Prop :=
  ∃ cs pieces, List.Forall₂ Constant.SpelledBy cs pieces ∧ bytes = pieces.flatten ∧
    Fills places cs es

theorem recognizes_readEntries (places index : Nat) :
    (readEntries places index).Recognizes (SpelledEntries places) := by
  fun_induction readEntries places index with
  | case1 index =>
      refine (Read.recognizes_pure []).congr fun es bytes => ?_
      constructor
      · rintro ⟨rfl, rfl⟩
        exact ⟨[], [], .nil, rfl, .nil⟩
      · rintro ⟨_, _, hpieces, rfl, ⟨⟩⟩
        cases hpieces
        exact ⟨rfl, rfl⟩
  | case2 index =>
      refine ((Constant.recognizes_read index).map fun c => [some c]).congr fun es bytes => ?_
      constructor
      · rintro ⟨c, hc, rfl⟩
        refine ⟨[c], [bytes], .cons hc .nil, by simp, ?_⟩
        cases hwide : c.isWide with
        | true => exact .cut hwide
        | false => exact .narrow hwide .nil
      · rintro ⟨_, _, hpieces, rfl, hfills⟩
        cases hfills with
        | narrow hc hcs =>
            cases hcs
            obtain ⟨piece, _, hpiece, ⟨⟩, rfl⟩ := List.forall₂_cons_left_iff.mp hpieces
            exact ⟨_, by simpa using hpiece, rfl⟩
        | cut hc =>
            obtain ⟨piece, _, hpiece, ⟨⟩, rfl⟩ := List.forall₂_cons_left_iff.mp hpieces
            exact ⟨_, by simpa using hpiece, rfl⟩
  | case3 places index ihWide ihNarrow =>
      have hrest (c : Constant) := (ihWide.map (some c :: none :: ·)).ite (p := c.isWide = true)
        (ihNarrow.map (some c :: ·))
      refine ((Constant.recognizes_read index).bind hrest).congr fun es bytes => ?_
      constructor
      · rintro ⟨c, x, y, hx, h, rfl⟩
        split at h
        · rename_i hc
          obtain ⟨_, ⟨cs, pieces, hpieces, rfl, hfills⟩, rfl⟩ := h
          exact ⟨c :: cs, x :: pieces, .cons hx hpieces, rfl, .wide hc hfills⟩
        · rename_i hc
          obtain ⟨_, ⟨cs, pieces, hpieces, rfl, hfills⟩, rfl⟩ := h
          exact ⟨c :: cs, x :: pieces, .cons hx hpieces, rfl, .narrow (by simpa using hc) hfills⟩
      · rintro ⟨_, _, hpieces, rfl, hfills⟩
        cases hfills with
        | @narrow _ c cs es' hc hcs =>
            obtain ⟨piece, pieces, hpiece, hpieces', rfl⟩ := List.forall₂_cons_left_iff.mp hpieces
            refine ⟨c, piece, pieces.flatten, hpiece, ?_, rfl⟩
            rw [if_neg (by simp [hc])]
            exact ⟨es', ⟨cs, pieces, hpieces', rfl, hcs⟩, rfl⟩
        | @wide _ c cs es' hc hcs =>
            obtain ⟨piece, pieces, hpiece, hpieces', rfl⟩ := List.forall₂_cons_left_iff.mp hpieces
            refine ⟨c, piece, pieces.flatten, hpiece, ?_, rfl⟩
            rw [if_pos hc]
            exact ⟨es', ⟨cs, pieces, hpieces', rfl, hcs⟩, rfl⟩

theorem placesOf_cons (c : Constant) (cs : List Constant) :
    placesOf (c :: cs) = c.places ++ placesOf cs := List.flatMap_cons

/-- One more constant fills its own places. -/
theorem Fills.cons {n : Nat} {cs : List Constant} {es : List (Option Constant)}
    (h : Fills n cs es) (c : Constant) :
    Fills (n + c.places.length) (c :: cs) (c.places ++ es) := by
  rw [Constant.places]
  cases hc : c.isWide with
  | true => exact .wide hc h
  | false => exact .narrow hc h

/-- Constants that fill the places take them all and no more, or the last of them is an eight-byte
literal whose second place is cut off. -/
theorem fills_iff {n : Nat} {cs : List Constant} {es : List (Option Constant)} :
    Fills n cs es ↔ es.length = n ∧ (es = placesOf cs ∨ ∃ init last,
      cs = init ++ [last] ∧ last.isWide = true ∧ es = placesOf init ++ [some last]) := by
  constructor
  · intro h
    induction h with
    | nil => exact ⟨rfl, .inl rfl⟩
    | @narrow n c cs es hc _ ih | @wide n c cs es hc _ ih =>
        obtain ⟨rfl, rfl | ⟨init, last, rfl, hlast, rfl⟩⟩ := ih
        · exact ⟨rfl, .inl (by simp [placesOf_cons, Constant.places, hc])⟩
        · refine ⟨rfl, .inr ⟨c :: init, last, rfl, hlast, ?_⟩⟩
          simp [placesOf_cons, Constant.places, hc]
    | @cut c hc => exact ⟨rfl, .inr ⟨[], c, rfl, hc, rfl⟩⟩
  · rintro ⟨rfl, rfl | ⟨init, last, rfl, hlast, rfl⟩⟩
    · induction cs with
      | nil => exact .nil
      | cons c cs ih =>
          rw [placesOf_cons, List.length_append, Nat.add_comm]
          exact ih.cons c
    · induction init with
      | nil => exact .cut hlast
      | cons c init ih =>
          rw [placesOf_cons, List.append_assoc, List.length_append, Nat.add_comm]
          exact ih.cons c

/-- The last place of a list of constants is not the first one of an eight-byte literal. -/
theorem isWide_of_getLast?_placesOf {cs : List Constant} {c : Constant}
    (h : (placesOf cs).getLast? = some (some c)) : c.isWide = false := by
  obtain rfl | ⟨init, last, rfl⟩ := List.eq_nil_or_concat cs
  · exact nomatch h
  · have hplaces : placesOf (init ++ [last]) = placesOf init ++ last.places := by simp [placesOf]
    rw [List.concat_eq_append, hplaces, Constant.places] at h
    cases hlast : last.isWide with
    | true => simp [hlast] at h
    | false =>
        obtain rfl : last = c := by simpa [hlast] using h
        exact hlast

/-! ### References -/

/-- The index leads to a constant of one of the kinds. -/
def LeadsTo (p : ConstantPool) (index : Nat) (tags : List Tag) : Prop :=
  ∃ c, p.Holds index c ∧ c.tag ∈ tags

/-- The references of a constant lead to constants of the kinds that belong there. -/
def Backs (p : ConstantPool) : Constant → Prop
  | .classRef a | .string a | .methodType a | .module a | .package a => p.LeadsTo a [.utf8]
  | .fieldRef a b | .methodRef a b | .interfaceMethodRef a b =>
      p.LeadsTo a [.classRef] ∧ p.LeadsTo b [.nameAndType]
  | .nameAndType a b => p.LeadsTo a [.utf8] ∧ p.LeadsTo b [.utf8]
  | .dynamic _ b | .invokeDynamic _ b => p.LeadsTo b [.nameAndType]
  | .methodHandle _ b => p.LeadsTo b [.fieldRef, .methodRef, .interfaceMethodRef]
  | .utf8 _ | .integer _ | .float _ | .long _ | .double _ => True

theorem backs_iff {p : ConstantPool} {c : Constant} :
    p.Backs c ↔ ∀ x ∈ requirements c, p.LeadsTo x.1 x.2 := by
  cases c <;> simp [Backs, requirements]

/-- Every reference inside the pool leads where it should. -/
def Consistent (p : ConstantPool) : Prop := ∀ index c, p.Holds index c → p.Backs c

/-- The table of the entries from index 1 on. -/
def ofEntries (es : List (Option Constant)) : ConstantPool := ⟨(none :: es).toArray⟩

theorem checked_ofEntries_iff {es : List (Option Constant)} :
    (ofEntries es).Checked ↔ (ofEntries es).Consistent := by
  constructor
  · intro h index c hc
    exact backs_iff.mpr fun x hx => h index c hc.2 x.1 x.2 hx
  · intro h index c hc a tags hreq
    have hindex : index ≠ 0 := by
      rintro rfl
      exact nomatch hc
    exact backs_iff.mp (h index c ⟨hindex, hc⟩) (a, tags) hreq

/-! ### Pools -/

/-- The bytes begin with a count and with the spellings of the constants. -/
def Opens (count : Nat) (constants : List Constant) (bytes : List UInt8) : Prop :=
  ∃ head pieces tail, Binary.Spells 2 count head ∧
    List.Forall₂ Constant.SpelledBy constants pieces ∧ bytes = head ++ pieces.flatten ++ tail

/-- The bytes begin with a pool: a count that is not zero and constants that take the indexes below
it from 1 on, all of them and no others, with references that lead where they should. -/
def WellFormed (bytes : List UInt8) : Prop :=
  ∃ count constants, 1 ≤ count ∧ Opens count constants bytes ∧
    (placesOf constants).length = count - 1 ∧ (ofEntries (placesOf constants)).Consistent

/-- The bytes begin with a pool whose last constant is an eight-byte literal at the last index, so
that the second index of the literal is not below the count. -/
def CutShort (bytes : List UInt8) : Prop :=
  ∃ count constants last, Opens count (constants ++ [last]) bytes ∧ last.isWide = true ∧
    (placesOf constants).length + 2 = count ∧
    (ofEntries (placesOf constants ++ [some last])).Consistent

/-- What is read as a pool: a count, as many entries as it announces, and checked references. -/
def SpelledPool (p : ConstantPool) (bytes : List UInt8) : Prop :=
  ∃ count head content es, 1 ≤ count ∧ Binary.Spells 2 count head ∧
    SpelledEntries (count - 1) es content ∧ bytes = head ++ content ∧ p = ofEntries es ∧
    p.Consistent

/-- The table is given exactly if its references lead where they should. -/
theorem recognizes_check (es : List (Option Constant)) :
    (match (ofEntries es).firstFault? with
      | some (index, fault) => Read.fail (.badConstant index fault)
      | none => pure (ofEntries es) : Read ConstantPool).Recognizes fun p bytes =>
        (p = ofEntries es ∧ p.Consistent) ∧ bytes = [] := by
  cases hfault : (ofEntries es).firstFault? with
  | none =>
      have hes := checked_ofEntries_iff.mp (firstFault?_eq_none_iff.mp hfault)
      refine (Read.recognizes_pure _).congr fun p bytes => and_congr_left fun _ => ?_
      exact ⟨fun hp => ⟨hp, hp ▸ hes⟩, And.left⟩
  | some fault =>
      refine (Read.recognizes_fail _ _).congr fun p bytes => ⟨False.elim, ?_⟩
      rintro ⟨⟨rfl, hes⟩, -⟩
      rw [firstFault?_eq_none_iff.mpr (checked_ofEntries_iff.mpr hes)] at hfault
      exact nomatch hfault

theorem recognizes_read : ConstantPool.read.Recognizes SpelledPool := by
  rw [read_eq]
  have hentries (start count : Nat) :=
    (Read.recognizes_fail (α := ConstantPool) .emptyPool (some start)).ite (p := count = 0)
      ((recognizes_readEntries (count - 1) 1).bind_check recognizes_check)
  refine Read.recognizes_bind_position fun start => ?_
  refine ((Read.recognizes_value 2 "constant_pool_count").bind (hentries start)).congr
    fun p bytes => ?_
  constructor
  · rintro ⟨count, head, content, hhead, h, rfl⟩
    split at h
    · exact h.elim
    · rename_i hcount
      obtain ⟨es, hes, hp⟩ := h
      exact ⟨count, head, content, es, Nat.one_le_iff_ne_zero.mpr hcount, hhead, hes, rfl, hp⟩
  · rintro ⟨count, head, content, es, hcount, hhead, hes, rfl, hp⟩
    refine ⟨count, head, content, hhead, ?_, rfl⟩
    rw [if_neg (Nat.one_le_iff_ne_zero.mp hcount)]
    exact ⟨es, hes, hp⟩

/-- What is read, whatever follows the pool. -/
theorem exists_read_eq_ok_iff {bytes : List UInt8} {pos : Nat} {p : ConstantPool} :
    (∃ c, ConstantPool.read ⟨bytes, pos⟩ = .ok (p, c)) ↔
      ∃ count constants es, 1 ≤ count ∧ Opens count constants bytes ∧
        Fills (count - 1) constants es ∧ p = ofEntries es ∧ p.Consistent := by
  simp only [recognizes_read _ _ _]
  constructor
  · rintro ⟨c, _, ⟨count, head, _, es, hcount, hhead, ⟨cs, pieces, hpieces, rfl, hfills⟩, rfl, hp⟩,
      hrest, -⟩
    exact ⟨count, cs, es, hcount, ⟨head, pieces, c.rest, hhead, hpieces, hrest⟩, hfills, hp⟩
  · rintro ⟨count, cs, es, hcount, ⟨head, pieces, tail, hhead, hpieces, rfl⟩, hfills, hp⟩
    have hentries : SpelledEntries (count - 1) es pieces.flatten :=
      ⟨cs, pieces, hpieces, rfl, hfills⟩
    exact ⟨⟨tail, _⟩, _, ⟨count, head, _, es, hcount, hhead, hentries, rfl, hp⟩, rfl, rfl⟩

/-- A well-formed pool is read as the table of its constants. -/
theorem WellFormed.exists_read {bytes : List UInt8} (h : WellFormed bytes) (pos : Nat) :
    ∃ constants c, ConstantPool.read ⟨bytes, pos⟩ = .ok (ofEntries (placesOf constants), c) := by
  obtain ⟨count, cs, hcount, hopens, hlength, hcs⟩ := h
  have hfills : Fills (count - 1) cs (placesOf cs) := fills_iff.mpr ⟨hlength, .inl rfl⟩
  exact ⟨cs, exists_read_eq_ok_iff.mpr ⟨count, cs, _, hcount, hopens, hfills, rfl, hcs⟩⟩

/-- A pool that is cut short is read too. -/
theorem CutShort.exists_read {bytes : List UInt8} (h : CutShort bytes) (pos : Nat) :
    ∃ constants last c, last.isWide = true ∧ ConstantPool.read ⟨bytes, pos⟩ =
      .ok (ofEntries (placesOf constants ++ [some last]), c) := by
  obtain ⟨count, cs, last, hopens, hlast, hlength, hcs⟩ := h
  have hfills : Fills (count - 1) (cs ++ [last]) (placesOf cs ++ [some last]) := by
    refine fills_iff.mpr ⟨?_, .inr ⟨cs, last, rfl, hlast, rfl⟩⟩
    rw [List.length_append, List.length_singleton]
    omega
  obtain ⟨c, hread⟩ := exists_read_eq_ok_iff.mpr
    ⟨count, _, _, by omega, hopens, hfills, rfl, hcs⟩
  exact ⟨cs, last, c, hlast, hread⟩

/-- A pool that is cut short is not well formed: the table ends differently. -/
theorem CutShort.not_wellFormed {bytes : List UInt8} (h : CutShort bytes) : ¬ WellFormed bytes := by
  intro hwell
  obtain ⟨cs, c, hread⟩ := hwell.exists_read 0
  obtain ⟨cs', last, c', hlast, hread'⟩ := h.exists_read 0
  rw [hread, Except.ok.injEq, Prod.mk.injEq, ofEntries, ofEntries] at hread'
  have hentries : placesOf cs = placesOf cs' ++ [some last] := by simpa using hread'.1
  have hend : (placesOf cs).getLast? = some (some last) := by simp [hentries]
  have hnarrow := isWide_of_getLast?_placesOf hend
  rw [hlast] at hnarrow
  exact nomatch hnarrow

/-- **Which byte strings are read as constant pools.** They are the well-formed ones, and those that
end in an eight-byte literal without the index behind it; no pool is both. -/
theorem read_succeeds_iff (bytes : List UInt8) (pos : Nat) :
    ((∃ p c, ConstantPool.read ⟨bytes, pos⟩ = .ok (p, c)) ↔ WellFormed bytes ∨ CutShort bytes) ∧
      ¬ (WellFormed bytes ∧ CutShort bytes) := by
  refine ⟨⟨?_, ?_⟩, fun h => h.2.not_wellFormed h.1⟩
  · rintro ⟨p, c, hread⟩
    obtain ⟨count, cs, es, hcount, hopens, hfills, rfl, hes⟩ := exists_read_eq_ok_iff.mp ⟨c, hread⟩
    obtain ⟨hlength, rfl | ⟨init, last, rfl, hlast, rfl⟩⟩ := fills_iff.mp hfills
    · exact .inl ⟨count, cs, hcount, hopens, hlength, hes⟩
    · rw [List.length_append, List.length_singleton] at hlength
      exact .inr ⟨count, init, last, hopens, hlast, by omega, hes⟩
  · rintro (h | h)
    · obtain ⟨cs, c, hread⟩ := h.exists_read pos
      exact ⟨_, c, hread⟩
    · obtain ⟨cs, last, c, -, hread⟩ := h.exists_read pos
      exact ⟨_, c, hread⟩

/-- A pool of one place with an eight-byte literal in it. -/
def loneLong : List UInt8 := [0, 2, 5, 0, 0, 0, 0, 0, 0, 0, 1]

/-- A pool is accepted although the second index of its literal is not below the count. -/
theorem loneLong_accepted :
    (∃ p c, ConstantPool.read ⟨loneLong, 0⟩ = .ok (p, c)) ∧ ¬ WellFormed loneLong := by
  have hcut : CutShort loneLong := by
    have hlong : (Constant.long 1).SpelledBy [5, 0, 0, 0, 0, 0, 0, 0, 1] :=
      ⟨.long, _, rfl, 1, ⟨rfl, rfl⟩, rfl⟩
    have hopens : Opens 2 [.long 1] loneLong :=
      ⟨[0, 2], [_], [], ⟨rfl, rfl⟩, .cons hlong .nil, rfl⟩
    refine ⟨2, [], .long 1, hopens, rfl, rfl, ?_⟩
    -- The literal at index 1 refers to nothing, and there is no other entry.
    rintro index c ⟨-, hc⟩
    match index with
    | 0 => exact nomatch hc
    | 1 =>
      obtain rfl := Option.some.inj (Option.some.inj hc)
      trivial
    | n + 2 => exact nomatch hc
  obtain ⟨cs, last, c, -, hread⟩ := hcut.exists_read 0
  exact ⟨⟨_, c, hread⟩, hcut.not_wellFormed⟩

end ConstantPool

end ClassAudit
