import ClassAudit.Assembly.PoolBuilder
import ClassAudit.Proofs.PoolLookup
import ClassAudit.Proofs.TextRoundTrip

/-!
# The table of a built pool

A pool that is being built stands for a table: its constants in order, each at one place or at
two. The bytes of the pool are read back as that table, provided that every number in it fits
its word and that every reference inside it leads where it should.

## Main definitions

* `Constant.places`, `Constant.Fits` - the places that a constant takes; its numbers fit.
* `PoolBuilder.slots`, `PoolBuilder.table` - how many places are taken, and by what.

## Main statements

* `Constant.yields_read` - a constant is read back from its bytes.
* `PoolBuilder.yields_read` - a pool is read back as its table.
-/

namespace ClassAudit

namespace Constant

/-- The places of the pool that a constant takes: the one after an eight-byte literal stays
empty. -/
def places (c : Constant) : List (Option Constant) := if c.isWide then [some c, none] else [some c]

/-- The numbers of the constant fit the words that they are written to. -/
def Fits : Constant → Prop
  | utf8 text => (Text.ModifiedUtf8.encode text).length < 65536
  | integer bits | float bits => bits < 4294967296
  | long bits | double bits => bits < 18446744073709551616
  | Constant.classRef a | string a | methodType a | module a | package a => a < 65536
  | fieldRef a b | methodRef a b | interfaceMethodRef a b | nameAndType a b | dynamic a b
  | invokeDynamic a b => a < 65536 ∧ b < 65536
  | methodHandle kind b => (1 ≤ kind ∧ kind ≤ 9) ∧ b < 65536

theorem yields_tag (t : Tag) (item : String) (pos : Nat) :
    (Read.u1 item).Yields pos [UInt8.ofNat t.number] (.ok t.number) := by
  have h := Read.yields_value [UInt8.ofNat t.number] item pos
  have hvalue : Binary.value [UInt8.ofNat t.number] = t.number := by cases t <;> decide
  rwa [hvalue] at h

theorem yields_readOne {a : Nat} (ha : a < 65536) (make : Nat → Constant) (pos : Nat) :
    (readOne make).Yields pos (Binary.u2 a) (.ok (make a)) :=
  (Read.yields_u2_of_lt ha _ pos).map make

theorem yields_readTwo {a b : Nat} (h : a < 65536 ∧ b < 65536) (make : Nat → Nat → Constant)
    (pos : Nat) :
    (readTwo make).Yields pos (Binary.u2 a ++ Binary.u2 b) (.ok (make a b)) := by
  refine (Read.yields_u2_of_lt h.1 _ pos).bind_ok ?_
  exact (Read.yields_u2_of_lt h.2 _ _).bind_last (Read.yields_pure _ _)

/-- A number of a constant is read back from its word. -/
theorem yields_word (width : Nat) {bits : Nat} (h : bits < 2 ^ (8 * width)) (make : Nat → Constant)
    (pos : Nat) :
    ((make ∘ Binary.value) <$> Read.bytes width "constant value").Yields pos
      (Binary.word width bits) (.ok (make bits)) := by
  have hread := (Read.yields_bytes (Binary.word width bits) "constant value" pos).map
    (make ∘ Binary.value)
  have hvalue : Binary.value (Binary.word width bits) = bits := by
    rw [Binary.value_word, Binary.wrap_of_lt h]
  rw [Binary.length_word] at hread
  show Read.Yields _ _ _ (.ok (make bits))
  nth_rewrite 2 [← hvalue]
  exact hread

/-- A text is read back from its length and its bytes. -/
theorem yields_text {text : List Char} (h : (Text.ModifiedUtf8.encode text).length < 65536)
    (index start pos : Nat) :
    (readText index start).Yields pos
      (Binary.u2 (Text.ModifiedUtf8.encode text).length ++ Text.ModifiedUtf8.encode text)
      (.ok (utf8 text)) := by
  rw [readText_eq]
  refine (Read.yields_u2_of_lt h _ pos).bind_ok ?_
  refine (Read.yields_bytes _ _ _).bind_last ?_
  rw [Text.ModifiedUtf8.decode_encode]
  exact Read.yields_pure _ _

/-- A constant whose numbers fit is read back from its bytes. -/
theorem yields_read {c : Constant} (h : c.Fits) (index pos : Nat) :
    (Constant.read index).Yields pos c.encode (.ok c) := by
  refine Read.yields_bind_position ((yields_tag c.tag _ pos).bind_cons ?_)
  cases c with
  | utf8 text => exact yields_text h _ _ _
  | integer bits => exact yields_word 4 h _ _
  | float bits => exact yields_word 4 h _ _
  | long bits => exact yields_word 8 h _ _
  | double bits => exact yields_word 8 h _ _
  | classRef a => exact yields_readOne h _ _
  | string a => exact yields_readOne h _ _
  | methodType a => exact yields_readOne h _ _
  | module a => exact yields_readOne h _ _
  | package a => exact yields_readOne h _ _
  | fieldRef a b => exact yields_readTwo h _ _
  | methodRef a b => exact yields_readTwo h _ _
  | interfaceMethodRef a b => exact yields_readTwo h _ _
  | nameAndType a b => exact yields_readTwo h _ _
  | dynamic a b => exact yields_readTwo h _ _
  | invokeDynamic a b => exact yields_readTwo h _ _
  | methodHandle kind b =>
      have hkind : Binary.wrap 8 kind = kind := Binary.wrap_of_lt (by have := h.1.2; omega)
      have htag := Read.yields_u1 kind "reference_kind" (pos + 1)
      rw [hkind] at htag
      refine htag.bind_cons ?_
      rw [if_pos h.1]
      exact (Read.yields_u2_of_lt h.2 _ _).bind_last (Read.yields_pure _ _)

end Constant

namespace PoolBuilder

/-- The places that the constants of a list take. -/
def placesOf (cs : List Constant) : List (Option Constant) := cs.flatMap Constant.places

/-- The number of places that are taken. -/
def slots (p : PoolBuilder) : Nat := (placesOf p.constants.toList).length

/-- The table that the pool stands for. The first place is never used. -/
def table (p : PoolBuilder) : ConstantPool := ⟨(none :: placesOf p.constants.toList).toArray⟩

theorem size_table (p : PoolBuilder) : p.table.entries.size = p.slots + 1 := by
  simp [table, slots]

theorem eq_nil_of_placesOf_eq_nil {cs : List Constant} (h : placesOf cs = []) : cs = [] := by
  cases cs with
  | nil => rfl
  | cons c cs =>
      have hc : c.places = [] := (List.append_eq_nil_iff.mp h).1
      rw [Constant.places] at hc
      split at hc <;> exact nomatch hc

/-- Constants whose numbers fit are read back in order. -/
theorem yields_readEntries {cs : List Constant} (h : ∀ c ∈ cs, c.Fits) (index pos : Nat) :
    (ConstantPool.readEntries (placesOf cs).length index).Yields pos
      (cs.flatMap Constant.encode) (.ok (placesOf cs)) := by
  induction cs generalizing index pos with
  | nil => exact Read.yields_pure [] pos
  | cons c cs ih =>
      have hc := Constant.yields_read (h c List.mem_cons_self) index pos
      have hcs := ih fun d hd => h d (List.mem_cons_of_mem c hd)
      rw [placesOf, List.flatMap_cons, List.flatMap_cons, ← placesOf]
      cases hwide : c.isWide with
      | true =>
          have hplaces : c.places = [some c, none] := by rw [Constant.places, hwide]; rfl
          rw [hplaces]
          refine hc.bind_ok ?_
          rw [hwide]
          exact (hcs _ _).bind_last (Read.yields_pure _ _)
      | false =>
          have hplaces : c.places = [some c] := by rw [Constant.places, hwide]; rfl
          rw [hplaces, List.singleton_append]
          cases hrest : placesOf cs with
          | nil =>
              obtain rfl := eq_nil_of_placesOf_eq_nil hrest
              rw [List.flatMap_nil, List.append_nil]
              exact hc.bind_last (Read.yields_pure _ _)
          | cons place rest =>
              refine hc.bind_ok ?_
              rw [hwide]
              have hread := hcs (index + 1) (pos + c.encode.length)
              rw [hrest] at hread
              exact hread.bind_last (Read.yields_pure _ _)

/-- A pool is read back as its table: the count that it begins with is right, its numbers fit
their words, and its references lead where they should. -/
theorem yields_read {p : PoolBuilder} (hnext : p.next = p.slots + 1) (hslots : p.slots ≤ 65534)
    (hfits : ∀ c ∈ p.constants.toList, c.Fits) (hchecked : p.table.Checked) (pos : Nat) :
    ConstantPool.read.Yields pos p.encode (.ok p.table) := by
  rw [ConstantPool.read_eq]
  refine Read.yields_bind_position ((Read.yields_u2_of_lt (by omega) _ pos).bind_ok ?_)
  rw [if_neg (by omega), hnext, Nat.add_sub_cancel]
  refine (yields_readEntries hfits 1 _).bind_last ?_
  have hfault := ConstantPool.firstFault?_eq_none_iff.mpr hchecked
  rw [table] at hfault
  simp only [hfault]
  exact Read.yields_pure _ _

end PoolBuilder

end ClassAudit
