import ClassAudit.Text.LowerCase
import Mathlib.Data.List.Basic

/-!
# Lower case is stable

The table of upper-case characters is a list of runs, each of which is moved by one distance. No run
is moved onto a character of another run or of itself, so a character that was put into lower case
stays as it is, and so does a text.

## Main definitions

* `Text.CaseRun.lowest`, `highest` - the ends of the images of a run.
* `Text.CaseRun.Misses` - no image of one run is held by another.

## Main statements

* `Text.misses_caseRuns` - the images of the table lie beside it.
* `Text.lower_lower` - a text in lower case stays as it is.
-/

namespace ClassAudit.Text

namespace CaseRun

/-- The image of the first character of a run. -/
def lowest (r : CaseRun) : Nat := (r.first + r.shift).toNat

/-- The image of the last character of a run. -/
def highest (r : CaseRun) : Nat := (r.last + r.shift).toNat

/-- The images of `r` lie before or after `s`, or between its characters. -/
def misses (r s : CaseRun) : Bool :=
  s.last.blt r.lowest || r.highest.blt s.first ||
    ((r.step.beq 2 || r.first.beq r.last) && s.step.beq 2 && ((r.lowest + s.first) % 2).beq 1)

/-- The images of a run are characters, and those below U+0080 are lower-case letters. -/
def proper (r : CaseRun) : Bool :=
  (r.highest.blt 0xd800 || (Nat.blt 0xdfff r.lowest && r.highest.blt 0x110000)) &&
    (Nat.blt 0x7f r.lowest || (Nat.blt 0x60 r.lowest && r.highest.blt 0x7b)) &&
    Nat.ble (-r.shift).toNat r.first

variable {r s : CaseRun} {n : Nat}

theorem holds_iff : r.holds n = true ↔
    r.first ≤ n ∧ n ≤ r.last ∧ (n - r.first) % r.step = 0 := by
  simp [holds, and_assoc]

theorem misses_iff : r.misses s = true ↔ s.last < r.lowest ∨ r.highest < s.first ∨
    (r.step = 2 ∨ r.first = r.last) ∧ s.step = 2 ∧ (r.lowest + s.first) % 2 = 1 := by
  simp [misses, or_assoc, and_assoc, Nat.blt_eq]

theorem proper_iff : r.proper = true ↔
    (r.highest < 0xd800 ∨ 0xdfff < r.lowest ∧ r.highest < 0x110000) ∧
    (0x7f < r.lowest ∨ 0x60 < r.lowest ∧ r.highest < 0x7b) ∧ (-r.shift).toNat ≤ r.first := by
  simp [proper, and_assoc, Nat.blt_eq]

/-- The image of a character lies between the ends of the images. -/
theorem image_between (hproper : r.proper) (hn : r.holds n) :
    r.lowest ≤ (n + r.shift).toNat ∧ (n + r.shift).toNat ≤ r.highest := by
  obtain ⟨-, -, hshift⟩ := proper_iff.mp hproper
  obtain ⟨hfirst, hlast, -⟩ := holds_iff.mp hn
  rw [lowest, highest]
  omega

/-- No image of a run is held by a run that it misses. -/
theorem holds_image (hproper : r.proper) (hmisses : r.misses s) (hn : r.holds n) :
    s.holds (n + r.shift).toNat = false := by
  obtain ⟨hlowest, hhighest⟩ := image_between hproper hn
  obtain ⟨-, -, hshift⟩ := proper_iff.mp hproper
  obtain ⟨hfirst, hlast, hstep⟩ := holds_iff.mp hn
  rw [Bool.eq_false_iff, ne_eq, holds_iff]
  rintro ⟨hfirst', hlast', hstep'⟩
  rcases misses_iff.mp hmisses with hbefore | hafter | ⟨heven, htwo, hodd⟩
  · omega
  · omega
  · -- both runs go in steps of two, one of them beside the other
    rw [htwo] at hstep'
    rw [lowest] at hodd
    rcases heven with heven | hsingle
    · rw [heven] at hstep
      omega
    · omega

end CaseRun

/-- The images of the table lie beside it. -/
theorem misses_caseRuns : (caseRuns.all fun r => r.proper && caseRuns.all r.misses) = true := by
  decide +kernel

theorem toLower_toLower_of_lt {c : Char} (h : c.toNat < 0x80) :
    c.toLower.toNat < 0x80 ∧ c.toLower.toLower = c.toLower := by
  have htable : ∀ n < 0x80, (Char.ofNat n).toLower.toNat < 0x80 ∧
      (Char.ofNat n).toLower.toLower = (Char.ofNat n).toLower := by decide +kernel
  have hc := htable c.toNat h
  rwa [Char.ofNat_toNat] at hc

/-- A lower-case letter stays as it is. -/
theorem toLower_of_letter {c : Char} (hc : 0x60 < c.toNat ∧ c.toNat < 0x7b) : c.toLower = c := by
  have htable : ∀ n < 0x7b, 0x60 < n → (Char.ofNat n).toLower = Char.ofNat n := by decide +kernel
  have hletter := htable c.toNat hc.2 hc.1
  rwa [Char.ofNat_toNat] at hletter

/-- A character in lower case stays as it is. -/
theorem lowerChar_lowerChar (c : Char) : lowerChar (lowerChar c) = lowerChar c := by
  by_cases hascii : c.toNat < 0x80
  · obtain ⟨hlower, hstable⟩ := toLower_toLower_of_lt hascii
    have himage : lowerChar c = c.toLower := if_pos hascii
    rw [himage, lowerChar, if_pos hlower, hstable]
  · cases hfind : caseRuns.find? (·.holds c.toNat) with
    | none =>
        have himage : lowerChar c = c := by rw [lowerChar, if_neg hascii, hfind]
        rw [himage, himage]
    | some r =>
        have himage : lowerChar c = Char.ofNat (c.toNat + r.shift).toNat := by
          rw [lowerChar, if_neg hascii, hfind]
        have hholds := List.find?_some hfind
        have hr := List.all_eq_true.mp misses_caseRuns r (List.mem_of_find?_eq_some hfind)
        rw [Bool.and_eq_true, List.all_eq_true] at hr
        obtain ⟨hproper, hmisses⟩ := hr
        obtain ⟨hvalid, hletter, -⟩ := CaseRun.proper_iff.mp hproper
        obtain ⟨hlowest, hhighest⟩ := CaseRun.image_between hproper hholds
        have hnumber :
            (Char.ofNat (c.toNat + r.shift).toNat).toNat = (c.toNat + r.shift).toNat := by
          have hchar : (c.toNat + r.shift).toNat.isValidChar := by
            rw [Nat.isValidChar]
            omega
          rw [Char.ofNat, dif_pos hchar]
          rfl
        have hnone : caseRuns.find? (·.holds (c.toNat + r.shift).toNat) = none := by
          rw [List.find?_eq_none]
          intro s hs
          rw [CaseRun.holds_image hproper (hmisses s hs) hholds]
          exact Bool.false_ne_true
        rw [himage, lowerChar, hnumber, hnone]
        split
        · exact toLower_of_letter (by omega)
        · rfl

/-- A text in lower case stays as it is. -/
theorem lower_lower (s : String) : lower (lower s) = lower s := by
  rw [lower, lower, String.map_map]
  congr 1
  funext c
  exact lowerChar_lowerChar c

end ClassAudit.Text
