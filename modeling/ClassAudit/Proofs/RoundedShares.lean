import ClassAudit.Rounding
import Mathlib.Algebra.Order.Field.Rat
import Mathlib.Data.Nat.Cast.Order.Field
import Mathlib.Tactic.FieldSimp
import Mathlib.Tactic.Linarith
import Mathlib.Tactic.Positivity
import Mathlib.Tactic.Ring

/-!
# Comparing rounded shares

A share is computed with 53 significant bits, so it is off by less than its 2 ^ 53th part. Two
different shares with small denominators are further apart than that. Equal shares, however they are
written, are rounded alike. So shares are compared by their rounded values as they are compared
exactly.

## Main definitions

* `Binary53.value` - the rational number that is represented.
* `Binary53.Fits` - the scale at which a quotient has 53 significant bits.

## Main statements

* `Binary53.near_ofQuotient` - how far a rounded quotient is off.
* `Binary53.ofQuotient_congr` - equal quotients are rounded alike.
* `Binary53.less_ofQuotient_iff` - rounded shares are compared like the shares.
-/

namespace ClassAudit

/-! ### The nearest integer -/

section RoundDiv

variable {a b k : Nat}

/-- The nearest integer is at most one half away. -/
theorem near_roundDiv (hb : 0 < b) :
    2 * a ≤ 2 * (b * roundDiv a b) + b ∧ 2 * (b * roundDiv a b) ≤ 2 * a + b := by
  have hdiv := Nat.div_add_mod a b
  have hmod := Nat.mod_lt a hb
  rw [roundDiv]
  split
  · rw [Nat.mul_succ]
    omega
  · omega

theorem roundDiv_mul_left (hk : 0 < k) (a b : Nat) : roundDiv (k * a) (k * b) = roundDiv a b := by
  have hhalf (r : Nat) : 2 * (k * r) = k * (2 * r) := by ring
  simp only [roundDiv, Nat.mul_div_mul_left _ _ hk, Nat.mul_mod_mul_left, hhalf, gt_iff_lt,
    Nat.mul_lt_mul_left hk, Nat.mul_right_inj hk.ne']

end RoundDiv

namespace Binary53

/-! ### Values -/

/-- The number that is represented. -/
def value (x : Binary53) : ℚ := x.mantissa / 2 ^ x.scale

theorem less_iff {x y : Binary53} : x.less y = true ↔ x.value < y.value := by
  rw [less, decide_eq_true_eq, value, value, div_lt_div_iff₀ (by positivity) (by positivity),
    Nat.shiftLeft_eq, Nat.shiftLeft_eq]
  exact_mod_cast Iff.rfl

/-- At this scale, the quotient has 53 significant bits. -/
structure Fits (a b scale : Nat) : Prop where
  lower : b * 2 ^ 52 ≤ a * 2 ^ scale
  upper : a * 2 ^ scale < b * 2 ^ 53

section Quotients

variable {a b c d s t : Nat}

/-- The smaller quotient has the larger scale. -/
theorem Fits.le (h : Fits a b s) (h' : Fits c d t) (hle : c * b ≤ a * d) : s ≤ t := by
  by_contra hlt
  have hpow : 2 ^ (t + 1) ≤ 2 ^ s := Nat.pow_le_pow_right (by decide) (by omega)
  have hd : 0 < d := Nat.pos_of_ne_zero fun hd => by
    have := h'.upper
    simp [hd] at this
  have hchain : b * 2 ^ 53 * d < b * 2 ^ 53 * d :=
    calc b * 2 ^ 53 * d = 2 * b * (d * 2 ^ 52) := by ring
      _ ≤ 2 * b * (c * 2 ^ t) := Nat.mul_le_mul_left _ h'.lower
      _ = c * b * 2 ^ (t + 1) := by ring
      _ ≤ a * d * 2 ^ s := Nat.mul_le_mul hle hpow
      _ = a * 2 ^ s * d := by ring
      _ < b * 2 ^ 53 * d := Nat.mul_lt_mul_of_pos_right h.upper hd
  exact lt_irrefl _ hchain

/-- A share is rounded at the scale where it has 53 significant bits. -/
theorem exists_fits (ha : 0 < a) (hle : a ≤ b) :
    ∃ s, Fits a b s ∧ ofQuotient a b = ⟨roundDiv (a * 2 ^ s) b, s⟩ := by
  have hb : b ≠ 0 := by omega
  have hlog : a.log2 ≤ b.log2 := (Nat.le_log2 hb).mpr ((Nat.log2_self_le ha.ne').trans hle)
  obtain ⟨k, hk⟩ : ∃ k, 52 + b.log2 - a.log2 = k := ⟨_, rfl⟩
  have hpow : 2 ^ a.log2 * 2 ^ k = 2 ^ 52 * 2 ^ b.log2 := by
    rw [← Nat.pow_add, ← Nat.pow_add]
    congr 1
    omega
  have hlow : b * 2 ^ 52 < 2 * (a * 2 ^ k) :=
    calc b * 2 ^ 52 < 2 ^ (b.log2 + 1) * 2 ^ 52 :=
          Nat.mul_lt_mul_of_pos_right Nat.lt_log2_self (by decide)
      _ = 2 * (2 ^ a.log2 * 2 ^ k) := by rw [hpow]; ring
      _ ≤ 2 * (a * 2 ^ k) :=
          Nat.mul_le_mul_left 2 (Nat.mul_le_mul_right _ (Nat.log2_self_le ha.ne'))
  have hhigh : a * 2 ^ k < b * 2 ^ 53 :=
    calc a * 2 ^ k < 2 ^ (a.log2 + 1) * 2 ^ k :=
          Nat.mul_lt_mul_of_pos_right Nat.lt_log2_self (by positivity)
      _ = 2 * (2 ^ a.log2 * 2 ^ k) := by ring
      _ = 2 ^ b.log2 * 2 ^ 53 := by rw [hpow]; ring
      _ ≤ b * 2 ^ 53 := Nat.mul_le_mul_right _ (Nat.log2_self_le hb)
  simp only [ofQuotient, hk, Nat.shiftLeft_eq]
  split
  · rename_i hsmall
    have hdouble : a * 2 ^ (k + 1) = 2 * (a * 2 ^ k) := by ring
    exact ⟨k + 1, ⟨by omega, by omega⟩, rfl⟩
  · rename_i hlarge
    exact ⟨k, ⟨not_lt.mp hlarge, hhigh⟩, rfl⟩

/-- Equal quotients are rounded alike. -/
theorem ofQuotient_congr (ha : 0 < a) (hab : a ≤ b) (hc : 0 < c) (hcd : c ≤ d)
    (heq : a * d = c * b) : ofQuotient a b = ofQuotient c d := by
  obtain ⟨s, hs, hround⟩ := exists_fits ha hab
  obtain ⟨t, ht, hround'⟩ := exists_fits hc hcd
  obtain rfl : s = t := le_antisymm (hs.le ht heq.ge) (ht.le hs heq.le)
  have hscaled : d * (a * 2 ^ s) = b * (c * 2 ^ s) := by
    calc d * (a * 2 ^ s) = a * d * 2 ^ s := by ring
      _ = b * (c * 2 ^ s) := by rw [heq]; ring
  rw [hround, hround', ← roundDiv_mul_left (by omega : 0 < d) (a * 2 ^ s) b,
    ← roundDiv_mul_left (by omega : 0 < b) (c * 2 ^ s) d, hscaled, Nat.mul_comm d b]

theorem value_ofQuotient_zero (b : Nat) : (ofQuotient 0 b).value = 0 := by
  simp [value, ofQuotient, roundDiv]

/-- A rounded share is off by at most its 2 ^ 53th part. -/
theorem near_ofQuotient (hb : 0 < b) (hab : a ≤ b) :
    (a / b : ℚ) - a / b / 2 ^ 53 ≤ (ofQuotient a b).value ∧
      (ofQuotient a b).value ≤ (a / b : ℚ) + a / b / 2 ^ 53 := by
  rcases Nat.eq_zero_or_pos a with rfl | ha
  · simp [value_ofQuotient_zero b]
  obtain ⟨s, hfits, hround⟩ := exists_fits ha hab
  obtain ⟨hlow, hhigh⟩ := near_roundDiv (a := a * 2 ^ s) hb
  rw [hround, value]
  generalize roundDiv (a * 2 ^ s) b = m at hlow hhigh
  have hb' : (0 : ℚ) < b := by exact_mod_cast hb
  have hfits' : (b : ℚ) * 2 ^ 52 ≤ a * 2 ^ s := by exact_mod_cast hfits.lower
  have hlow' : 2 * ((a : ℚ) * 2 ^ s) ≤ 2 * (b * m) + b := by exact_mod_cast hlow
  have hhigh' : 2 * ((b : ℚ) * m) ≤ 2 * (a * 2 ^ s) + b := by exact_mod_cast hhigh
  constructor
  · rw [le_div_iff₀ (by positivity)]
    field_simp
    linarith
  · rw [div_le_iff₀ (by positivity)]
    field_simp
    linarith

/-- Different shares with small denominators are further apart than rounding takes them. -/
theorem value_lt_value (hd : 0 < d) (hab : a ≤ b) (hcd : c ≤ d) (hsmall : b * d < 2 ^ 52)
    (hlt : a * d < c * b) : (ofQuotient a b).value < (ofQuotient c d).value := by
  have hb : 0 < b := Nat.pos_of_ne_zero fun hb => by simp [hb] at hlt
  have hb' : (0 : ℚ) < b := by exact_mod_cast hb
  have hd' : (0 : ℚ) < d := by exact_mod_cast hd
  have hx : (a / b : ℚ) ≤ 1 := (div_le_one hb').mpr (by exact_mod_cast hab)
  have hy : (c / d : ℚ) ≤ 1 := (div_le_one hd').mpr (by exact_mod_cast hcd)
  have hgap : (1 : ℚ) / 2 ^ 52 < c / d - a / b := by
    have hlt' : (a : ℚ) * d + 1 ≤ c * b := by exact_mod_cast hlt
    have hsmall' : (b : ℚ) * d < 2 ^ 52 := by exact_mod_cast hsmall
    rw [div_sub_div _ _ hd'.ne' hb'.ne', div_lt_div_iff₀ (by positivity) (by positivity)]
    linarith
  have hleft := (near_ofQuotient hb hab).2
  have hright := (near_ofQuotient hd hcd).1
  linarith

/-- **Rounded shares are compared like the shares.** -/
theorem less_ofQuotient_iff (hb : 0 < b) (hd : 0 < d) (hab : a ≤ b) (hcd : c ≤ d)
    (hsmall : b * d < 2 ^ 52) : (ofQuotient a b).less (ofQuotient c d) = true ↔ a * d < c * b := by
  rw [less_iff]
  rcases lt_trichotomy (a * d) (c * b) with hlt | heq | hgt
  · exact iff_of_true (value_lt_value hd hab hcd hsmall hlt) hlt
  · refine iff_of_false (fun hlt => ?_) heq.not_lt
    rcases Nat.eq_zero_or_pos a with rfl | ha
    · rw [Nat.zero_mul] at heq
      obtain rfl := (Nat.mul_eq_zero.mp heq.symm).resolve_right hb.ne'
      rw [value_ofQuotient_zero b, value_ofQuotient_zero d] at hlt
      exact lt_irrefl _ hlt
    · have hc : 0 < c := Nat.pos_of_mul_pos_right (heq ▸ Nat.mul_pos ha hd)
      rw [ofQuotient_congr ha hab hc hcd heq] at hlt
      exact lt_irrefl _ hlt
  · refine iff_of_false (fun hlt => lt_asymm hlt ?_) (lt_asymm hgt)
    exact value_lt_value hb hcd hab (Nat.mul_comm b d ▸ hsmall) hgt

end Quotients

end Binary53

end ClassAudit
