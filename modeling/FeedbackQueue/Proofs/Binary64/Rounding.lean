import FeedbackQueue.Binary64.Basic
import Mathlib.Algebra.Order.Field.Power
import Mathlib.Data.Rat.Cast.Order
import Mathlib.Tactic.FieldSimp
import Mathlib.Tactic.Linarith
import Mathlib.Tactic.NormNum
import Mathlib.Tactic.Positivity

/-!
# Rounding a quotient to a double

The exponent of a quotient is chosen so that the scaled quotient has fifty-three digits before
the point, or fewer where doubles are subnormal. So a quotient that is not too large always has
a nearest double.
-/

namespace FeedbackQueue

-- ---------------------------------------------------------------------------
-- Nearest natural numbers
-- ---------------------------------------------------------------------------

theorem le_roundHalfEven {num den : Nat} (hden : 0 < den) (h : k * den ≤ num) :
    k ≤ roundHalfEven num den := by
  have hfloor : k ≤ num / den := (Nat.le_div_iff_mul_le hden).mpr h
  simp only [roundHalfEven]
  split
  · exact hfloor
  · exact Nat.le_succ_of_le hfloor

theorem roundHalfEven_le {num den : Nat} (hden : 0 < den) (h : num ≤ k * den) :
    roundHalfEven num den ≤ k := by
  rcases Nat.lt_or_eq_of_le h with hlt | rfl
  · have hfloor : num / den < k := (Nat.div_lt_iff_lt_mul hden).mpr hlt
    simp only [roundHalfEven]
    split
    · exact Nat.le_of_lt hfloor
    · exact hfloor
  · simp [roundHalfEven, hden]

namespace Binary64

variable {num den : Nat} {e : Int} {negative : Bool}

-- ---------------------------------------------------------------------------
-- Scaled quotients
-- ---------------------------------------------------------------------------

theorem scale_pos (hden : 0 < den) : 0 < (scale num den e).2 := by
  simp only [scale, Nat.shiftLeft_eq]
  positivity

theorem scale_div : ((scale num den e).1 : ℚ) / (scale num den e).2 = num / den / 2 ^ e := by
  simp only [scale, Nat.shiftLeft_eq]
  push_cast
  obtain ⟨k, rfl | rfl⟩ := e.eq_nat_or_neg
  · simp
    field_simp
  · simp
    field_simp

theorem mul_le_scale (hden : 0 < den) (k : Nat) :
    k * (scale num den e).2 ≤ (scale num den e).1 ↔ (k : ℚ) * 2 ^ e ≤ num / den := by
  have hpos : (0 : ℚ) < (scale num den e).2 := by exact_mod_cast scale_pos hden
  rw [← le_div_iff₀ (by positivity), ← scale_div, le_div_iff₀ hpos]
  exact_mod_cast Iff.rfl

theorem scale_lt_mul (hden : 0 < den) (k : Nat) :
    (scale num den e).1 < k * (scale num den e).2 ↔ (num : ℚ) / den < k * 2 ^ e := by
  rw [← not_le, mul_le_scale hden, not_le]

/-- The leading digit of a quotient stands at its exponent. -/
theorem leading_spec (hnum : 0 < num) (hden : 0 < den) :
    (2 : ℚ) ^ leading num den ≤ num / den ∧ (num : ℚ) / den < 2 ^ (leading num den + 1) := by
  have hd : (0 : ℚ) < den := by exact_mod_cast hden
  have htwo : (2 : ℚ) ≠ 0 := two_ne_zero
  have hnum_le : (2 : ℚ) ^ (num.log2 : Int) ≤ num := by exact_mod_cast Nat.log2_self_le hnum.ne'
  have hnum_lt : (num : ℚ) < 2 ^ ((num.log2 : Int) + 1) := by exact_mod_cast Nat.lt_log2_self
  have hden_le : (2 : ℚ) ^ (den.log2 : Int) ≤ den := by exact_mod_cast Nat.log2_self_le hden.ne'
  have hden_lt : (den : ℚ) < 2 ^ ((den.log2 : Int) + 1) := by exact_mod_cast Nat.lt_log2_self
  -- The difference of the two exponents is right or one too large.
  obtain ⟨guess, hguess⟩ : ∃ guess : Int, guess = num.log2 - den.log2 := ⟨_, rfl⟩
  have hupper : (num : ℚ) / den < 2 ^ (guess + 1) := by
    rw [div_lt_iff₀ hd]
    calc (num : ℚ) < 2 ^ ((num.log2 : Int) + 1) := hnum_lt
      _ = 2 ^ (guess + 1) * 2 ^ (den.log2 : Int) := by
        rw [← zpow_add₀ htwo, hguess]
        congr 1
        omega
      _ ≤ 2 ^ (guess + 1) * den := by gcongr
  have hlower : (2 : ℚ) ^ (guess - 1) ≤ num / den := by
    rw [le_div_iff₀ hd]
    calc (2 : ℚ) ^ (guess - 1) * den ≤ 2 ^ (guess - 1) * 2 ^ ((den.log2 : Int) + 1) := by gcongr
      _ = 2 ^ (num.log2 : Int) := by
        rw [← zpow_add₀ htwo, hguess]
        congr 1
        omega
      _ ≤ num := hnum_le
  have hreach : (scale num den guess).2 ≤ (scale num den guess).1 ↔
      (2 : ℚ) ^ guess ≤ num / den := by
    simpa only [one_mul, Nat.cast_one] using @mul_le_scale num den guess hden 1
  simp only [leading, ← hguess, hreach]
  split
  · exact ⟨‹_›, hupper⟩
  · rw [sub_add_cancel]
    exact ⟨hlower, not_le.mp ‹_›⟩

-- ---------------------------------------------------------------------------
-- The range of doubles
-- ---------------------------------------------------------------------------

/-- The scaled quotient is rounded to at most fifty-three binary digits. -/
theorem rounded_le (hnum : 0 < num) (hden : 0 < den) :
    roundHalfEven (scale num den (unitExponent num den)).1 (scale num den (unitExponent num den)).2
      ≤ 2 ^ 53 := by
  refine roundHalfEven_le (scale_pos hden) (Nat.le_of_lt ((scale_lt_mul hden _).mpr ?_))
  have hexponent : leading num den + 1 ≤ 53 + unitExponent num den := by
    unfold unitExponent
    omega
  calc (num : ℚ) / den < 2 ^ (leading num den + 1) := (leading_spec hnum hden).2
    _ ≤ 2 ^ (53 + unitExponent num den) := zpow_le_zpow_right₀ one_le_two hexponent
    _ = ((2 ^ 53 : Nat) : ℚ) * 2 ^ unitExponent num den := by
      rw [zpow_add₀ two_ne_zero]
      norm_num

/-- It has all of them unless the quotient is subnormal. -/
theorem le_rounded (hnum : 0 < num) (hden : 0 < den) (hnormal : unitExponent num den ≠ -1074) :
    2 ^ 52 ≤ roundHalfEven (scale num den (unitExponent num den)).1
      (scale num den (unitExponent num den)).2 := by
  refine le_roundHalfEven (scale_pos hden) ((mul_le_scale hden _).mpr ?_)
  have hexponent : 52 + unitExponent num den = leading num den := by
    unfold unitExponent at hnormal ⊢
    omega
  calc ((2 ^ 52 : Nat) : ℚ) * 2 ^ unitExponent num den
      = 2 ^ (52 + unitExponent num den) := by
        rw [zpow_add₀ two_ne_zero]
        norm_num
    _ = 2 ^ leading num den := by rw [hexponent]
    _ ≤ num / den := (leading_spec hnum hden).1

theorem unitExponent_le (hnum : 0 < num) (hden : 0 < den) (h : num < 2 ^ 1023 * den) :
    unitExponent num den ≤ 970 := by
  have hd : (0 : ℚ) < den := by exact_mod_cast hden
  have hlt : (2 : ℚ) ^ leading num den < 2 ^ (1023 : Int) := by
    refine lt_of_le_of_lt (leading_spec hnum hden).1 ?_
    rw [div_lt_iff₀ hd]
    exact_mod_cast h
  have hleading : leading num den < 1023 := (zpow_lt_zpow_iff_right₀ one_lt_two).mp hlt
  unfold unitExponent
  omega

/-- A quotient below half the largest power of two in range has a nearest double. -/
theorem isSome_ofQuotient? (hden : 0 < den) (h : num < 2 ^ 1023 * den) :
    (ofQuotient? negative num den).isSome := by
  unfold ofQuotient?
  split
  · rfl
  · have hnum : 0 < num := Nat.pos_of_ne_zero ‹_›
    have hexponent := unitExponent_le hnum hden h
    have hle := rounded_le hnum hden
    have hnormal := le_rounded hnum hden
    have hmin : -1074 ≤ unitExponent num den := Int.le_max_right _ _
    simp only
    generalize unitExponent num den = e at *
    generalize roundHalfEven (scale num den e).1 (scale num den e).2 = rounded at *
    rw [dif_pos]
    · rfl
    · split
      · simp only
        omega
      · simp only
        omega

theorem isSome_ofRatio? {num : Int} (hden : 0 < den) (h : num.natAbs < 2 ^ 1023 * den) :
    (ofRatio? num den).isSome :=
  isSome_ofQuotient? hden h

end Binary64

end FeedbackQueue
