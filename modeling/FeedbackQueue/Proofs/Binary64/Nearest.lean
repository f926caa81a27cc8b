import FeedbackQueue.Proofs.Binary64.Rounding
import Mathlib.Tactic.Ring

/-!
# The nearest double

A quotient is rounded to the double that is nearest to it, and to the one with an even
significand if two are equally near. Around the quotient the doubles are the multiples of one
unit, so this is how its scaled form is rounded to an integer. Doubles between the multiples
exist, but they are all smaller than a power of two that is a multiple itself and that the
quotient reaches.
-/

namespace FeedbackQueue

-- ---------------------------------------------------------------------------
-- Nearest integers
-- ---------------------------------------------------------------------------

section
variable {num den : Nat}

/-- How far an integer is from a quotient, as a multiple of one over the denominator. -/
def offset (num den : Nat) (k : Int) : Nat := (k * den - num).natAbs

theorem offset_div (hden : 0 < den) (k : Int) :
    |(k : ℚ) - num / den| = (offset num den k : ℚ) / den := by
  have hpos : (0 : ℚ) < den := by exact_mod_cast hden
  have hsub : (k : ℚ) - num / den = ((k * den - num : Int) : ℚ) / den := by
    push_cast
    field_simp
  rw [hsub, abs_div, abs_of_pos hpos, offset, Nat.cast_natAbs, Int.cast_abs]

/-- The two integers next to a quotient, and all others. -/
theorem offset_cases (num : Nat) (hden : 0 < den) (k : Int) :
    (k = (num / den : Nat) ∧ offset num den k = num % den) ∨
    (k = (num / den : Nat) + 1 ∧ offset num den k = den - num % den) ∨
    (k ≠ (num / den : Nat) ∧ k ≠ (num / den : Nat) + 1 ∧ den ≤ offset num den k) := by
  have hnum : ((num / den : Nat) : Int) * den + (num % den : Nat) = num := by
    exact_mod_cast Nat.div_add_mod' num den
  have hrest := Nat.mod_lt num hden
  obtain ⟨j, rfl⟩ : ∃ j, k = (num / den : Nat) + j := ⟨k - (num / den : Nat), by omega⟩
  have hoffset : offset num den ((num / den : Nat) + j) =
      (j * den - (num % den : Nat)).natAbs := by
    rw [offset, Int.add_mul]
    omega
  rw [hoffset]
  generalize num % den = rest at *
  rcases lt_trichotomy j 0 with hj | rfl | hj
  · have hmul : j * den ≤ (-1) * den := Int.mul_le_mul_of_nonneg_right (by omega) (by omega)
    omega
  · omega
  · rcases Int.lt_or_eq_of_le (show 1 ≤ j by omega) with hj' | rfl
    · have hmul : 2 * den ≤ j * den := Int.mul_le_mul_of_nonneg_right (by omega) (by omega)
      omega
    · omega

theorem roundHalfEven_cases (num den : Nat) :
    (roundHalfEven num den = num / den ∧
      (2 * (num % den) < den ∨ 2 * (num % den) = den ∧ num / den % 2 = 0)) ∨
    (roundHalfEven num den = num / den + 1 ∧
      ¬ (2 * (num % den) < den ∨ 2 * (num % den) = den ∧ num / den % 2 = 0)) := by
  simp only [roundHalfEven]
  split
  · exact .inl ⟨rfl, ‹_›⟩
  · exact .inr ⟨rfl, ‹_›⟩

theorem offset_roundHalfEven_le (hden : 0 < den) (k : Int) :
    offset num den (roundHalfEven num den) ≤ offset num den k := by
  have hrest := Nat.mod_lt num hden
  have hself := offset_cases num hden (roundHalfEven num den)
  have hother := offset_cases num hden k
  rcases roundHalfEven_cases num den with ⟨hround, hbelow⟩ | ⟨hround, habove⟩ <;>
    rw [hround] at hself ⊢ <;> omega

/-- Two integers are equally near only if the quotient is halfway between them. -/
theorem even_of_offset_eq (hden : 0 < den) {k : Int} (hne : k ≠ roundHalfEven num den)
    (htie : offset num den k = offset num den (roundHalfEven num den)) :
    roundHalfEven num den % 2 = 0 ∧ k % 2 = 1 := by
  have hrest := Nat.mod_lt num hden
  have hself := offset_cases num hden (roundHalfEven num den)
  have hother := offset_cases num hden k
  rcases roundHalfEven_cases num den with ⟨hround, hbelow⟩ | ⟨hround, habove⟩ <;>
    rw [hround] at hself hne htie ⊢ <;> omega

end

namespace Binary64

variable {num den : Nat} {negative : Bool} {x y : Binary64} {q : ℚ} {e : Int}

-- ---------------------------------------------------------------------------
-- What a double stands for
-- ---------------------------------------------------------------------------

def size (x : Binary64) : ℚ := x.significand * 2 ^ x.exponent

def value (x : Binary64) : ℚ := if x.negative then -x.size else x.size

/-- No double is nearer to the number. If another one is as near, the number is halfway between
the two and this one is even. Zeros have the sign of the number, too. -/
structure IsNearest (x : Binary64) (q : ℚ) : Prop where
  nearest : ∀ y : Binary64, |x.value - q| ≤ |y.value - q|
  even : ∀ y : Binary64, y.value ≠ x.value → |y.value - q| = |x.value - q| →
    x.significand % 2 = 0 ∧ y.significand % 2 = 1
  sign : x.negative = decide (q < 0)

def neg (x : Binary64) : Binary64 := { x with negative := !x.negative }

theorem value_neg (x : Binary64) : x.neg.value = -x.value := by
  unfold value neg size
  cases x.negative <;> simp

theorem size_nonneg (x : Binary64) : 0 ≤ x.size := by
  unfold size
  positivity

theorem abs_value (x : Binary64) : |x.value| = x.size := by
  unfold value
  split
  · rw [abs_neg, abs_of_nonneg x.size_nonneg]
  · exact abs_of_nonneg x.size_nonneg

/-- A double is a multiple of a unit, and an odd one only if its significand is odd, unless it is
smaller than all doubles that need the unit. -/
theorem multiple_or_lt (x : Binary64) (e : Int) :
    (∃ k : Int, x.value = k * 2 ^ e ∧ (k % 2 = 1 → x.significand % 2 = 1)) ∨
      -1074 < e ∧ |x.value| < 2 ^ (52 + e) := by
  obtain ⟨hlt, hleast, -, -⟩ := x.canonical
  have hsignificand : (x.significand : ℚ) < 2 ^ (53 : Int) := by exact_mod_cast hlt
  by_cases hle : e ≤ x.exponent
  · obtain ⟨j, hj⟩ := Int.le.dest hle
    have hsize : x.size = ((x.significand * 2 ^ j : Nat) : Int) * 2 ^ e := by
      rw [size, ← hj, zpow_add₀ two_ne_zero]
      push_cast
      rw [zpow_natCast]
      ring
    have hodd : (x.significand * 2 ^ j) % 2 = 1 → x.significand % 2 = 1 := by
      intro h
      exact Nat.odd_iff.mp (Nat.odd_mul.mp (Nat.odd_iff.mpr h)).1
    refine .inl ?_
    rw [value, hsize]
    split
    · exact ⟨-(x.significand * 2 ^ j : Nat), by push_cast; ring, fun h => hodd (by omega)⟩
    · exact ⟨(x.significand * 2 ^ j : Nat), rfl, fun h => hodd (by omega)⟩
  · refine .inr ⟨by omega, ?_⟩
    rw [abs_value, size]
    calc (x.significand : ℚ) * 2 ^ x.exponent
        < 2 ^ (53 : Int) * 2 ^ x.exponent := by gcongr
      _ = 2 ^ (53 + x.exponent) := (zpow_add₀ two_ne_zero _ _).symm
      _ ≤ 2 ^ (52 + e) := zpow_le_zpow_right₀ one_le_two (by omega)

/-- Leading zeros are not allowed, so a size has one exponent. -/
theorem exponent_le_of_size_eq (h : x.size = y.size) : y.exponent ≤ x.exponent := by
  refine Int.not_lt.mp fun hlt => ?_
  obtain ⟨hx, hleast, -, -⟩ := x.canonical
  obtain ⟨-, -, -, hy⟩ := y.canonical
  have hxsignificand : (x.significand : ℚ) < 2 ^ (53 : Int) := by exact_mod_cast hx
  have hysignificand : (2 : ℚ) ^ (52 : Int) ≤ y.significand := by
    exact_mod_cast hy.resolve_left (by omega)
  have hsmaller : x.size < y.size := by
    calc x.size < 2 ^ (53 : Int) * 2 ^ x.exponent := by unfold size; gcongr
      _ = 2 ^ (53 + x.exponent) := (zpow_add₀ two_ne_zero _ _).symm
      _ ≤ 2 ^ (52 + y.exponent) := zpow_le_zpow_right₀ one_le_two (by omega)
      _ = 2 ^ (52 : Int) * 2 ^ y.exponent := zpow_add₀ two_ne_zero _ _
      _ ≤ y.size := by unfold size; gcongr
  exact absurd h hsmaller.ne

theorem eq_of_size_eq (h : x.size = y.size) (hsign : x.negative = y.negative) : x = y := by
  have hexponent := le_antisymm (exponent_le_of_size_eq h.symm) (exponent_le_of_size_eq h)
  have hsignificand : x.significand = y.significand := by
    rw [size, size, hexponent] at h
    exact_mod_cast mul_right_cancel₀ (by positivity) h
  cases x
  cases y
  simp_all

/-- Only one double is nearest to a number. -/
theorem IsNearest.unique (hx : x.IsNearest q) (hy : y.IsNearest q) : x = y := by
  have htie := le_antisymm (hx.nearest y) (hy.nearest x)
  have hvalue : y.value = x.value := by
    refine Decidable.byContradiction fun hne => ?_
    have hodd := (hx.even y hne htie.symm).2
    have heven := (hy.even x (Ne.symm hne) htie).1
    omega
  refine eq_of_size_eq ?_ (hx.sign.trans hy.sign.symm)
  rw [← abs_value, ← abs_value, hvalue]

-- ---------------------------------------------------------------------------
-- Multiples of the unit
-- ---------------------------------------------------------------------------

theorem distance_eq (hden : 0 < den) (k : Int) :
    |(k : ℚ) * 2 ^ e - num / den| =
      offset (scale num den e).1 (scale num den e).2 k / (scale num den e).2 * 2 ^ e := by
  have hunit : (0 : ℚ) < 2 ^ e := by positivity
  have hscaled : (num : ℚ) / den = ((scale num den e).1 : ℚ) / (scale num den e).2 * 2 ^ e := by
    rw [scale_div]
    field_simp
  rw [hscaled, ← sub_mul, abs_mul, abs_of_pos hunit, offset_div (scale_pos hden)]

/-- The quotient in units, rounded to an integer. -/
def rounded (num den : Nat) : Nat :=
  roundHalfEven (scale num den (unitExponent num den)).1 (scale num den (unitExponent num den)).2

theorem rounded_nearest (num : Nat) (hden : 0 < den) (k : Int) :
    |(rounded num den : ℚ) * 2 ^ unitExponent num den - num / den| ≤
      |(k : ℚ) * 2 ^ unitExponent num den - num / den| := by
  rw [← Int.cast_natCast, distance_eq hden, distance_eq hden]
  have hle : offset _ _ (rounded num den : Int) ≤ offset _ _ k :=
    offset_roundHalfEven_le (scale_pos hden) k
  gcongr

theorem rounded_even (hden : 0 < den) {k : Int} (hne : k ≠ rounded num den)
    (htie : |(k : ℚ) * 2 ^ unitExponent num den - num / den| =
      |(rounded num den : ℚ) * 2 ^ unitExponent num den - num / den|) :
    rounded num den % 2 = 0 ∧ k % 2 = 1 := by
  have hscale : ((scale num den (unitExponent num den)).2 : ℚ) ≠ 0 := by
    exact_mod_cast (scale_pos hden).ne'
  have hunit : (2 : ℚ) ^ unitExponent num den ≠ 0 := by positivity
  rw [← Int.cast_natCast (R := ℚ) (rounded num den), distance_eq hden, distance_eq hden,
    mul_left_inj' hunit, div_left_inj' hscale] at htie
  exact even_of_offset_eq (scale_pos hden) hne (by exact_mod_cast htie)

/-- Doubles between multiples of the unit are too small. -/
theorem rounded_lt (hnum : 0 < num) (hden : 0 < den) {v : ℚ}
    (hnormal : -1074 < unitExponent num den) (hv : |v| < 2 ^ (52 + unitExponent num den)) :
    |(rounded num den : ℚ) * 2 ^ unitExponent num den - num / den| < |v - num / den| := by
  have hleading : 52 + unitExponent num den = leading num den := by
    unfold unitExponent at hnormal ⊢
    omega
  have hreached : (2 : ℚ) ^ (52 + unitExponent num den) ≤ num / den := by
    rw [hleading]
    exact (leading_spec hnum hden).1
  have hpower : ((2 ^ 52 : Int) : ℚ) * 2 ^ unitExponent num den =
      2 ^ (52 + unitExponent num den) := by
    rw [zpow_add₀ two_ne_zero]
    norm_num
  have hnearest := rounded_nearest num hden (2 ^ 52)
  have hlt := (abs_lt.mp hv).2
  rw [hpower, abs_of_nonpos (sub_nonpos.mpr hreached)] at hnearest
  rw [abs_of_neg (sub_neg.mpr (hlt.trans_le hreached))]
  linarith

-- ---------------------------------------------------------------------------
-- The quotient as a double
-- ---------------------------------------------------------------------------

/-- A significand of fifty-four digits is a power of two, and is given to the next exponent. -/
theorem ofQuotient?_eq_some (hnum : num ≠ 0) (h : ofQuotient? false num den = some x) :
    x.negative = false ∧ x.value = rounded num den * 2 ^ unitExponent num den ∧
      (rounded num den % 2 = 0 → x.significand % 2 = 0) := by
  rw [ofQuotient?, if_neg hnum] at h
  simp only at h
  split at h
  · have hcarry : rounded num den = 1 <<< 52 * 2 := ‹_›
    obtain ⟨_, hx⟩ := Option.dite_none_right_eq_some.mp h
    obtain rfl := Option.some.inj hx
    refine ⟨rfl, ?_, fun _ => (by decide : 1 <<< 52 % 2 = 0)⟩
    rw [value, if_neg Bool.false_ne_true, size, zpow_add_one₀ two_ne_zero, hcarry, Nat.cast_mul]
    show ((1 <<< 52 : Nat) : ℚ) * (2 ^ unitExponent num den * 2) = _
    push_cast
    ring
  · obtain ⟨_, hx⟩ := Option.dite_none_right_eq_some.mp h
    obtain rfl := Option.some.inj hx
    exact ⟨rfl, rfl, id⟩

theorem ofQuotient?_true : ofQuotient? true num den = (ofQuotient? false num den).map neg := by
  unfold ofQuotient?
  split
  · rfl
  · simp only
    split <;> split <;> rfl

theorem isNearest_ofQuotient? (hnum : num ≠ 0) (hden : 0 < den)
    (h : ofQuotient? false num den = some x) : x.IsNearest (num / den) := by
  obtain ⟨hsign, hvalue, heven⟩ := ofQuotient?_eq_some hnum h
  have hpos := Nat.pos_of_ne_zero hnum
  refine ⟨fun y => ?_, fun y hne htie => ?_, ?_⟩
  · rw [hvalue]
    rcases y.multiple_or_lt (unitExponent num den) with ⟨k, hk, -⟩ | ⟨hnormal, hsmall⟩
    · rw [hk]
      exact rounded_nearest num hden k
    · exact (rounded_lt hpos hden hnormal hsmall).le
  · rw [hvalue] at hne htie
    rcases y.multiple_or_lt (unitExponent num den) with ⟨k, hk, hodd⟩ | ⟨hnormal, hsmall⟩
    · rw [hk] at hne htie
      have hother : k ≠ rounded num den := by
        rintro rfl
        exact hne (by push_cast; rfl)
      exact (rounded_even hden hother htie).imp heven hodd
    · exact absurd htie (rounded_lt hpos hden hnormal hsmall).ne'
  · have hquotient : (0 : ℚ) ≤ num / den := by positivity
    rw [hsign]
    exact (decide_eq_false hquotient.not_gt).symm

theorem IsNearest.neg (h : x.IsNearest q) (hq : q ≠ 0) : x.neg.IsNearest (-q) := by
  have hmirror (y : Binary64) : |y.neg.value - -q| = |y.value - q| := by
    rw [value_neg, neg_sub_neg, abs_sub_comm]
  have htwice (y : Binary64) : y.neg.neg = y := by simp [Binary64.neg]
  refine ⟨fun y => ?_, fun y hne htie => ?_, ?_⟩
  · rw [hmirror, ← htwice y, hmirror]
    exact h.nearest y.neg
  · rw [← htwice y] at hne htie
    rw [hmirror, hmirror] at htie
    refine h.even y.neg (fun heq => hne ?_) htie
    rw [value_neg, heq, value_neg]
  · have hsign : x.neg.negative = !x.negative := rfl
    rw [hsign, h.sign, ← decide_not]
    refine decide_eq_decide.mpr ?_
    rw [not_lt, neg_lt_zero, lt_iff_le_and_ne]
    exact (and_iff_left hq.symm).symm

theorem isNearest_zero : (zero false).IsNearest 0 := by
  have hvalue : (zero false).value = 0 := by simp [value, size, zero]
  refine ⟨fun y => ?_, fun y hne htie => ?_, rfl⟩
  · simp [hvalue]
  · exact absurd (by simpa [hvalue] using htie) hne

/-- What a division of integers answers is the double nearest to the quotient. -/
theorem isNearest_ofRatio? {num : Int} (hden : 0 < den) (h : ofRatio? num den = some x) :
    x.IsNearest (num / den) := by
  rw [ofRatio?] at h
  rcases lt_trichotomy num 0 with hneg | rfl | hpos
  · have hquotient : (num : ℚ) / den = -((num.natAbs : ℚ) / den) := by
      rw [Nat.cast_natAbs, abs_of_neg hneg]
      push_cast
      ring
    have hnum : num.natAbs ≠ 0 := by omega
    have hne : (num.natAbs : ℚ) / den ≠ 0 := by positivity
    rw [decide_eq_true hneg, ofQuotient?_true] at h
    obtain ⟨y, hy, rfl⟩ := Option.map_eq_some_iff.mp h
    rw [hquotient]
    exact (isNearest_ofQuotient? hnum hden hy).neg hne
  · obtain rfl : zero false = x := by simpa [ofQuotient?] using h
    simpa using isNearest_zero
  · have hquotient : (num : ℚ) / den = (num.natAbs : ℚ) / den := by
      rw [Nat.cast_natAbs, abs_of_pos hpos]
    rw [decide_eq_false hpos.not_gt] at h
    rw [hquotient]
    exact isNearest_ofQuotient? (by omega) hden h

end Binary64

end FeedbackQueue
