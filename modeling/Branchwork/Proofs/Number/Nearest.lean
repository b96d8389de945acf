import Branchwork.Number.Decimal
import Mathlib.Algebra.Order.Field.Power
import Mathlib.Algebra.Order.Field.Rat
import Mathlib.Tactic.FieldSimp
import Mathlib.Tactic.Linarith
import Mathlib.Tactic.NormNum
import Mathlib.Tactic.Positivity
import Mathlib.Tactic.Ring

/-!
# The number nearest to a decimal

A magnitude is the result for every ratio that lies between the midpoints to its two neighbours; a
midpoint itself belongs to the magnitude with the even mantissa. Here the ratios are rational numbers,
so that a decimal and the quotient that it is computed by are one thing.

Main results:

* `Binary64.ofRatio_of_takes` — a quotient is rounded to the magnitude whose interval it lies in.
* `Decimal.toBinary64_of_takes` — and so is a decimal.
-/

namespace Branchwork

/-- The rational number that a decimal stands for, without its sign. -/
def Decimal.size (x : Decimal) : ℚ := x.digits * 10 ^ x.exponent

/-! ## Powers with integer exponents -/

theorem zpow_of_neg {e : Int} (negative : e < 0) (a : ℚ) : a ^ e = (a ^ e.natAbs)⁻¹ := by
  rw [← zpow_natCast, ← zpow_neg]
  congr 1
  omega

theorem zpow_of_not_neg {e : Int} (positive : ¬e < 0) (a : ℚ) : a ^ e = a ^ e.natAbs := by
  rw [← zpow_natCast]
  congr 1
  omega

namespace Binary64

/-! ## Rounding a quotient to a whole number -/

theorem roundDiv_eq {n d m : Nat} (pos : 0 < d) (low : 2 * (d * m) ≤ 2 * n + d)
    (high : 2 * n ≤ 2 * (d * m) + d)
    (even : 2 * (d * m) = 2 * n + d ∨ 2 * n = 2 * (d * m) + d → m % 2 = 0) :
    roundDiv n d = m := by
  have split := Nat.div_add_mod n d
  have short := Nat.mod_lt n pos
  -- the result is the quotient or the number behind it, and the remainder tells which
  have below : n / d ≤ m := by
    by_contra above
    have := Nat.mul_le_mul_left d (show m + 1 ≤ n / d by omega)
    rw [Nat.mul_add] at this
    omega
  have above : m ≤ n / d + 1 := by
    by_contra below
    have := Nat.mul_le_mul_left d (show n / d + 2 ≤ m by omega)
    rw [Nat.mul_add] at this
    omega
  unfold roundDiv
  dsimp only
  generalize n / d = q at split below above
  generalize n % d = r at split short
  obtain rfl | rfl : m = q ∨ m = q + 1 := by omega
  · rw [if_neg]
    simp only [Bool.or_eq_true, Bool.and_eq_true, decide_eq_true_eq, beq_iff_eq]
    omega
  · rw [Nat.mul_add] at low high even
    rw [if_pos]
    simp only [Bool.or_eq_true, Bool.and_eq_true, decide_eq_true_eq, beq_iff_eq]
    omega

/-- The quotient lies within one half of the whole number that it is rounded to. -/
theorem roundDiv_of_near {n d m : Nat} (pos : 0 < d) (low : (m : ℚ) - 1 / 2 ≤ n / d)
    (high : (n : ℚ) / d ≤ m + 1 / 2)
    (odd : m % 2 = 1 → (m : ℚ) - 1 / 2 < n / d ∧ (n : ℚ) / d < m + 1 / 2) : roundDiv n d = m := by
  have pos' : (0 : ℚ) < d := by exact_mod_cast pos
  rw [le_div_iff₀ pos'] at low
  rw [div_le_iff₀ pos'] at high
  rw [lt_div_iff₀ pos', div_lt_iff₀ pos'] at odd
  refine roundDiv_eq pos ?_ ?_ fun tie => ?_
  · have : (2 * (d * m) : ℚ) ≤ 2 * n + d := by linarith
    exact_mod_cast this
  · have : (2 * n : ℚ) ≤ 2 * (d * m) + d := by linarith
    exact_mod_cast this
  · by_contra uneven
    obtain ⟨low', high'⟩ := odd (by omega)
    rcases tie with tie | tie
    · have : (2 * (d * m) : ℚ) = 2 * n + d := by exact_mod_cast tie
      linarith
    · have : (2 * n : ℚ) = 2 * (d * m) + d := by exact_mod_cast tie
      linarith

/-! ## The exponent of a quotient -/

/-- What a quotient is scaled to is the quotient divided by a power of two. -/
theorem scaled_eq (num den : Nat) (exponent : Int) :
    ((scaled num den exponent).1 : ℚ) / (scaled num den exponent).2 = num / den / 2 ^ exponent := by
  unfold scaled
  split
  · rename_i negative
    rw [zpow_of_neg negative]
    push_cast [Nat.pow_eq]
    field_simp
  · rename_i positive
    rw [zpow_of_not_neg positive]
    push_cast [Nat.pow_eq]
    field_simp

theorem scaled_pos {num den : Nat} (pos : 0 < den) (exponent : Int) :
    0 < (scaled num den exponent).2 := by
  unfold scaled
  split
  · exact pos
  · exact Nat.mul_pos pos (Nat.pow_pos (by decide))

/-- The exponent at which a number has 53 bits before the point. -/
def HasExponent (r : ℚ) (e : Int) : Prop := (2 : ℚ) ^ (e + 52) ≤ r ∧ r < (2 : ℚ) ^ (e + 53)

theorem pow_add_52 (e : Int) : (2 : ℚ) ^ (e + 52) = 2 ^ 52 * 2 ^ e := by
  rw [zpow_add₀ two_ne_zero, mul_comm]
  rfl

theorem pow_add_53 (e : Int) : (2 : ℚ) ^ (e + 53) = 2 ^ 53 * 2 ^ e := by
  rw [zpow_add₀ two_ne_zero, mul_comm]
  rfl

theorem le_of_pow_lt {e f : Int} (h : (2 : ℚ) ^ e < 2 ^ f) : e < f :=
  (zpow_lt_zpow_iff_right₀ one_lt_two).mp h

theorem HasExponent.unique {r : ℚ} {e f : Int} (he : HasExponent r e) (hf : HasExponent r f) :
    e = f := by
  have below := le_of_pow_lt (he.1.trans_lt hf.2)
  have above := le_of_pow_lt (hf.1.trans_lt he.2)
  omega

/-- A quotient lies between two powers of two that the lengths of its parts tell. -/
theorem ratio_bounds {num den : Nat} (posNum : 0 < num) (posDen : 0 < den) :
    (2 : ℚ) ^ ((num.log2 : Int) - den.log2 - 1) < num / den ∧
      (num : ℚ) / den < 2 ^ ((num.log2 : Int) - den.log2 + 1) := by
  have numLow : (2 : ℚ) ^ num.log2 ≤ num := by exact_mod_cast Nat.log2_self_le posNum.ne'
  have numHigh : (num : ℚ) < 2 ^ (num.log2 + 1) := by exact_mod_cast Nat.lt_log2_self
  have denLow : (2 : ℚ) ^ den.log2 ≤ den := by exact_mod_cast Nat.log2_self_le posDen.ne'
  have denHigh : (den : ℚ) < 2 ^ (den.log2 + 1) := by exact_mod_cast Nat.lt_log2_self
  have pos : (0 : ℚ) < den := by exact_mod_cast posDen
  constructor
  · have power : (2 : ℚ) ^ ((num.log2 : Int) - den.log2 - 1) = 2 ^ num.log2 / 2 ^ (den.log2 + 1) := by
      rw [← zpow_natCast, ← zpow_natCast, ← zpow_sub₀ two_ne_zero]
      congr 1
      push_cast
      ring
    rw [power]
    exact div_lt_div₀' numLow denHigh (by positivity) pos
  · have power : (2 : ℚ) ^ ((num.log2 : Int) - den.log2 + 1) = 2 ^ (num.log2 + 1) / 2 ^ den.log2 := by
      rw [← zpow_natCast, ← zpow_natCast, ← zpow_sub₀ two_ne_zero]
      congr 1
      push_cast
      ring
    rw [power]
    exact div_lt_div₀ numHigh denLow (by positivity) (by positivity)

/-- A quotient is scaled by the exponent that it has, unless that is below the least one. -/
theorem exponentFor_eq {num den : Nat} (posNum : 0 < num) (posDen : 0 < den) :
    ∃ e, HasExponent (num / den) e ∧ exponentFor num den = max e (-1074) := by
  obtain ⟨above, below⟩ := ratio_bounds posNum posDen
  unfold exponentFor
  dsimp only
  generalize guessed : ((num.log2 : Int) - den.log2 - 53) = guess
  have few : (scaled num den guess).1 / (scaled num den guess).2 < Nat.pow 2 53 ↔
      (num : ℚ) / den < 2 ^ (guess + 53) := by
    have pos : (0 : ℚ) < (scaled num den guess).2 := by exact_mod_cast scaled_pos posDen guess
    rw [pow_add_53, ← div_lt_iff₀ (by positivity), ← scaled_eq, div_lt_iff₀ pos,
      Nat.div_lt_iff_lt_mul (scaled_pos posDen guess)]
    norm_cast
  refine ⟨_, ?_, rfl⟩
  -- the lengths leave two exponents, and the scaled quotient tells which of them it is
  split
  · rename_i short
    refine ⟨le_of_lt ?_, few.mp short⟩
    rwa [show guess + 52 = (num.log2 : Int) - den.log2 - 1 by omega]
  · rename_i long
    refine ⟨?_, ?_⟩
    · rw [few, not_lt] at long
      rwa [show guess + 1 + 52 = guess + 53 by omega]
    · rwa [show guess + 1 + 53 = (num.log2 : Int) - den.log2 + 1 by omega]

/-! ## The interval of a magnitude -/

namespace Magnitude

variable {x : Magnitude} {r : ℚ}

/-- The rational number that a magnitude stands for. -/
def size (x : Magnitude) : ℚ := x.mantissa * 2 ^ x.exponent

/-- The lower end of the interval of a magnitude. -/
def low (x : Magnitude) : ℚ := x.interval.low / x.interval.unit

/-- The upper end of the interval of a magnitude. -/
def high (x : Magnitude) : ℚ := x.interval.high / x.interval.unit

/-- Whether the gap below a magnitude is half as wide as the gap above. -/
def Narrow (x : Magnitude) : Prop := x.mantissa = Nat.pow 2 52 ∧ -1074 < x.exponent

/-- Whether a ratio lies in the interval of a magnitude. The ends belong to an even mantissa. -/
structure Takes (x : Magnitude) (r : ℚ) : Prop where
  low_le : x.low ≤ r
  le_high : r ≤ x.high
  odd : x.mantissa % 2 = 1 → x.low < r ∧ r < x.high

theorem bounds (x : Magnitude) :
    x.mantissa < Nat.pow 2 53 ∧ -1074 ≤ x.exponent ∧ x.exponent ≤ 971 := by
  rcases x.canonical with ⟨-, short, least, greatest⟩ | ⟨short, least⟩
  · exact ⟨short, least, greatest⟩
  · exact ⟨short.trans (by decide), least.ge, by omega⟩

/-- Whole numbers of the unit of an interval as ratios. -/
theorem div_unit (x : Magnitude) (n : Nat) :
    ((n * (if x.exponent - 2 < 0 then 1 else Nat.pow 2 (x.exponent - 2).natAbs) : Nat) : ℚ) /
      x.interval.unit = n * 2 ^ (x.exponent - 2) := by
  unfold interval
  dsimp only
  split
  · rename_i negative
    rw [zpow_of_neg negative]
    push_cast [Nat.pow_eq]
    field_simp
  · rename_i positive
    rw [zpow_of_not_neg positive]
    push_cast [Nat.pow_eq]
    field_simp

theorem quarter (e : Int) : (2 : ℚ) ^ (e - 2) = 2 ^ e / 4 := by
  rw [zpow_sub₀ two_ne_zero]
  norm_num

theorem value_div_unit (x : Magnitude) : (x.interval.value : ℚ) / x.interval.unit = x.size := by
  have value := x.div_unit (4 * x.mantissa)
  rw [quarter] at value
  unfold size
  push_cast at value
  refine Eq.trans ?_ (value.trans (by ring))
  simp only [interval]
  push_cast
  rfl

theorem high_eq (x : Magnitude) : x.high = (x.mantissa + 1 / 2) * 2 ^ x.exponent := by
  have value := x.div_unit (4 * x.mantissa + 2)
  rw [quarter] at value
  refine value.trans ?_
  push_cast
  ring

theorem low_of_narrow (narrow : x.Narrow) : x.low = (x.mantissa - 1 / 4) * 2 ^ x.exponent := by
  have value := x.div_unit (4 * x.mantissa - 1)
  have low : x.interval.low = (4 * x.mantissa - 1) *
      (if x.exponent - 2 < 0 then 1 else Nat.pow 2 (x.exponent - 2).natAbs) := by
    unfold interval
    dsimp only
    rw [if_pos (by simpa [Narrow] using narrow)]
  have pos : 1 ≤ 4 * x.mantissa := by rw [narrow.1]; decide
  rw [Magnitude.low, low, value, quarter, Nat.cast_sub pos]
  push_cast
  ring

theorem low_of_not_narrow (pos : 0 < x.mantissa) (wide : ¬x.Narrow) :
    x.low = (x.mantissa - 1 / 2) * 2 ^ x.exponent := by
  have value := x.div_unit (4 * x.mantissa - 2)
  have low : x.interval.low = (4 * x.mantissa - 2) *
      (if x.exponent - 2 < 0 then 1 else Nat.pow 2 (x.exponent - 2).natAbs) := by
    unfold interval
    dsimp only
    rw [if_neg (by simpa [Narrow] using wide)]
  have pos : 2 ≤ 4 * x.mantissa := by omega
  rw [Magnitude.low, low, value, quarter, Nat.cast_sub pos]
  push_cast
  ring

/-- The lower end lies half a unit below the magnitude at most. -/
theorem le_low (pos : 0 < x.mantissa) : (x.mantissa - 1 / 2) * 2 ^ x.exponent ≤ x.low := by
  by_cases narrow : x.Narrow
  · rw [low_of_narrow narrow]
    have : (0 : ℚ) < 2 ^ x.exponent := by positivity
    nlinarith
  · exact (low_of_not_narrow pos narrow).ge

end Magnitude

/-! ## Rounding in an interval -/

open Magnitude

variable {x : Magnitude} {num den : Nat}

/-- At the exponent of a magnitude, a quotient in its interval is rounded to its mantissa. -/
theorem roundDiv_scaled (pos : 0 < x.mantissa) (posDen : 0 < den) (takes : x.Takes (num / den)) :
    roundDiv (scaled num den x.exponent).1 (scaled num den x.exponent).2 = x.mantissa := by
  have unit : (0 : ℚ) < 2 ^ x.exponent := by positivity
  have low := (le_low pos).trans takes.low_le
  have high := takes.le_high
  rw [high_eq] at high
  refine roundDiv_of_near (scaled_pos posDen _) ?_ ?_ fun odd => ?_
  · rwa [scaled_eq, le_div_iff₀ unit]
  · rwa [scaled_eq, div_le_iff₀ unit]
  · obtain ⟨low', high'⟩ := takes.odd odd
    rw [high_eq] at high'
    rw [scaled_eq, lt_div_iff₀ unit, div_lt_iff₀ unit]
    exact ⟨(le_low pos).trans_lt low', high'⟩

theorem Magnitude.Narrow.size_eq (narrow : x.Narrow) : x.size = 2 ^ 52 * 2 ^ x.exponent := by
  rw [size, narrow.1]
  norm_num

/-- Below a power of two, one exponent lower, a quotient in its interval is rounded up to this power. -/
theorem roundDiv_scaled_below (narrow : x.Narrow) (posDen : 0 < den) (takes : x.Takes (num / den))
    (below : (num : ℚ) / den < x.size) :
    roundDiv (scaled num den (x.exponent - 1)).1 (scaled num den (x.exponent - 1)).2 =
      Nat.pow 2 53 := by
  have unit : (0 : ℚ) < 2 ^ x.exponent := by positivity
  have half : (2 : ℚ) ^ (x.exponent - 1) = 2 ^ x.exponent / 2 := by
    rw [zpow_sub₀ two_ne_zero]
    norm_num
  have low := takes.low_le
  rw [low_of_narrow narrow, narrow.1] at low
  rw [narrow.size_eq] at below
  push_cast [Nat.pow_eq] at low
  refine roundDiv_of_near (scaled_pos posDen _) ?_ ?_ fun odd => absurd odd (by decide)
  · rw [scaled_eq, half, le_div_iff₀ (by positivity)]
    push_cast [Nat.pow_eq]
    linarith
  · rw [scaled_eq, half, div_le_iff₀ (by positivity)]
    push_cast [Nat.pow_eq]
    linarith

theorem exponent_cases (ne : 0 < x.mantissa) (posNum : 0 < num) (posDen : 0 < den)
    (takes : x.Takes (num / den)) :
    exponentFor num den = x.exponent ∨
      x.Narrow ∧ (num : ℚ) / den < x.size ∧ exponentFor num den = x.exponent - 1 := by
  obtain ⟨e, has, same⟩ := exponentFor_eq posNum posDen
  have unit : (0 : ℚ) < 2 ^ x.exponent := by positivity
  obtain ⟨few, least, -⟩ := x.bounds
  have short : (num : ℚ) / den < 2 ^ (x.exponent + 53) := by
    have mantissa : (x.mantissa : ℚ) + 1 ≤ 2 ^ 53 := by exact_mod_cast few
    have high := takes.le_high
    rw [high_eq] at high
    rw [pow_add_53]
    nlinarith
  -- the exponent of the quotient is at most the one of the magnitude
  have notAbove : e ≤ x.exponent := by
    have := le_of_pow_lt (has.1.trans_lt short)
    omega
  -- a quotient that fills 53 bits at this exponent has it itself, and none is below the least one
  by_cases long : (2 : ℚ) ^ (x.exponent + 52) ≤ num / den
  · obtain rfl := has.unique ⟨long, short⟩
    left
    omega
  by_cases bottom : x.exponent = -1074
  · left
    omega
  -- the quotient is below the power of two that the magnitude is, so its exponent is one less
  right
  rw [not_le, pow_add_52] at long
  have low := (le_low ne).trans takes.low_le
  have narrow : x.Narrow := by
    refine ⟨le_antisymm ?_ ?_, by omega⟩
    · have := lt_of_mul_lt_mul_right (low.trans_lt long) unit.le
      have : (x.mantissa : ℚ) < 2 ^ 52 + 1 := by linarith
      exact Nat.lt_succ_iff.mp (by exact_mod_cast this)
    · rcases x.canonical with ⟨large, -⟩ | ⟨-, least⟩
      · exact large
      · exact absurd least bottom
  have below : HasExponent (num / den) (x.exponent - 1) := by
    rw [HasExponent, show x.exponent - 1 + 53 = x.exponent + 52 by omega, pow_add_52, pow_add_52,
      zpow_sub₀ two_ne_zero]
    rw [narrow.1] at low
    push_cast [Nat.pow_eq] at low
    refine ⟨?_, long⟩
    norm_num
    linarith
  refine ⟨narrow, narrow.size_eq ▸ long, ?_⟩
  rw [same, has.unique below]
  omega

/-- A quotient in the interval of a magnitude is rounded to this magnitude. -/
theorem ofRatio_of_takes (ne : 0 < x.mantissa) (posNum : 0 < num) (posDen : 0 < den)
    (takes : x.Takes (num / den)) (negative : Bool) :
    ofRatio negative num den = .finite negative x := by
  unfold ofRatio
  rw [if_neg posNum.ne']
  dsimp only
  rcases exponent_cases ne posNum posDen takes with same | ⟨narrow, below, less⟩
  · rw [same, roundDiv_scaled ne posDen takes, if_neg x.bounds.1.ne, ofParts, dif_pos x.canonical]
  · -- the mantissa comes out one bit too long, which moves the exponent back
    rw [less, roundDiv_scaled_below narrow posDen takes below, if_pos rfl, ← narrow.1,
      Int.sub_add_cancel, ofParts, dif_pos x.canonical]

/-! ## The sizes of magnitudes -/

theorem Magnitude.low_pos (ne : 0 < x.mantissa) : (2 : ℚ) ^ (-1075 : Int) ≤ x.low := by
  have least : -1074 ≤ x.exponent := x.bounds.2.1
  have mantissa : (1 : ℚ) ≤ x.mantissa := by exact_mod_cast ne
  calc (2 : ℚ) ^ (-1075 : Int) = 1 / 2 * 2 ^ (-1074 : Int) := by
        rw [show (-1075 : Int) = -1 + -1074 by norm_num, zpow_add₀ two_ne_zero]
        norm_num
    _ ≤ (x.mantissa - 1 / 2) * 2 ^ x.exponent :=
        mul_le_mul (by linarith) (zpow_le_zpow_right₀ one_le_two least) (by positivity) (by linarith)
    _ ≤ x.low := le_low ne

theorem Magnitude.high_lt (x : Magnitude) : x.high < (2 : ℚ) ^ (1024 : Int) := by
  obtain ⟨short, -, greatest⟩ := x.bounds
  have mantissa : (x.mantissa : ℚ) + 1 ≤ 2 ^ 53 := by exact_mod_cast short
  rw [high_eq]
  calc ((x.mantissa : ℚ) + 1 / 2) * 2 ^ x.exponent
      < 2 ^ 53 * 2 ^ x.exponent := mul_lt_mul_of_pos_right (by linarith) (by positivity)
    _ ≤ 2 ^ 53 * 2 ^ (971 : Int) :=
        mul_le_mul_of_nonneg_left (zpow_le_zpow_right₀ one_le_two greatest) (by positivity)
    _ = 2 ^ (1024 : Int) := (pow_add_53 971).symm

end Binary64

/-! ## Decimals -/

namespace Decimal

theorem digitCount_pos (n : Nat) : 0 < digitCount n := Nat.length_toDigits_pos

theorem lt_digitCount (n : Nat) : n < 10 ^ digitCount n :=
  (Nat.length_toDigits_le_iff (by decide) (digitCount_pos n)).mp le_rfl

theorem digitCount_le {n : Nat} (pos : 0 < n) : 10 ^ (digitCount n - 1) ≤ n := by
  by_contra less
  by_cases one : digitCount n = 1
  · rw [one] at less
    omega
  · have count := digitCount_pos n
    have fewer : digitCount n ≤ digitCount n - 1 :=
      (Nat.length_toDigits_le_iff (by decide) (by omega)).mpr (not_le.mp less)
    omega

/-- The place of the first digit of a decimal bounds its size. -/
theorem size_bounds {d : Decimal} (pos : 0 < d.digits) :
    (10 : ℚ) ^ ((digitCount d.digits : Int) + d.exponent - 1) ≤ d.size ∧
      d.size < (10 : ℚ) ^ ((digitCount d.digits : Int) + d.exponent) := by
  have ten : (10 : ℚ) ≠ 0 := by norm_num
  have count := digitCount_pos d.digits
  have unit : (0 : ℚ) < 10 ^ d.exponent := by positivity
  constructor
  · have low : ((10 : ℚ) ^ (digitCount d.digits - 1)) ≤ d.digits := by
      exact_mod_cast digitCount_le pos
    have place : (digitCount d.digits : Int) + d.exponent - 1 =
        ((digitCount d.digits - 1 : Nat) : Int) + d.exponent := by omega
    rw [place, zpow_add₀ ten, zpow_natCast, size]
    exact mul_le_mul_of_nonneg_right low unit.le
  · have high : (d.digits : ℚ) < 10 ^ digitCount d.digits := by
      exact_mod_cast lt_digitCount d.digits
    rw [zpow_add₀ ten, zpow_natCast, size]
    exact mul_lt_mul_of_pos_right high unit

theorem tenth_le : (10 : ℚ) ^ (-331 : Int) ≤ 2 ^ (-1075 : Int) := by
  have whole : (2 : ℚ) ^ 1075 ≤ 10 ^ 331 := by
    exact_mod_cast (by decide +kernel : 2 ^ 1075 ≤ 10 ^ 331)
  rw [zpow_of_neg (by decide), zpow_of_neg (by decide)]
  exact inv_anti₀ (by positivity) whole

theorem le_tens : (2 : ℚ) ^ (1024 : Int) ≤ 10 ^ (330 : Int) := by
  rw [zpow_of_not_neg (by decide), zpow_of_not_neg (by decide)]
  exact_mod_cast (by decide +kernel : 2 ^ 1024 ≤ 10 ^ 330)

/-- A decimal in the interval of a magnitude is read as this magnitude. -/
theorem toBinary64_of_takes {d : Decimal} {x : Binary64.Magnitude} (ne : 0 < x.mantissa)
    (takes : x.Takes d.size) : d.toBinary64 = .finite d.negative x := by
  have low := (Binary64.Magnitude.low_pos ne).trans takes.low_le
  have high := takes.le_high.trans_lt x.high_lt
  have pos : 0 < d.digits := by
    rw [Nat.pos_iff_ne_zero]
    intro none
    rw [size, none, Nat.cast_zero, zero_mul] at low
    exact absurd low (not_le.mpr (by positivity))
  obtain ⟨above, below⟩ := size_bounds pos
  -- neither of the two shortcuts for sizes that are out of range is taken
  have notTiny : ¬(digitCount d.digits : Int) + d.exponent < -330 := by
    intro tiny
    have tenth : (10 : ℚ) ^ ((digitCount d.digits : Int) + d.exponent) ≤ 10 ^ (-331 : Int) :=
      zpow_le_zpow_right₀ (by norm_num) (by omega)
    exact absurd ((low.trans_lt below).trans_le tenth) (not_lt.mpr tenth_le)
  have notHuge : ¬(digitCount d.digits : Int) + d.exponent > 330 := by
    intro huge
    have tens : (10 : ℚ) ^ (330 : Int) ≤ 10 ^ ((digitCount d.digits : Int) + d.exponent - 1) :=
      zpow_le_zpow_right₀ (by norm_num) (by omega)
    exact absurd (tens.trans_lt (above.trans_lt high)) (not_lt.mpr le_tens)
  unfold toBinary64
  dsimp only
  rw [if_neg (by simp [pos.ne', notTiny]), if_neg notHuge]
  -- what is left is a quotient of whole numbers, with the power of ten on the side of its sign
  split
  · rename_i negative
    refine Binary64.ofRatio_of_takes ne pos (Nat.pow_pos (by decide)) ?_ _
    rw [size, zpow_of_neg negative] at takes
    push_cast [Nat.pow_eq]
    rwa [div_eq_mul_inv]
  · rename_i positive
    refine Binary64.ofRatio_of_takes ne (Nat.mul_pos pos (Nat.pow_pos (by decide))) one_pos ?_ _
    rw [size, zpow_of_not_neg positive] at takes
    push_cast [Nat.pow_eq]
    rwa [div_one]

end Decimal

end Branchwork
