import Branchwork.Proofs.Number.Nearest

/-!
# The shortest digits of a number

The digits that a number is written with lie in its interval: seventeen digits are always enough, for
the grid of so many digits is finer than any interval is wide.

Main result: `Binary64.Magnitude.shortest_takes`.
-/

namespace Branchwork.Binary64

variable {x : Magnitude}

namespace Magnitude

theorem unit_pos (x : Magnitude) : 0 < x.interval.unit := by
  unfold interval
  dsimp only
  split
  · exact Nat.pow_pos (by decide)
  · exact one_pos

theorem takes_iff {r : ℚ} : x.Takes r ↔
    if x.interval.closed then x.low ≤ r ∧ r ≤ x.high else x.low < r ∧ r < x.high := by
  have closed : x.interval.closed = decide (x.mantissa % 2 = 0) := rfl
  rw [closed]
  by_cases even : x.mantissa % 2 = 0
  · rw [if_pos (decide_eq_true even)]
    exact ⟨fun takes => ⟨takes.low_le, takes.le_high⟩, fun ⟨low, high⟩ =>
      ⟨low, high, fun odd => absurd even (by omega)⟩⟩
  · rw [if_neg (by simpa using even)]
    exact ⟨fun takes => takes.odd (by omega), fun inside => ⟨inside.1.le, inside.2.le, fun _ => inside⟩⟩

/-- The decimals that an interval holds are those that its magnitude takes. -/
theorem holds_iff {digits : Nat} {exponent : Int} :
    x.interval.holds digits exponent = true ↔ x.Takes (digits * 10 ^ exponent) := by
  have unit : (0 : ℚ) < x.interval.unit := by exact_mod_cast x.unit_pos
  -- the decimal as a quotient of whole numbers, which is compared with both ends
  obtain ⟨n, d, parts, pos, ratio⟩ : ∃ n d : Nat, (if exponent < 0
      then (digits, Nat.pow 10 exponent.natAbs)
      else (digits * Nat.pow 10 exponent.natAbs, 1)) = (n, d) ∧ (0 : ℚ) < d ∧
        (digits * 10 ^ exponent : ℚ) = n / d := by
    split
    · rename_i negative
      refine ⟨_, _, rfl, by exact_mod_cast Nat.pow_pos (by decide), ?_⟩
      rw [zpow_of_neg negative]
      push_cast [Nat.pow_eq]
      rw [div_eq_mul_inv]
    · rename_i positive
      refine ⟨_, _, rfl, by norm_num, ?_⟩
      rw [zpow_of_not_neg positive]
      push_cast [Nat.pow_eq]
      rw [div_one]
  unfold Interval.holds
  rw [parts, takes_iff, ratio, low, high]
  dsimp only
  split
  · simp only [Bool.and_eq_true, decide_eq_true_eq, div_le_div_iff₀ unit pos, div_le_div_iff₀ pos unit]
    norm_cast
  · simp only [Bool.and_eq_true, decide_eq_true_eq, div_lt_div_iff₀ unit pos, div_lt_div_iff₀ pos unit]
    norm_cast

theorem low_lt_size (ne : 0 < x.mantissa) : x.low < x.size := by
  have unit : (0 : ℚ) < 2 ^ x.exponent := by positivity
  rw [size]
  by_cases narrow : x.Narrow
  · rw [low_of_narrow narrow]
    linarith
  · rw [low_of_not_narrow ne narrow]
    linarith

theorem size_lt_high (x : Magnitude) : x.size < x.high := by
  have unit : (0 : ℚ) < 2 ^ x.exponent := by positivity
  rw [size, high_eq]
  linarith

/-- The interval of a magnitude is wider than a step of sixteen digits. -/
theorem size_lt_width (ne : 0 < x.mantissa) : x.size < 10 ^ 16 * (x.high - x.low) := by
  have unit : (0 : ℚ) < 2 ^ x.exponent := by positivity
  rw [high_eq]
  by_cases narrow : x.Narrow
  · rw [low_of_narrow narrow, narrow.size_eq]
    linarith
  · have short : (x.mantissa : ℚ) < 2 ^ 53 := by exact_mod_cast x.bounds.1
    rw [low_of_not_narrow ne narrow, size]
    nlinarith

end Magnitude

/-- The first digit of a quotient stands right behind the place of the point or before it. -/
theorem le_pointPlace {num den : Nat} (posNum : 0 < num) (posDen : 0 < den) :
    (10 : ℚ) ^ (pointPlace num den - 1) ≤ num / den := by
  have ten : (10 : ℚ) ≠ 0 := by norm_num
  have pos : (0 : ℚ) < den := by exact_mod_cast posDen
  unfold pointPlace
  split
  · rename_i whole
    have quotient : 0 < num / den := Nat.div_pos whole posDen
    have count := Decimal.digitCount_pos (num / den)
    have low : 10 ^ (Decimal.digitCount (num / den) - 1) * den ≤ num :=
      (Nat.mul_le_mul_right den (Decimal.digitCount_le quotient)).trans (Nat.div_mul_le_self num den)
    have place : ((Decimal.digitCount (num / den) : Int) - 1) =
        ((Decimal.digitCount (num / den) - 1 : Nat) : Int) := by omega
    rw [place, zpow_natCast, le_div_iff₀ pos]
    exact_mod_cast low
  · have high : den ≤ num * 10 ^ Decimal.digitCount ((den - 1) / num) := by
      have := (Nat.div_lt_iff_lt_mul posNum).mp (Decimal.lt_digitCount ((den - 1) / num))
      rw [Nat.mul_comm] at this
      omega
    have place : (1 - (Decimal.digitCount ((den - 1) / num) : Int) - 1) =
        -(Decimal.digitCount ((den - 1) / num) : Int) := by omega
    rw [place, zpow_neg, zpow_natCast, inv_le_iff_one_le_mul₀ (by positivity), div_mul_eq_mul_div,
      le_div_iff₀ pos, one_mul]
    exact_mod_cast high

namespace Magnitude

theorem parts_eq (x : Magnitude) (exponent : Int) : ∃ n d : Nat, (if exponent < 0
      then (x.interval.value * Nat.pow 10 exponent.natAbs, x.interval.unit)
      else (x.interval.value, x.interval.unit * Nat.pow 10 exponent.natAbs)) = (n, d) ∧
    0 < d ∧ (n : ℚ) / d * 10 ^ exponent = x.size := by
  have unit : (x.interval.unit : ℚ) ≠ 0 := by exact_mod_cast x.unit_pos.ne'
  split
  · rename_i negative
    refine ⟨_, _, rfl, x.unit_pos, ?_⟩
    rw [zpow_of_neg negative, ← value_div_unit]
    push_cast [Nat.pow_eq]
    field_simp
  · rename_i positive
    refine ⟨_, _, rfl, Nat.mul_pos x.unit_pos (Nat.pow_pos (by decide)), ?_⟩
    rw [zpow_of_not_neg positive, ← value_div_unit]
    push_cast [Nat.pow_eq]
    field_simp

/-- What is found on a grid lies in the interval. -/
theorem takes_of_nearest? {exponent : Int} {digits : Nat}
    (found : x.interval.nearest? exponent = some digits) : x.Takes (digits * 10 ^ exponent) := by
  obtain ⟨n, d, parts, -, -⟩ := x.parts_eq exponent
  unfold Interval.nearest? at found
  rw [parts] at found
  dsimp only at found
  rw [← holds_iff]
  have near : roundDiv n d = n / d ∨ roundDiv n d = n / d + 1 := by
    unfold roundDiv
    dsimp only
    split
    · exact .inr rfl
    · exact .inl rfl
  split at found <;> cases found
  · rcases near with same | same <;> rw [same] <;> assumption
  · assumption
  · assumption

/-- A grid that is finer than the interval is wide has a point in it. -/
theorem nearest?_isSome (ne : 0 < x.mantissa) {exponent : Int}
    (fine : (10 : ℚ) ^ exponent < x.high - x.low) : (x.interval.nearest? exponent).isSome = true := by
  obtain ⟨n, d, parts, pos, ratio⟩ := x.parts_eq exponent
  have unit : (0 : ℚ) < 10 ^ exponent := by positivity
  have pos' : (0 : ℚ) < d := by exact_mod_cast pos
  -- the magnitude lies between two neighbours on the grid
  have below : ((n / d : Nat) : ℚ) * 10 ^ exponent ≤ x.size := by
    have le : ((n / d : Nat) : ℚ) ≤ n / d := by
      rw [le_div_iff₀ pos']
      exact_mod_cast Nat.div_mul_le_self n d
    rw [← ratio]
    exact mul_le_mul_of_nonneg_right le unit.le
  have above : x.size < ((n / d + 1 : Nat) : ℚ) * 10 ^ exponent := by
    have lt : (n : ℚ) / d < ((n / d + 1 : Nat) : ℚ) := by
      rw [div_lt_iff₀ pos']
      exact_mod_cast (Nat.div_lt_iff_lt_mul pos).mp (Nat.lt_succ_self (n / d))
    rw [← ratio]
    exact mul_lt_mul_of_pos_right lt unit
  -- if the lower neighbour is below the interval, the next one is not above it
  have either : x.Takes ((n / d : Nat) * 10 ^ exponent) ∨
      x.Takes ((n / d + 1 : Nat) * 10 ^ exponent) := by
    by_cases low : x.low < (n / d : Nat) * 10 ^ exponent
    · have high := below.trans_lt x.size_lt_high
      exact .inl ⟨low.le, high.le, fun _ => ⟨low, high⟩⟩
    · have low' := (low_lt_size ne).trans above
      have high : ((n / d + 1 : Nat) : ℚ) * 10 ^ exponent < x.high := by
        push_cast at low ⊢
        linarith
      exact .inr ⟨low'.le, high.le, fun _ => ⟨low', high⟩⟩
  unfold Interval.nearest?
  rw [parts]
  dsimp only
  simp only [← holds_iff] at either
  rcases either with holds | holds <;> rw [holds]
  · cases x.interval.holds (n / d + 1) exponent <;> rfl
  · cases x.interval.holds (n / d) exponent <;> rfl

/-- The first point that is found lies in the interval. -/
theorem shortest_takes_of {place : Int} {tries count : Nat}
    (found : ∃ k < tries, (x.interval.nearest? (place - (count + k : Nat))).isSome = true) :
    x.Takes ((x.interval.shortest place tries count).1 *
      10 ^ (x.interval.shortest place tries count).2) := by
  induction tries generalizing count with
  | zero =>
    obtain ⟨k, less, -⟩ := found
    cases less
  | succ tries ih =>
    rw [Interval.shortest]
    split
    · rename_i digits here
      exact takes_of_nearest? here
    · rename_i none
      refine ih ?_
      obtain ⟨k, less, some⟩ := found
      cases k with
      | zero =>
        rw [Nat.add_zero, none] at some
        cases some
      | succ k => exact ⟨k, by omega, by rwa [show count + 1 + k = count + (k + 1) by omega]⟩

/-- Seventeen digits are enough to write a magnitude. -/
theorem shortest_takes (ne : 0 < x.mantissa) :
    x.Takes ((x.interval.shortest (pointPlace x.interval.value x.interval.unit) 17 1).1 *
      10 ^ (x.interval.shortest (pointPlace x.interval.value x.interval.unit) 17 1).2) := by
  have value : 0 < x.interval.value := by
    unfold interval
    dsimp only
    split
    · omega
    · exact Nat.mul_pos (by omega) (Nat.pow_pos (by decide))
  have place := le_pointPlace value x.unit_pos
  rw [value_div_unit] at place
  have width := place.trans_lt (size_lt_width ne)
  -- the last of the seventeen grids is fine enough, whatever the others hold
  refine shortest_takes_of ⟨16, by decide, nearest?_isSome ne ?_⟩
  generalize pointPlace x.interval.value x.interval.unit = p at width
  have grid : (10 : ℚ) ^ (p - 1) = 10 ^ 16 * 10 ^ (p - (1 + 16 : Nat)) := by
    rw [← zpow_natCast, ← zpow_add₀ (by norm_num)]
    congr 1
    omega
  rw [grid] at width
  exact lt_of_mul_lt_mul_left width (by norm_num)

end Magnitude

end Branchwork.Binary64
