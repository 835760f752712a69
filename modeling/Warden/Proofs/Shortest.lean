import Mathlib
import Warden.Number.Shortest
import Warden.Proofs.Decimals
import Warden.Proofs.Nearby
/-! # Shortest decimals
The decimal in which a finite binary64 is written is **near** it (`Canonical.near_digits`): it lies
in the rounding interval, and so it reads back as the same value.

Seventeen grids of decimals are tried, the coarsest first. What is found on a grid lies in the
interval (`Canonical.near_of_onGrid`). On the last grid something is found at the latest
(`Canonical.isSome_onGrid`), since its step is shorter than the interval, so that the interval has
one of the two decimals next to the value in it. -/

namespace Warden

open Float.Model.UnpackedFloat (Sign)

/-! ## Leading digits -/

namespace Shortest

/-- **The leading digit** of a quotient is no greater than the quotient. -/
theorem leading_le {middle unit : Nat} (some : 0 < middle) (pos : 0 < unit) :
    (10 : ℚ) ^ leading middle unit ≤ middle / unit := by
  have unit_pos : (0 : ℚ) < unit := by exact_mod_cast pos
  have middle_pos : (0 : ℚ) < middle := by exact_mod_cast some
  have digits (n : Nat) : 0 < digitCount n := Nat.length_toDigits_pos
  have less (n : Nat) : n < 10 ^ digitCount n :=
    (Nat.length_toDigits_le_iff (by decide) (digits n)).mp le_rfl
  unfold leading
  dsimp only
  split
  · next large =>
    have one : middle / unit ≠ 0 := (Nat.div_pos large pos).ne'
    have first : 10 ^ (digitCount (middle / unit) - 1) ≤ middle / unit := by
      rcases Nat.eq_or_lt_of_le (Nat.succ_le_of_lt (digits (middle / unit))) with single | more
      · rw [← single]
        exact Nat.pos_of_ne_zero one
      · by_contra short
        have := (Nat.length_toDigits_le_iff (b := 10) (by decide) (Nat.sub_pos_of_lt more)).mpr
          (Nat.not_le.mp short)
        rw [← digitCount] at this
        omega
    have power : ((digitCount (middle / unit) : Int) - 1) =
        (digitCount (middle / unit) - 1 : Nat) := by
      have := digits (middle / unit)
      omega
    calc (10 : ℚ) ^ ((digitCount (middle / unit) : Int) - 1)
      _ = (10 ^ (digitCount (middle / unit) - 1) : Nat) := by
        rw [power, zpow_natCast]
        push_cast
        rfl
      _ ≤ (middle / unit : Nat) := by exact_mod_cast first
      _ ≤ middle / unit := Nat.cast_div_le
  · split
    · next exact =>
      rw [le_div_iff₀ unit_pos]
      have power : 1 - (digitCount (unit / middle) : Int) =
          -((digitCount (unit / middle) - 1 : Nat) : Int) := by
        have := digits (unit / middle)
        omega
      have whole : (unit : ℚ) = middle * 10 ^ (digitCount (unit / middle) - 1) := by
        exact_mod_cast exact
      rw [power, zpow_neg, zpow_natCast, whole]
      field_simp
      rfl
    · rw [le_div_iff₀ unit_pos, zpow_neg, zpow_natCast]
      have below : unit < middle * 10 ^ digitCount (unit / middle) := by
        rw [Nat.mul_comm]
        exact (Nat.div_lt_iff_lt_mul some).mp (less _)
      have bound : (unit : ℚ) ≤ middle * 10 ^ digitCount (unit / middle) := by
        exact_mod_cast below.le
      rw [inv_mul_le_iff₀ (by positivity), mul_comm]
      exact bound

end Shortest

namespace Canonical

variable {c : Canonical} {v : ℚ} {place : Int}

/-! ## The interval of the search -/

/-- The value without its sign. -/
def value (c : Canonical) : ℚ := c.mantissa * 2 ^ c.exponent

/-- The rounding interval in which decimals are searched. -/
def interval (c : Canonical) : Shortest.Interval := Shortest.interval c.mantissa c.exponent

theorem unit_pos (c : Canonical) : 0 < c.interval.unit := Nat.two_pow_pos _

/-- A quarter of the unit of the mantissa, over the denominator of the interval. -/
theorem quarter_eq (c : Canonical) :
    ((2 ^ (c.exponent - 2).toNat : Nat) : ℚ) = 2 ^ (c.exponent - 2) * c.interval.unit := by
  show _ = _ * ((2 ^ (2 - c.exponent).toNat : Nat) : ℚ)
  push_cast
  rw [← zpow_natCast, ← zpow_natCast, ← zpow_add₀ (by norm_num)]
  congr 1
  omega

/-- The unit of the mantissa has four quarters. -/
theorem four_quarters (c : Canonical) : (2 : ℚ) ^ c.exponent = 4 * 2 ^ (c.exponent - 2) := by
  rw [zpow_sub₀ (by norm_num)]
  norm_num
  ring

theorem middle_eq (c : Canonical) : (c.interval.middle : ℚ) = c.value * c.interval.unit := by
  show ((4 * c.mantissa * 2 ^ (c.exponent - 2).toNat : Nat) : ℚ) = _
  rw [Nat.cast_mul, quarter_eq, value, four_quarters]
  push_cast
  ring

theorem low_eq (c : Canonical) : (c.interval.low : ℚ) = c.low * c.interval.unit := by
  show (((4 * c.mantissa - c.below) * 2 ^ (c.exponent - 2).toNat : Nat) : ℚ) = _
  rw [Nat.cast_mul, quarter_eq, low, mul_assoc]

theorem high_eq (c : Canonical) : (c.interval.high : ℚ) = c.high * c.interval.unit := by
  show (((4 * c.mantissa + 2) * 2 ^ (c.exponent - 2).toNat : Nat) : ℚ) = _
  rw [Nat.cast_mul, quarter_eq, high, mul_assoc]

/-- **What the interval contains** is near the value. -/
theorem contains_iff {scale grid candidate : Nat} (pos : 0 < scale)
    (denotes : v * scale = candidate * grid) :
    c.interval.contains scale grid candidate = true ↔ c.Near v := by
  have factor : (0 : ℚ) < c.interval.unit * scale := by
    exact_mod_cast Nat.mul_pos c.unit_pos pos
  have point : ((candidate * grid * c.interval.unit : Nat) : ℚ) =
      v * (c.interval.unit * scale) := by
    push_cast
    rw [← denotes]
    ring
  have low : ((c.interval.low * scale : Nat) : ℚ) = c.low * (c.interval.unit * scale) := by
    rw [Nat.cast_mul, low_eq, mul_assoc]
  have high : ((c.interval.high * scale : Nat) : ℚ) = c.high * (c.interval.unit * scale) := by
    rw [Nat.cast_mul, high_eq, mul_assoc]
  have closed : c.interval.closed = decide (c.mantissa % 2 = 0) := rfl
  unfold Shortest.Interval.contains
  dsimp only
  rw [closed]
  rcases Nat.mod_two_eq_zero_or_one c.mantissa with even | odd
  · rw [if_pos (decide_eq_true even), Bool.and_eq_true, decide_eq_true_eq, decide_eq_true_eq,
      ← Nat.cast_le (α := ℚ), ← Nat.cast_le (α := ℚ), low, high, point,
      mul_le_mul_iff_left₀ factor, mul_le_mul_iff_left₀ factor]
    exact ⟨fun ⟨above, below⟩ => ⟨above, below, fun odd => by omega⟩,
      fun near => ⟨near.low_le, near.le_high⟩⟩
  · rw [if_neg (by simp [odd]), Bool.and_eq_true, decide_eq_true_eq, decide_eq_true_eq,
      ← Nat.cast_lt (α := ℚ), ← Nat.cast_lt (α := ℚ), low, high, point,
      mul_lt_mul_iff_left₀ factor, mul_lt_mul_iff_left₀ factor]
    exact ⟨fun ⟨above, below⟩ => ⟨above.le, below.le, fun _ => ⟨above, below⟩⟩,
      fun near => near.inside odd⟩

/-! ## Grids -/

/-- The step of a grid, as a quotient of natural numbers. -/
theorem step_eq (place : Int) :
    (10 : ℚ) ^ place * (10 ^ (-place).toNat : Nat) = (10 ^ place.toNat : Nat) := by
  push_cast
  rw [← zpow_natCast, ← zpow_natCast, ← zpow_add₀ (by norm_num)]
  congr 1
  omega

/-- A decimal on a grid is near the value iff the interval contains it. -/
theorem contains_grid_iff (c : Canonical) (place : Int) (candidate : Nat) :
    c.interval.contains (Nat.pow 10 (-place).toNat) (Nat.pow 10 place.toNat) candidate = true ↔
      c.Near (candidate * 10 ^ place) :=
  contains_iff (Nat.pow_pos (by decide)) (by rw [mul_assoc]; exact congrArg _ (step_eq place))

/-- **What is found** on a grid is near the value. -/
theorem near_of_onGrid {found : Nat} (finds : c.interval.onGrid place = some found) :
    c.Near (found * 10 ^ place) := by
  rw [← contains_grid_iff]
  unfold Shortest.Interval.onGrid at finds
  dsimp only at finds
  split at finds
  · next down up =>
    cases finds
    split
    · exact down
    · split
      · exact up
      · split
        · exact down
        · exact up
  · next down _ => cases finds; exact down
  · next _ up => cases finds; exact up
  · cases finds

/-- The decimals on a grid that are next to a number. -/
theorem next_to {value step : Nat} (pos : 0 < step) {x unit : ℚ} (positive : 0 < unit)
    (same : (value : ℚ) * unit = x * step) :
    ((value / step : Nat) : ℚ) * unit ≤ x ∧ x < ((value / step + 1 : Nat) : ℚ) * unit := by
  have some : (0 : ℚ) < step := by exact_mod_cast pos
  have is : x = value / step * unit := by
    rw [div_mul_eq_mul_div, same, mul_div_cancel_right₀ _ some.ne']
  rw [is]
  constructor
  · exact mul_le_mul_of_nonneg_right Nat.cast_div_le positive.le
  · refine mul_lt_mul_of_pos_right ?_ positive
    rw [div_lt_iff₀ some]
    exact_mod_cast Nat.lt_mul_of_div_lt (Nat.lt_succ_self (value / step)) pos

/-- The interval ends half a unit above the value. -/
theorem high_eq_value (c : Canonical) : c.high = c.value + 2 ^ c.exponent / 2 := by
  rw [high, value, four_quarters]
  push_cast
  ring

/-- It begins half a unit below, unless the value is a power of two. -/
theorem low_eq_value (two : c.below = 2) : c.low = c.value - 2 ^ c.exponent / 2 := by
  have pos := c.pos
  rw [low, value, four_quarters, two, Nat.cast_sub (by omega)]
  push_cast
  ring

theorem low_lt_value (c : Canonical) : c.low < c.value := by
  have pos := c.pos
  have few : 0 < c.below := by unfold below; split <;> omega
  have less : ((4 * c.mantissa - c.below : Nat) : ℚ) < (4 * c.mantissa : Nat) := by
    exact_mod_cast (by omega : 4 * c.mantissa - c.below < 4 * c.mantissa)
  calc c.low
    _ < (4 * c.mantissa : Nat) * 2 ^ (c.exponent - 2) := mul_lt_mul_of_pos_right less c.quarter_pos
    _ = c.value := by
      rw [value, four_quarters]
      push_cast
      ring

/-- What lies strictly between the ends is near. -/
theorem near_of_between (above : c.low < v) (below : v < c.high) : c.Near v :=
  ⟨above.le, below.le, fun _ => ⟨above, below⟩⟩

/-- **A decimal is found** on a grid with a step that is shorter than the interval. -/
theorem isSome_onGrid (fine : 10 ^ place < (2 : ℚ) ^ c.exponent)
    (finer : c.below = 1 → 10 ^ place < (2 : ℚ) ^ c.exponent / 2) :
    (c.interval.onGrid place).isSome = true := by
  obtain ⟨value, valued⟩ : ∃ value, value = c.interval.middle * Nat.pow 10 (-place).toNat :=
    ⟨_, rfl⟩
  obtain ⟨step, stepped⟩ : ∃ step, step = Nat.pow 10 place.toNat * c.interval.unit := ⟨_, rfl⟩
  have same : (value : ℚ) * 10 ^ place = c.value * step := by
    have grid : ((Nat.pow 10 place.toNat : Nat) : ℚ) =
        10 ^ place * (Nat.pow 10 (-place).toNat : Nat) :=
      (step_eq place).symm
    rw [valued, stepped, Nat.cast_mul, Nat.cast_mul, middle_eq, grid]
    ring
  have pos : 0 < step := stepped ▸ Nat.mul_pos (Nat.pow_pos (by decide)) c.unit_pos
  obtain ⟨down, up⟩ := next_to pos (zpow_pos (by norm_num) place) same
  -- One of the two decimals lies less than half a unit away from the value.
  have either : c.Near ((value / step : Nat) * 10 ^ place) ∨
      c.Near ((value / step + 1 : Nat) * 10 ^ place) := by
    rcases lt_or_ge (((value / step + 1 : Nat) : ℚ) * 10 ^ place) c.high with inside | outside
    · exact .inr (near_of_between (c.low_lt_value.trans up) inside)
    · have next : ((value / step + 1 : Nat) : ℚ) * 10 ^ place =
          (value / step : Nat) * 10 ^ place + 10 ^ place := by
        push_cast
        ring
      rw [high_eq_value, next] at outside
      have two : c.below = 2 := by
        by_contra other
        have one : c.below = 1 := by
          unfold below at other ⊢
          split at other <;> simp_all
        have := finer one
        linarith
      refine .inl (near_of_between ?_ ?_)
      · rw [low_eq_value two]
        linarith
      · rw [high_eq_value]
        have : (0 : ℚ) < 2 ^ c.exponent := zpow_pos (by norm_num) _
        linarith
  rw [← contains_grid_iff, ← contains_grid_iff] at either
  unfold Shortest.Interval.onGrid
  dsimp only
  rw [← valued, ← stepped]
  rcases either with inside | inside
  · rw [inside]
    split <;> simp_all
  · rw [inside]
    split <;> simp_all

/-! ## Seventeen digits -/

/-- Seventeen digits are enough: the step of their grid is shorter than a unit of the mantissa, and
than half a unit at a power of two. -/
theorem seventeenth_lt {lead : Int} (first : 10 ^ lead ≤ c.value) :
    10 ^ (lead - 16) < (2 : ℚ) ^ c.exponent ∧
      (c.below = 1 → 10 ^ (lead - 16) < (2 : ℚ) ^ c.exponent / 2) := by
  have unit : (0 : ℚ) < 2 ^ c.exponent := zpow_pos (by norm_num) _
  have cut : (10 : ℚ) ^ (lead - 16) = 10 ^ lead / 10 ^ 16 := by
    rw [zpow_sub₀ (by norm_num)]
    norm_num
  have short : (c.mantissa : ℚ) < 2 ^ 53 := by exact_mod_cast c.short
  rw [cut, div_lt_iff₀ (by norm_num), div_lt_iff₀ (by norm_num)]
  constructor
  · calc (10 : ℚ) ^ lead
      _ ≤ c.mantissa * 2 ^ c.exponent := first
      _ < 2 ^ 53 * 2 ^ c.exponent := mul_lt_mul_of_pos_right short unit
      _ ≤ 2 ^ c.exponent * 10 ^ 16 := by linarith
  · intro one
    have power : c.mantissa = 2 ^ 52 := by
      unfold below at one
      split at one
      · next is => exact is.1
      · cases one
    have value : (c.mantissa : ℚ) = 2 ^ 52 := by exact_mod_cast power
    calc (10 : ℚ) ^ lead
      _ ≤ c.mantissa * 2 ^ c.exponent := first
      _ = 2 ^ 52 * 2 ^ c.exponent := by rw [value]
      _ < 2 ^ c.exponent / 2 * 10 ^ 16 := by linarith

/-- What is near a value is positive. -/
theorem Near.pos (near : c.Near v) : 0 < v :=
  (zpow_pos (by norm_num) _).trans_le near.bounds.1

/-- **The decimal** in which a value is written is near it. -/
theorem near_digits (c : Canonical) (sign : Sign) :
    c.Near ((Shortest.digits (c.toFloat sign)).1 * 10 ^ (Shortest.digits (c.toFloat sign)).2) := by
  have digits : Shortest.digits (c.toFloat sign) = Shortest.search c.interval
      (Shortest.leading c.interval.middle c.interval.unit) 17 0 := by
    unfold Shortest.digits
    rw [c.parts_toFloat sign]
    rfl
  have unit : (0 : ℚ) < c.interval.unit := by exact_mod_cast c.unit_pos
  have some : 0 < c.interval.middle := by
    show 0 < 4 * c.mantissa * 2 ^ _
    exact Nat.mul_pos (Nat.mul_pos (by decide) c.pos) (Nat.two_pow_pos _)
  have first : (10 : ℚ) ^ Shortest.leading c.interval.middle c.interval.unit ≤ c.value := by
    refine (Shortest.leading_le some c.unit_pos).trans_eq ?_
    rw [middle_eq, mul_div_cancel_right₀ _ unit.ne']
  obtain ⟨fine, finer⟩ := seventeenth_lt first
  obtain ⟨k, found, finds, stops⟩ := Shortest.search_of_isSome (isSome_onGrid fine finer)
    (Shortest.leading c.interval.middle c.interval.unit) 17 0 (by omega) (by omega)
  have near := near_of_onGrid finds
  generalize Shortest.leading c.interval.middle c.interval.unit - 16 + (k : Int) = place at *
  obtain ⟨j, raised, kept⟩ := Shortest.exists_trim 20 found place
  -- Zeros at the end of the digits are dropped, which changes nothing.
  have same : ((Shortest.trim 20 found place).1 : ℚ) * 10 ^ (place + j) = found * 10 ^ place := by
    have whole : ((Shortest.trim 20 found place).1 : ℚ) * 10 ^ j = found := by exact_mod_cast kept
    rw [← whole, zpow_add₀ (by norm_num), zpow_natCast]
    ring
  rw [digits, stops, raised, same]
  exact near

end Canonical

end Warden
