import Mathlib
import Warden.Number.Decimal
import Warden.Proofs.Canonical
import Warden.Proofs.Nearest
/-! # What rounds to a binary64
Around every finite binary64 lies an interval of numbers to which it is the nearest one
(`Canonical.Near`). It ends half a unit away from the value, below a power of two only a quarter of
one, and has its ends in it if the mantissa is even.

**What is near rounds to it** (`Canonical.round_of_near`), however the number is given: a product,
as a quotient (`Canonical.mul_of_near`, `Canonical.div_of_near`), or as a decimal
(`Canonical.nearestPower_of_near`). -/

namespace Warden

open Float.Model (UnpackedFloat Format)
open Float.Model.UnpackedFloat (ExtendedMantissa Sign accuracyOfFraction)

/-! ## Quotients -/

/-- A quotient is rounded to a number that is half away from it at most, and less than that if the
number is odd. -/
theorem roundQuotient_eq {n d m : Nat} (pos : 0 < d) (low : 2 * (m * d) ≤ 2 * n + d)
    (high : 2 * n ≤ 2 * (m * d) + d)
    (odd : m % 2 = 1 → 2 * (m * d) < 2 * n + d ∧ 2 * n < 2 * (m * d) + d) :
    roundQuotient n d = m := by
  have parts := Nat.div_add_mod n d
  have less := Nat.mod_lt n pos
  rw [Nat.mul_comm] at parts
  have atLeast : n / d ≤ m := by
    by_contra greater
    have := Nat.mul_le_mul_right d (Nat.not_le.mp greater)
    rw [Nat.succ_mul] at this
    omega
  have atMost : m ≤ n / d + 1 := by
    by_contra greater
    have := Nat.mul_le_mul_right d (Nat.not_le.mp greater)
    rw [Nat.succ_mul, Nat.succ_mul] at this
    omega
  unfold roundQuotient
  rcases (by omega : m = n / d ∨ m = n / d + 1) with same | next
  · rw [← same] at parts
    rw [if_pos, same]
    omega
  · have product : m * d = n / d * d + d := by rw [next, Nat.succ_mul]
    rw [if_neg, next]
    omega

/-- A mantissa with what was cut off behind it **stands for** a quotient. -/
def StandsFor (extended : ExtendedMantissa) (n d : Nat) : Prop :=
  extended = ⟨n / d, decide (d ≤ 2 * (n % d)), decide (2 * (n % d) % d ≠ 0)⟩

theorem standsFor_ofFraction {n d : Nat} (pos : 0 < d) :
    StandsFor (ExtendedMantissa.ofMantissaAndAccuracy (n / d) (accuracyOfFraction (n % d) d))
      n d := by
  have less := Nat.mod_lt n pos
  unfold StandsFor accuracyOfFraction
  generalize n % d = r at less
  split
  · next zero => simp [zero, ExtendedMantissa.ofMantissaAndAccuracy, pos.ne']
  · next some =>
    rcases lt_trichotomy (2 * r) d with lt | eq | gt
    · rw [compare_lt_iff_lt.mpr lt, Nat.mod_eq_of_lt lt]
      simp [ExtendedMantissa.ofMantissaAndAccuracy, lt, some]
    · rw [compare_eq_iff_eq.mpr eq, eq]
      simp [ExtendedMantissa.ofMantissaAndAccuracy]
    · have rest : 2 * r % d ≠ 0 := by
        rw [Nat.mod_eq_sub_mod gt.le, Nat.mod_eq_of_lt (by omega)]
        omega
      rw [compare_gt_iff_gt.mpr gt]
      simp [ExtendedMantissa.ofMantissaAndAccuracy, gt.le, rest]

/-- Shifting by one bit halves the quotient. -/
theorem StandsFor.shiftRightOne {extended : ExtendedMantissa} {n d : Nat} (pos : 0 < d)
    (stands : StandsFor extended n d) : StandsFor extended.shiftRightOne n (d * 2) := by
  have less := Nat.mod_lt n pos
  have rest : n % (d * 2) = n % d + d * (n / d % 2) := Nat.mod_mul
  unfold StandsFor at stands ⊢
  rw [stands, ExtendedMantissa.shiftRightOne, Nat.div_div_eq_div_mul, rest]
  generalize n % d = r at less
  have any : 2 * r % d ≠ 0 ∨ d ≤ 2 * r ↔ r ≠ 0 := by
    rcases Nat.lt_or_ge (2 * r) d with small | large
    · rw [Nat.mod_eq_of_lt small]
      omega
    · omega
  have sticky : (decide (d ≤ 2 * r) || decide (2 * r % d ≠ 0)) = decide (r ≠ 0) := by
    rw [Bool.or_comm, ← Bool.decide_or, decide_eq_decide]
    exact any
  rw [sticky, ExtendedMantissa.mk.injEq]
  refine ⟨rfl, ?_, ?_⟩ <;> rcases Nat.mod_two_eq_zero_or_one (n / d) with even | odd
  · rw [even, Nat.mul_zero, Nat.add_zero]
    exact (decide_eq_false (by omega)).symm
  · rw [odd, Nat.mul_one]
    exact (decide_eq_true (by omega)).symm
  · rw [even, Nat.mul_zero, Nat.add_zero, Nat.mod_eq_of_lt (by omega), decide_eq_decide]
    omega
  · have rest : 2 * (r + d * 1) % (d * 2) = 2 * r := by
      rw [Nat.mul_one, Nat.mul_add, Nat.mul_comm 2 d, Nat.add_mod_right, Nat.mod_eq_of_lt (by omega)]
    rw [odd, rest, decide_eq_decide]
    omega

/-- **Shifting and rounding** a quotient is dividing by more and rounding. -/
theorem roundedMantissa_ofFraction {n d : Nat} (pos : 0 < d) (k : Nat) :
    (ExtendedMantissa.ofMantissaAndAccuracy (n / d) (accuracyOfFraction (n % d) d) >>>
      k).roundedMantissa = roundQuotient n (d * 2 ^ k) := by
  have stands : StandsFor
      (ExtendedMantissa.ofMantissaAndAccuracy (n / d) (accuracyOfFraction (n % d) d) >>> k) n
      (d * 2 ^ k) := by
    induction k with
    | zero =>
      rw [Nat.pow_zero, Nat.mul_one]
      exact standsFor_ofFraction pos
    | succ k ih =>
      rw [Nat.pow_succ, ← Nat.mul_assoc]
      exact ih.shiftRightOne (Nat.mul_pos pos (Nat.two_pow_pos k))
  have some : 0 < d * 2 ^ k := Nat.mul_pos pos (Nat.two_pow_pos k)
  generalize d * 2 ^ k = unit at *
  have less := Nat.mod_lt n some
  rw [show _ = _ from stands, roundedMantissa_eq, roundQuotient]
  simp only [decide_eq_true_eq]
  rcases lt_trichotomy (2 * (n % unit)) unit with lt | eq | gt
  · rw [if_neg (by omega), if_pos (.inl lt)]
  · rw [eq, Nat.mod_self, if_pos (le_refl _), if_neg (not_not.mpr rfl)]
    split <;> omega
  · have rest : 2 * (n % unit) % unit ≠ 0 := by
      rw [Nat.mod_eq_sub_mod gt.le, Nat.mod_eq_of_lt (by omega)]
      omega
    rw [if_pos gt.le, if_pos rest, if_neg (by omega)]

/-! ## Rounding intervals -/

namespace Canonical

/-- How far below the value its rounding interval begins, in quarters of the unit of the mantissa:
below a power of two the next value is only half as far away. -/
def below (c : Canonical) : Nat := if c.mantissa = 2 ^ 52 ∧ c.exponent ≠ -1074 then 1 else 2

/-- Where the rounding interval begins. -/
def low (c : Canonical) : ℚ := (4 * c.mantissa - c.below : Nat) * 2 ^ (c.exponent - 2)

/-- Where the rounding interval ends. -/
def high (c : Canonical) : ℚ := (4 * c.mantissa + 2 : Nat) * 2 ^ (c.exponent - 2)

/-- A number is **near** a value if it lies in its rounding interval, whose ends belong to it if the
mantissa is even. -/
structure Near (c : Canonical) (v : ℚ) : Prop where
  /-- The number does not lie below the interval. -/
  low_le : c.low ≤ v
  /-- It does not lie above the interval. -/
  le_high : v ≤ c.high
  /-- If the mantissa is odd, it is no end of the interval. -/
  inside : c.mantissa % 2 = 1 → c.low < v ∧ v < c.high

variable {c : Canonical} {n d : Nat} {e : Int}

/-- What is cut off from a quotient leaves it between two powers of two. -/
theorem binade (pos : 0 < d) {t : Int}
    (target : t = Format.binary64.targetExponent (Float.Model.totalExponent (n / d) e))
    (fine : e ≤ t) :
    -1074 ≤ t ∧ (n / d : ℚ) * 2 ^ e < 2 ^ (t + 53) ∧
      (-1074 < t → 2 ^ (t + 52) ≤ (n / d : ℚ) * 2 ^ e) := by
  have is : t = max ((n / d).log2 + 1 + e - 53) (-1074) := target
  have unit : (0 : ℚ) < 2 ^ e := zpow_pos (by norm_num) e
  have lower : ((n / d : Nat) : ℚ) ≤ n / d := Nat.cast_div_le
  have upper : (n / d : ℚ) < (n / d : Nat) + 1 := by
    have some : (0 : ℚ) < d := by exact_mod_cast pos
    rw [div_lt_iff₀ some]
    exact_mod_cast Nat.lt_mul_of_div_lt (Nat.lt_succ_self (n / d)) pos
  refine ⟨is ▸ le_max_right _ _, ?_, fun large => ?_⟩
  · have bits : ((n / d : Nat) : ℚ) + 1 ≤ 2 ^ ((n / d).log2 + 1) := by
      exact_mod_cast Nat.lt_log2_self (n := n / d)
    calc (n / d : ℚ) * 2 ^ e
      _ < 2 ^ ((n / d).log2 + 1) * 2 ^ e := by
        exact mul_lt_mul_of_pos_right (upper.trans_le bits) unit
      _ = 2 ^ ((n / d).log2 + 1 + e : Int) := by
        rw [← zpow_natCast, ← zpow_add₀ (by norm_num)]
        push_cast
        rfl
      _ ≤ 2 ^ (t + 53) := zpow_le_zpow_right₀ (by norm_num) (by omega)
  · have some : n / d ≠ 0 := by
      intro zero
      rw [zero] at is
      have none : Nat.log2 0 = 0 := by simp
      omega
    have bits : (2 : ℚ) ^ (n / d).log2 ≤ ((n / d : Nat) : ℚ) := by
      exact_mod_cast Nat.log2_self_le some
    calc (2 : ℚ) ^ (t + 52)
      _ = 2 ^ ((n / d).log2 + e : Int) := by congr 1; omega
      _ = 2 ^ (n / d).log2 * 2 ^ e := by rw [zpow_add₀ (by norm_num), zpow_natCast]
      _ ≤ (n / d : ℚ) * 2 ^ e := by
        exact mul_le_mul_of_nonneg_right (bits.trans lower) unit.le

/-- A number of quarters of the unit, as a power of two. -/
theorem quarters (k : Nat) :
    ((2 ^ k : Nat) : ℚ) * 2 ^ (c.exponent - 2) = 2 ^ (c.exponent + k - 2) := by
  rw [Nat.cast_pow, Nat.cast_ofNat, ← zpow_natCast, ← zpow_add₀ (by norm_num)]
  congr 1
  omega

/-- The unit of a quarter is positive. -/
theorem quarter_pos (c : Canonical) : (0 : ℚ) < 2 ^ (c.exponent - 2) := zpow_pos (by norm_num) _

/-- The rounding interval ends below the next power of two. -/
theorem high_lt (c : Canonical) : c.high < 2 ^ (c.exponent + 53) := by
  have short := c.short
  have less : ((4 * c.mantissa + 2 : Nat) : ℚ) < (2 ^ 55 : Nat) := by
    exact_mod_cast (by omega : 4 * c.mantissa + 2 < 2 ^ 55)
  calc c.high
    _ < (2 ^ 55 : Nat) * 2 ^ (c.exponent - 2) := mul_lt_mul_of_pos_right less c.quarter_pos
    _ = 2 ^ (c.exponent + 53) := by
      rw [quarters]
      congr 1
      omega

/-- It begins above the power of two before, unless the value is this power. -/
theorem lt_low (full : 2 ^ 52 < c.mantissa) : 2 ^ (c.exponent + 52) < c.low := by
  have two : c.below = 2 := if_neg (by omega)
  have less : ((2 ^ 54 : Nat) : ℚ) < (4 * c.mantissa - c.below : Nat) := by
    exact_mod_cast (by omega : 2 ^ 54 < 4 * c.mantissa - c.below)
  calc (2 : ℚ) ^ (c.exponent + 52)
    _ = (2 ^ 54 : Nat) * 2 ^ (c.exponent - 2) := by
      rw [quarters]
      congr 1
      omega
    _ < c.low := mul_lt_mul_of_pos_right less c.quarter_pos

/-- Then it begins only shortly before. -/
theorem lt_low_of_power (power : c.mantissa = 2 ^ 52) : 2 ^ (c.exponent + 51) < c.low := by
  have few : c.below ≤ 2 := by unfold below; split <;> omega
  have less : ((2 ^ 53 : Nat) : ℚ) < (4 * c.mantissa - c.below : Nat) := by
    exact_mod_cast (by omega : 2 ^ 53 < 4 * c.mantissa - c.below)
  calc (2 : ℚ) ^ (c.exponent + 51)
    _ = (2 ^ 53 : Nat) * 2 ^ (c.exponent - 2) := by
      rw [quarters]
      congr 1
      omega
    _ < c.low := mul_lt_mul_of_pos_right less c.quarter_pos

/-- **The exponent** at which a number near a value is rounded: the value's own, or the one before
if the number lies below the value, which is a power of two. -/
theorem Near.exponent {v : ℚ} (near : c.Near v) {t : Int} (least : -1074 ≤ t)
    (most : v < 2 ^ (t + 53)) (large : -1074 < t → 2 ^ (t + 52) ≤ v) :
    t = c.exponent ∨ t + 1 = c.exponent ∧ c.mantissa = 2 ^ 52 := by
  have grows {a b : Int} (le : (2 : ℚ) ^ a < 2 ^ b) : a < b :=
    (zpow_lt_zpow_iff_right₀ (by norm_num)).mp le
  have least' := c.least
  rcases lt_trichotomy t c.exponent with lt | eq | gt
  · have full := c.full (by omega)
    rcases Nat.lt_or_eq_of_le full with above | power
    · have := grows ((lt_low above).trans_le near.low_le |>.trans most)
      omega
    · have := grows ((lt_low_of_power power.symm).trans_le near.low_le |>.trans most)
      exact .inr ⟨by omega, power.symm⟩
  · exact .inl eq
  · have := grows ((large (by omega)).trans_lt (near.le_high.trans_lt c.high_lt))
    omega

/-! ## Rounding -/

/-- The canonical mantissa has the exponent that the format asks for. -/
theorem shiftToTargetExponent_self (c : Canonical) :
    UnpackedFloat.shiftToTargetExponent Format.binary64 c.mantissa c.exponent .exact =
      (⟨c.mantissa, false, false⟩, c.exponent) := by
  have least := c.least
  have pos := c.pos
  have short := c.short
  rcases Nat.lt_or_ge c.mantissa (2 ^ 52) with few | full
  · have smallest : c.exponent = -1074 := by
      by_contra larger
      have := c.full larger
      omega
    have log : c.mantissa.log2 < 52 := (Nat.log2_lt pos.ne').mpr few
    have target : (Format.binary64.targetExponent
        (Float.Model.totalExponent c.mantissa c.exponent) - c.exponent).toNat = 0 := by
      show (max ((c.mantissa.log2 : Int) + 1 + c.exponent - 53) (-1074) - c.exponent).toNat = 0
      omega
    unfold UnpackedFloat.shiftToTargetExponent UnpackedFloat.shiftToExponent
    simp only [target]
    exact Prod.ext rfl (Int.add_zero _)
  · have log : c.mantissa.log2 = 52 + 0 := (Nat.log2_eq_iff pos.ne').mpr ⟨full, short⟩
    rw [shiftToTargetExponent_eq log (by omega)]
    exact Prod.ext rfl (Int.add_zero _)

/-- The quotient at an exponent. -/
theorem quotient_shift (n d k : Nat) (e : Int) :
    (n / d : ℚ) * 2 ^ e = n / (d * 2 ^ k : Nat) * 2 ^ (e + k) := by
  have some : (2 : ℚ) ^ k ≠ 0 := pow_ne_zero k (by norm_num)
  rw [zpow_add₀ (by norm_num), zpow_natCast, Nat.cast_mul, Nat.cast_pow, Nat.cast_ofNat]
  rcases eq_or_ne (d : ℚ) 0 with zero | other
  · simp [zero]
  · field_simp

/-- Comparing a quotient with a number of quarters of a unit. -/
theorem quarters_le_iff {m n d : Nat} (pos : 0 < d) (t : Int) :
    ((m : ℚ) * 2 ^ (t - 2) ≤ n / d * 2 ^ t ↔ m * d ≤ 4 * n) ∧
      ((m : ℚ) * 2 ^ (t - 2) < n / d * 2 ^ t ↔ m * d < 4 * n) ∧
      (n / d * 2 ^ t ≤ (m : ℚ) * 2 ^ (t - 2) ↔ 4 * n ≤ m * d) ∧
      (n / d * 2 ^ t < (m : ℚ) * 2 ^ (t - 2) ↔ 4 * n < m * d) := by
  have unit : (0 : ℚ) < 2 ^ (t - 2) := zpow_pos (by norm_num) _
  have some : (0 : ℚ) < d := by exact_mod_cast pos
  have four : (n / d : ℚ) * 2 ^ t = (4 * n / d : ℚ) * 2 ^ (t - 2) := by
    rw [show (t : Int) = t - 2 + 2 by omega, zpow_add₀ (by norm_num), Int.add_sub_cancel]
    norm_num
    ring
  rw [four, mul_le_mul_iff_left₀ unit, mul_lt_mul_iff_left₀ unit, mul_le_mul_iff_left₀ unit,
    mul_lt_mul_iff_left₀ unit, le_div_iff₀ some, lt_div_iff₀ some, div_le_iff₀ some,
    div_lt_iff₀ some]
  exact ⟨by norm_cast, by norm_cast, by norm_cast, by norm_cast⟩

/-- At its own exponent, a number near a value is rounded to the mantissa. -/
theorem Near.roundQuotient_eq (near : c.Near (n / d * 2 ^ c.exponent)) (pos : 0 < d) :
    roundQuotient n d = c.mantissa := by
  obtain ⟨low, lowStrict, -, -⟩ :=
    quarters_le_iff (m := 4 * c.mantissa - c.below) (n := n) pos c.exponent
  obtain ⟨-, -, high, highStrict⟩ :=
    quarters_le_iff (m := 4 * c.mantissa + 2) (n := n) pos c.exponent
  have few : c.below = 1 ∨ c.below = 2 := by unfold below; split <;> omega
  have begins : 4 * (c.mantissa * d) ≤ (4 * c.mantissa - c.below) * d + 2 * d := by
    rw [Nat.sub_mul, Nat.mul_assoc]
    rcases few with one | two
    · rw [one]; omega
    · rw [two]; omega
  have ends : (4 * c.mantissa + 2) * d = 4 * (c.mantissa * d) + 2 * d := by
    rw [Nat.add_mul, Nat.mul_assoc]
  have above := low.mp near.low_le
  have below := high.mp near.le_high
  refine Warden.roundQuotient_eq pos (by omega) (by omega) fun odd => ?_
  obtain ⟨strictlyAbove, strictlyBelow⟩ := near.inside odd
  have := lowStrict.mp strictlyAbove
  have := highStrict.mp strictlyBelow
  omega

/-- At the exponent before that of a power of two, a number that is near it from below is rounded to
the power. -/
theorem Near.roundQuotient_of_power {t : Int} (near : c.Near (n / d * 2 ^ t)) (pos : 0 < d)
    (least : -1074 ≤ t) (before : t + 1 = c.exponent) (power : c.mantissa = 2 ^ 52)
    (most : (n / d : ℚ) * 2 ^ t < 2 ^ (t + 53)) : roundQuotient n d = 2 ^ 53 := by
  have one : c.below = 1 := if_pos ⟨power, by omega⟩
  have begins : c.low = ((2 * (2 ^ 54 - 1) : Nat) : ℚ) * 2 ^ (t - 2) := by
    rw [low, one, power, ← before, show t + 1 - 2 = 1 + (t - 2) by omega, zpow_add₀ (by norm_num)]
    push_cast
    ring
  have ends : (2 : ℚ) ^ (t + 53) = ((2 ^ 55 : Nat) : ℚ) * 2 ^ (t - 2) := by
    rw [show t + 53 = 55 + (t - 2) by omega, zpow_add₀ (by norm_num)]
    norm_num
  have low := (quarters_le_iff (n := n) pos t).1.mp (begins ▸ near.low_le)
  have high := (quarters_le_iff (n := n) pos t).2.2.2.mp (ends ▸ most)
  exact Warden.roundQuotient_eq pos (by omega) (by omega) fun odd => absurd odd (by decide)

/-- **What is near a value rounds to it.** -/
theorem round_of_near (sign : Sign) (pos : 0 < d) (near : c.Near (n / d * 2 ^ e))
    (fine : e ≤ Format.binary64.targetExponent (Float.Model.totalExponent (n / d) e)) :
    UnpackedFloat.roundWithAccuracy Format.binary64 sign (n / d) e (accuracyOfFraction (n % d) d) =
      c.unpacked sign := by
  obtain ⟨t, target⟩ :
      ∃ t, t = Format.binary64.targetExponent (Float.Model.totalExponent (n / d) e) :=
    ⟨_, rfl⟩
  rw [← target] at fine
  obtain ⟨k, shift⟩ := Int.le.dest fine
  obtain ⟨least, most, large⟩ := binade pos target fine
  have first : UnpackedFloat.shiftToTargetExponent Format.binary64 (n / d) e
      (accuracyOfFraction (n % d) d) =
        (ExtendedMantissa.ofMantissaAndAccuracy (n / d) (accuracyOfFraction (n % d) d) >>> k,
          t) := by
    have bits : (t - e).toNat = k := by omega
    unfold UnpackedFloat.shiftToTargetExponent UnpackedFloat.shiftToExponent
    simp only [← target, bits, shift]
  have unit : 0 < d * 2 ^ k := Nat.mul_pos pos (Nat.two_pow_pos k)
  rw [quotient_shift n d k e, shift] at near most large
  rw [UnpackedFloat.roundWithAccuracy, first]
  dsimp only
  rw [roundedMantissa_ofFraction pos]
  rcases near.exponent least most large with same | ⟨before, power⟩
  · rw [same] at near ⊢
    rw [near.roundQuotient_eq unit, shiftToTargetExponent_self]
    exact dif_neg c.pos.ne'
  · -- Rounding makes one bit too many, which is shifted out.
    have log : (2 ^ 53).log2 = 52 + 1 := Nat.log2_two_pow
    rw [near.roundQuotient_of_power unit least before power most,
      shiftToTargetExponent_eq log (by omega)]
    unfold unpacked
    simp only [power, ← before]
    rfl

/-! ## Products and quotients -/

/-- A product that is near a value rounds to it. -/
theorem mul_of_near {s s' : Sign} {m m' : Nat} {e e' : Int} (pos : 0 < m) (pos' : 0 < m')
    (near : c.Near (m * m' * 2 ^ (e + e'))) (long : 2 ^ 52 ≤ m * m') :
    UnpackedFloat.mul Format.binary64 (.finite s m e pos) (.finite s' m' e' pos') =
      c.unpacked (s * s') := by
  have log : 52 ≤ (m * m').log2 := (Nat.le_log2 (by omega)).mpr long
  have fine : e + e' ≤
      Format.binary64.targetExponent (Float.Model.totalExponent (m * m' / 1) (e + e')) := by
    show e + e' ≤ max (((m * m' / 1).log2 : Int) + 1 + (e + e') - 53) (-1074)
    rw [Nat.div_one]
    omega
  have near' : c.Near ((m * m' : Nat) / (1 : Nat) * 2 ^ (e + e')) := by
    simpa using near
  have rounds := round_of_near (s * s') Nat.one_pos near' fine
  rw [Nat.div_one, Nat.mod_one] at rounds
  exact rounds

/-- A quotient that is near a value rounds to it. -/
theorem div_of_near {s s' : Sign} {m m' : Nat} {e e' : Int} (pos : 0 < m) (pos' : 0 < m')
    (near : c.Near (m / m' * 2 ^ (e - e'))) :
    UnpackedFloat.div Format.binary64 (.finite s m e pos) (.finite s' m' e' pos') =
      c.unpacked (s / s') := by
  obtain ⟨t, target⟩ : ∃ t, t = min (e - e') (Format.binary64.targetExponent
      (Float.Model.totalExponent m e - Float.Model.totalExponent m' e')) := ⟨_, rfl⟩
  have is : t = min (e - e')
      (max ((m.log2 : Int) + 1 + e - (m'.log2 + 1 + e') - 53) (-1074)) := target
  obtain ⟨k, shift⟩ := Int.le.dest (show t ≤ e - e' by omega)
  have bits : (e - e' - t).toNat = k := by omega
  have core : UnpackedFloat.divCore Format.binary64 m e m' e' =
      (m * 2 ^ k / m', t, accuracyOfFraction (m * 2 ^ k % m') m') := by
    unfold UnpackedFloat.divCore
    simp only [← target, bits, Nat.shiftLeft_eq]
  have near' : c.Near ((m * 2 ^ k : Nat) / m' * 2 ^ t) := by
    have same : ((m * 2 ^ k : Nat) : ℚ) / m' * 2 ^ t = m / m' * 2 ^ (e - e') := by
      rw [← shift, zpow_add₀ (by norm_num), zpow_natCast, Nat.cast_mul, Nat.cast_pow,
        Nat.cast_ofNat]
      ring
    rwa [same]
  have fine :
      t ≤ Format.binary64.targetExponent (Float.Model.totalExponent (m * 2 ^ k / m') t) := by
    show t ≤ max (((m * 2 ^ k / m').log2 : Int) + 1 + t - 53) (-1074)
    rcases le_or_gt t (-1074) with small | large
    · omega
    · -- The dividend is shifted so far that the quotient has enough bits.
      have long : 2 ^ 52 ≤ m * 2 ^ k / m' := by
        rw [Nat.le_div_iff_mul_le pos']
        calc 2 ^ 52 * m'
          _ ≤ 2 ^ 52 * 2 ^ (m'.log2 + 1) := Nat.mul_le_mul_left _ Nat.lt_log2_self.le
          _ = 2 ^ (m'.log2 + 53) := by rw [← Nat.pow_add]; congr 1; omega
          _ ≤ 2 ^ (m.log2 + k) := Nat.pow_le_pow_right (by decide) (by omega)
          _ = 2 ^ m.log2 * 2 ^ k := Nat.pow_add _ _ _
          _ ≤ m * 2 ^ k := Nat.mul_le_mul_right _ (Nat.log2_self_le pos.ne')
      have log : 52 ≤ (m * 2 ^ k / m').log2 := (Nat.le_log2 (by omega)).mpr long
      omega
  show (match UnpackedFloat.divCore Format.binary64 m e m' e' with
    | (m, e, acc) => UnpackedFloat.roundWithAccuracy Format.binary64 (s / s') m e acc) = _
  rw [core]
  exact round_of_near (s / s') pos' near' fine

/-! ## Decimals -/

/-- Where a value lies in the range of all values. -/
theorem Near.bounds {v : ℚ} (near : c.Near v) : 2 ^ (-1075 : Int) ≤ v ∧ v < 2 ^ (1024 : Int) := by
  have pos := c.pos
  have least := c.least
  have most := c.most
  have two : ((2 ^ 1 : Nat) : ℚ) ≤ (4 * c.mantissa - c.below : Nat) := by
    have few : c.below ≤ 2 := by unfold below; split <;> omega
    exact_mod_cast (by omega : 2 ^ 1 ≤ 4 * c.mantissa - c.below)
  constructor
  · calc (2 : ℚ) ^ (-1075 : Int)
      _ ≤ 2 ^ (c.exponent + (1 : Nat) - 2) := zpow_le_zpow_right₀ (by norm_num) (by omega)
      _ = (2 ^ 1 : Nat) * 2 ^ (c.exponent - 2) := (quarters 1).symm
      _ ≤ c.low := mul_le_mul_of_nonneg_right two c.quarter_pos.le
      _ ≤ v := near.low_le
  · calc v
      _ ≤ c.high := near.le_high
      _ < 2 ^ (c.exponent + 53) := c.high_lt
      _ ≤ 2 ^ (1024 : Int) := zpow_le_zpow_right₀ (by norm_num) (by omega)

/-- The power of ten of a decimal that is near a value is not far out. -/
theorem Near.power_bounds {m : Nat} {q : Int} (some : m ≠ 0) (near : c.Near (m * 10 ^ q)) :
    q ≤ 2048 ∧ -(2048 + (m.log2 : Int)) ≤ q := by
  obtain ⟨least, most⟩ := near.bounds
  constructor
  · by_contra large
    have one : (1 : ℚ) ≤ m := by exact_mod_cast Nat.one_le_iff_ne_zero.mpr some
    have beyond : (2 : ℚ) ^ (1024 : Int) ≤ m * 10 ^ q := by
      calc (2 : ℚ) ^ (1024 : Int)
        _ ≤ 2 ^ q := zpow_le_zpow_right₀ (by norm_num) (by omega)
        _ ≤ 10 ^ q := zpow_le_zpow_left₀ (by omega) (by norm_num) (by norm_num)
        _ ≤ m * 10 ^ q := le_mul_of_one_le_left (zpow_pos (by norm_num) q).le one
    exact (beyond.trans_lt most).false
  · by_contra small
    have bits : (m : ℚ) < 2 ^ (m.log2 + 1) := by exact_mod_cast Nat.lt_log2_self (n := m)
    have beyond : (m * 10 ^ q : ℚ) < 2 ^ (-1075 : Int) := by
      calc (m * 10 ^ q : ℚ)
        _ < 2 ^ (m.log2 + 1) * 10 ^ q := mul_lt_mul_of_pos_right bits (zpow_pos (by norm_num) q)
        _ ≤ 2 ^ (m.log2 + 1) * 2 ^ q := by
          refine mul_le_mul_of_nonneg_left ?_ (by positivity)
          have flip : (10 : ℚ) ^ q = (10 ^ (-q))⁻¹ := by rw [zpow_neg, inv_inv]
          have flipToo : (2 : ℚ) ^ q = (2 ^ (-q))⁻¹ := by rw [zpow_neg, inv_inv]
          rw [flip, flipToo]
          exact inv_anti₀ (zpow_pos (by norm_num) _)
            (zpow_le_zpow_left₀ (by omega) (by norm_num) (by norm_num))
        _ = 2 ^ ((m.log2 + 1 : Nat) + q : Int) := by
          rw [zpow_add₀ (by norm_num), zpow_natCast]
        _ ≤ 2 ^ (-1075 : Int) := zpow_le_zpow_right₀ (by norm_num) (by push_cast; omega)
    exact (least.trans_lt beyond).false

/-- A decimal that is near a value is read as it, by one multiplication or division of integers. -/
theorem ofScientific_of_near {m : Nat} {q : Int} (some : m ≠ 0) (near : c.Near (m * 10 ^ q)) :
    UnpackedFloat.ofScientific Format.binary64 m q = c.unpacked .positive := by
  obtain ⟨most, least⟩ := near.power_bounds some
  have pos : 0 < m := Nat.pos_of_ne_zero some
  have powers : (2 : Int) ^ Format.binary64.exponentBits = 2048 := rfl
  unfold UnpackedFloat.ofScientific
  rw [dif_neg some, if_neg (by omega), if_neg (by omega)]
  split
  · next nonneg =>
    obtain ⟨k, rfl⟩ := Int.eq_ofNat_of_zero_le nonneg
    have near' : c.Near
        ((m <<< 53 : Nat) * (10 ^ (k : Int).toNat : Nat) * 2 ^ (-(53 : Nat) + 0 : Int)) := by
      have same :
          ((m <<< 53 : Nat) : ℚ) * (10 ^ (k : Int).toNat : Nat) * 2 ^ (-(53 : Nat) + 0 : Int)
          = m * 10 ^ (k : Int) := by
        rw [Nat.shiftLeft_eq, Int.toNat_natCast, zpow_natCast, add_zero, zpow_neg, zpow_natCast]
        push_cast
        field_simp
        norm_num
      rwa [same]
    have long : 2 ^ 52 ≤ (m <<< 53) * 10 ^ (k : Int).toNat := by
      rw [Nat.shiftLeft_eq]
      have one : 1 ≤ 10 ^ (k : Int).toNat := Nat.one_le_pow _ _ (by decide)
      calc 2 ^ 52
        _ ≤ m * 2 ^ 53 := by omega
        _ ≤ m * 2 ^ 53 * 10 ^ (k : Int).toNat := Nat.le_mul_of_pos_right _ one
    exact mul_of_near _ _ near' long
  · next negative =>
    have near' : c.Near ((m : Nat) / (10 ^ (-q).toNat : Nat) * 2 ^ ((0 : Int) - 0)) := by
      have same : (m : ℚ) / (10 ^ (-q).toNat : Nat) * 2 ^ ((0 : Int) - 0) = m * 10 ^ q := by
        have power : (10 : ℚ) ^ q = ((10 ^ (-q).toNat : Nat) : ℚ)⁻¹ := by
          rw [Nat.cast_pow, Nat.cast_ofNat, ← zpow_natCast, Int.toNat_of_nonneg (by omega), zpow_neg,
            inv_inv]
        rw [power, sub_self, zpow_zero, mul_one, div_eq_mul_inv]
      rwa [same]
    exact div_of_near _ _ near'

/-- A value **is** a natural number if it is positive and its mantissa, of 53 bits, and its exponent
denote the number. -/
def Denotes (x : Float) (n : Nat) : Prop :=
  ∃ c : Canonical, x = c.toFloat .positive ∧ 2 ^ 52 ≤ c.mantissa ∧
    (c.mantissa : ℚ) * 2 ^ c.exponent = n

/-- Numbers of at most 53 bits become values that are these numbers. -/
theorem denotes_toUInt64 {n : Nat} (some : n ≠ 0) (small : n < 2 ^ 53) :
    Denotes n.toUInt64.toFloat n := by
  obtain ⟨x, positive, near, scaled, converts⟩ := Normal.exists_ofNat_of_lt some small
  have least := x.least
  have fits : n.toUInt64.toNat = n := by
    simp
    omega
  refine ⟨⟨x.mantissa, x.exponent - 52, by omega, x.most, by omega, by omega, fun _ => least⟩, ?_,
    least, ?_⟩
  · show Float.ofModel (Float.Model.pack (UnpackedFloat.ofNat Format.binary64 n.toUInt64.toNat)) = _
    rw [fits, converts, Normal.unpacked, positive]
    rfl
  · have whole : (x.mantissa : ℚ) * 2 ^ x.exponent = n * 2 ^ 52 := by exact_mod_cast scaled
    rw [zpow_sub₀ (by norm_num), zpow_natCast, ← mul_div_assoc, whole]
    norm_num

/-- The powers of ten in the table are whole numbers of 53 bits. -/
theorem powers_table : ∀ i : Fin Float.exactlyRepresentablePowersOfTen.size,
    Float.exactlyRepresentablePowersOfTen[i].isFinite = true ∧
    (Float.exactlyRepresentablePowersOfTen[i] == 0) = false ∧
    Shortest.isNegative Float.exactlyRepresentablePowersOfTen[i] = false ∧
    2 ^ 52 ≤ (Shortest.parts Float.exactlyRepresentablePowersOfTen[i]).1 ∧
    -52 ≤ (Shortest.parts Float.exactlyRepresentablePowersOfTen[i]).2 ∧
    (Shortest.parts Float.exactlyRepresentablePowersOfTen[i]).1 *
      2 ^ ((Shortest.parts Float.exactlyRepresentablePowersOfTen[i]).2 + 52).toNat =
        10 ^ i.val * 2 ^ 52 := by
  decide +kernel

/-- The table of powers of ten contains these powers. -/
theorem denotes_power {k : Nat} (small : k < Float.exactlyRepresentablePowersOfTen.size) :
    Denotes Float.exactlyRepresentablePowersOfTen[k] (10 ^ k) := by
  obtain ⟨finite, some, positive, full, least, whole⟩ := powers_table ⟨k, small⟩
  simp only [Fin.getElem_fin] at finite some positive full least whole
  obtain ⟨c, sign, is⟩ : ∃ c sign, Float.exactlyRepresentablePowersOfTen[k] = toFloat c sign := by
    rcases zero_or_exists finite with zero | zero | found
    · rw [zero] at some
      exact absurd some (by decide)
    · rw [zero] at some
      exact absurd some (by decide)
    · exact found
  have parts := c.parts_toFloat sign
  have signs := c.isNegative_toFloat sign
  rw [← is] at parts signs
  rw [parts] at full least whole
  rw [positive] at signs
  cases sign with
  | negative => cases signs
  | positive =>
    refine ⟨c, is, full, ?_⟩
    obtain ⟨j, exponent⟩ := Int.eq_ofNat_of_zero_le (show 0 ≤ c.exponent + 52 by omega)
    have back : c.exponent = j - 52 := by omega
    rw [exponent, Int.toNat_natCast] at whole
    have wholeToo : (c.mantissa : ℚ) * 2 ^ j = 10 ^ k * 2 ^ 52 := by exact_mod_cast whole
    rw [back, zpow_sub₀ (by norm_num), zpow_natCast, ← mul_div_assoc, wholeToo]
    push_cast
    norm_num

/-- The product of two natural numbers, if it is near a value. -/
theorem Denotes.mul {x y : Float} {m n : Nat} (left : Denotes x m) (right : Denotes y n)
    (near : c.Near (m * n)) : x * y = c.toFloat .positive := by
  obtain ⟨a, rfl, long, first⟩ := left
  obtain ⟨b, rfl, -, second⟩ := right
  have near' : c.Near (a.mantissa * b.mantissa * 2 ^ (a.exponent + b.exponent)) := by
    have same : (a.mantissa : ℚ) * b.mantissa * 2 ^ (a.exponent + b.exponent) = m * n := by
      rw [← first, ← second, zpow_add₀ (by norm_num)]
      ring
    rwa [same]
  show Float.ofModel (Float.Model.pack (UnpackedFloat.mul Format.binary64
    (a.toFloat .positive).toModel.unpack (b.toFloat .positive).toModel.unpack)) = _
  rw [unpack_toFloat, unpack_toFloat]
  exact congrArg (fun unpacked => Float.ofModel (Float.Model.pack unpacked))
    (mul_of_near _ _ near' (long.trans (Nat.le_mul_of_pos_right _ b.pos)))

/-- The quotient of two natural numbers, if it is near a value. -/
theorem Denotes.div {x y : Float} {m n : Nat} (left : Denotes x m) (right : Denotes y n)
    (near : c.Near (m / n)) : x / y = c.toFloat .positive := by
  obtain ⟨a, rfl, -, first⟩ := left
  obtain ⟨b, rfl, -, second⟩ := right
  have near' : c.Near (a.mantissa / b.mantissa * 2 ^ (a.exponent - b.exponent)) := by
    have same : (a.mantissa : ℚ) / b.mantissa * 2 ^ (a.exponent - b.exponent) = m / n := by
      rw [← first, ← second, zpow_sub₀ (by norm_num)]
      ring
    rwa [same]
  show Float.ofModel (Float.Model.pack (UnpackedFloat.div Format.binary64
    (a.toFloat .positive).toModel.unpack (b.toFloat .positive).toModel.unpack)) = _
  rw [unpack_toFloat, unpack_toFloat]
  exact congrArg (fun unpacked => Float.ofModel (Float.Model.pack unpacked)) (div_of_near _ _ near')

/-- A decimal that is near a value is **read** as it. -/
theorem ofScientific_eq_of_near {m : Nat} {q : Int} (some : m ≠ 0) (near : c.Near (m * 10 ^ q)) :
    Float.ofScientific m (decide (q < 0)) q.natAbs = c.toFloat .positive := by
  unfold Float.ofScientific
  dsimp only
  split
  · next exact =>
    -- Both numbers have 53 bits, and one operation on them rounds only once.
    have factor := denotes_toUInt64 some exact.1
    have power := denotes_power (Nat.lt_succ_of_le exact.2)
    rcases lt_or_ge q 0 with negative | nonneg
    · have near' : c.Near (m / (10 ^ q.natAbs : Nat)) := by
        have same : (m : ℚ) / (10 ^ q.natAbs : Nat) = m * 10 ^ q := by
          rw [Nat.cast_pow, Nat.cast_ofNat, ← zpow_natCast, Int.ofNat_natAbs_of_nonpos negative.le,
            zpow_neg, div_inv_eq_mul]
        rwa [same]
      rw [if_pos (decide_eq_true negative)]
      exact factor.div power near'
    · have near' : c.Near (m * (10 ^ q.natAbs : Nat)) := by
        have same : (m : ℚ) * (10 ^ q.natAbs : Nat) = m * 10 ^ q := by
          rw [Nat.cast_pow, Nat.cast_ofNat, ← zpow_natCast, Int.natAbs_of_nonneg nonneg]
        rwa [same]
      rw [if_neg (by simpa using nonneg)]
      exact factor.mul power near'
  · have power :
        (if decide (q < 0) = true then Int.negOfNat q.natAbs else Int.ofNat q.natAbs) = q := by
      rcases lt_or_ge q 0 with negative | nonneg
      · rw [if_pos (decide_eq_true negative), Int.negOfNat_eq]
        show -(q.natAbs : Int) = q
        omega
      · rw [if_neg (by simpa using nonneg)]
        exact Int.natAbs_of_nonneg nonneg
    rw [power]
    exact congrArg (fun unpacked => Float.ofModel (Float.Model.pack unpacked))
      (ofScientific_of_near some near)

/-- The number of digits and the power of ten of a decimal that is near a value. -/
theorem Near.size_bounds {m : Nat} {q : Int} (some : m ≠ 0) (near : c.Near (m * 10 ^ q)) :
    -400 ≤ ((Nat.toDigits 10 m).length : Int) + q ∧
      ((Nat.toDigits 10 m).length : Int) + q ≤ 400 := by
  obtain ⟨least, most⟩ := near.bounds
  have size : 0 < (Nat.toDigits 10 m).length := Nat.length_toDigits_pos
  have ten : (0 : ℚ) < 10 ^ q := zpow_pos (by norm_num) q
  have powers : (2 : ℚ) ^ (1200 : Int) ≤ 10 ^ (400 : Int) := by
    rw [show (1200 : Int) = 3 * 400 by rfl, zpow_mul]
    exact zpow_le_zpow_left₀ (by decide) (by norm_num) (by norm_num)
  constructor
  · by_contra small
    have short : m < 10 ^ (Nat.toDigits 10 m).length :=
      (Nat.length_toDigits_le_iff (by decide) size).mp le_rfl
    have beyond : (m * 10 ^ q : ℚ) < 2 ^ (-1075 : Int) := by
      calc (m * 10 ^ q : ℚ)
        _ < 10 ^ (Nat.toDigits 10 m).length * 10 ^ q :=
          mul_lt_mul_of_pos_right (by exact_mod_cast short) ten
        _ = 10 ^ ((Nat.toDigits 10 m).length + q) := by
          rw [zpow_add₀ (by norm_num), zpow_natCast]
        _ ≤ 10 ^ (-400 : Int) := zpow_le_zpow_right₀ (by norm_num) (by omega)
        _ ≤ 2 ^ (-1075 : Int) := by
          rw [zpow_neg, zpow_neg]
          exact inv_anti₀ (zpow_pos (by norm_num) _)
            (powers.trans' (zpow_le_zpow_right₀ (by norm_num) (by decide)))
    exact (least.trans_lt beyond).false
  · by_contra large
    have long : 10 ^ ((Nat.toDigits 10 m).length - 1) ≤ m := by
      rcases Nat.eq_or_lt_of_le (Nat.succ_le_of_lt size) with one | more
      · rw [← one]
        exact Nat.pos_of_ne_zero some
      · by_contra less
        have := (Nat.length_toDigits_le_iff (b := 10) (by decide) (Nat.sub_pos_of_lt more)).mpr
          (Nat.not_le.mp less)
        omega
    have beyond : (2 : ℚ) ^ (1024 : Int) ≤ m * 10 ^ q := by
      calc (2 : ℚ) ^ (1024 : Int)
        _ ≤ 2 ^ (1200 : Int) := zpow_le_zpow_right₀ (by norm_num) (by decide)
        _ ≤ 10 ^ (400 : Int) := powers
        _ ≤ 10 ^ (((Nat.toDigits 10 m).length - 1 : Nat) + q) :=
          zpow_le_zpow_right₀ (by norm_num) (by omega)
        _ = 10 ^ ((Nat.toDigits 10 m).length - 1) * 10 ^ q := by
          rw [zpow_add₀ (by norm_num), zpow_natCast]
        _ ≤ m * 10 ^ q := mul_le_mul_of_nonneg_right (by exact_mod_cast long) ten.le
    exact (beyond.trans_lt most).false

/-- **The nearest binary64** to a decimal is the value that it is near. -/
theorem nearestPower_of_near {m : Nat} {q : Int} (some : m ≠ 0) (near : c.Near (m * 10 ^ q)) :
    Decimal.nearestPower m q = c.toFloat .positive := by
  obtain ⟨least, most⟩ := near.size_bounds some
  have reads := ofScientific_eq_of_near some near
  unfold Decimal.nearestPower
  dsimp only
  rw [if_neg (not_or.mpr ⟨some, by omega⟩), if_neg (by omega)]
  split
  · next negative =>
    rwa [decide_eq_true negative] at reads
  · next nonneg =>
    rwa [decide_eq_false nonneg] at reads

end Canonical

end Warden
