import Mathlib
import Warden.Proofs.Binary64
/-! # Rounding to binary64
A binary64 keeps the leading 53 bits of a number. What rounding does with the others is said here
without floating-point operations: it **rounds the quotient** by a power of two
(`roundedMantissa_shiftRight`), to the nearest and from the middle to the even one.

Of binary64 values this theory needs those with all 53 bits (`Normal`), which is what rounding gives
(`Normal.exists_round`). They survive being packed into bits (`Normal.unpack_pack`), and their
places are in the order of their values (`Normal.rank_lt_rank_iff`). -/

namespace Warden

open Float.Model (UnpackedFloat Format)
open Float.Model.UnpackedFloat (ExtendedMantissa Sign)

/-! ## Quotients -/

/-- A quotient of natural numbers, rounded to the nearest one, and from the middle between two to
the even one. -/
def roundQuotient (n d : Nat) : Nat :=
  if 2 * (n % d) < d ∨ 2 * (n % d) = d ∧ n / d % 2 = 0 then n / d else n / d + 1

theorem roundQuotient_one (n : Nat) : roundQuotient n 1 = n := by
  simp [roundQuotient, Nat.mod_one]

theorem roundQuotient_mul {c : Nat} (pos : 0 < c) (n d : Nat) :
    roundQuotient (n * c) (d * c) = roundQuotient n d := by
  have quotients : n * c / (d * c) = n / d := Nat.mul_div_mul_right n d pos
  have below : 2 * (n % d * c) < d * c ↔ 2 * (n % d) < d := by
    rw [← Nat.mul_assoc, Nat.mul_lt_mul_right pos]
  have middle : 2 * (n % d * c) = d * c ↔ 2 * (n % d) = d := by
    rw [← Nat.mul_assoc, Nat.mul_left_inj pos.ne']
  simp only [roundQuotient, Nat.mul_mod_mul_right, quotients, below, middle]

theorem roundQuotient_bounds (n d : Nat) :
    n / d ≤ roundQuotient n d ∧ roundQuotient n d ≤ n / d + 1 := by
  unfold roundQuotient
  split <;> omega

/-- Rounding keeps the order of quotients. -/
theorem roundQuotient_mono {m n : Nat} (le : m ≤ n) (d : Nat) :
    roundQuotient m d ≤ roundQuotient n d := by
  rcases Nat.lt_or_eq_of_le (Nat.div_le_div_right le : m / d ≤ n / d) with less | same
  · have left := roundQuotient_bounds m d
    have right := roundQuotient_bounds n d
    omega
  · have left := Nat.div_add_mod m d
    have right := Nat.div_add_mod n d
    rw [same] at left
    have remainders : m % d ≤ n % d := by omega
    unfold roundQuotient
    rw [same]
    split
    · split <;> omega
    · next up =>
      have upToo : ¬ (2 * (n % d) < d ∨ 2 * (n % d) = d ∧ n / d % 2 = 0) := by omega
      rw [if_neg upToo]

/-- A rounded quotient is off by one half at most. -/
theorem roundQuotient_near {d : Nat} (pos : 0 < d) (n : Nat) :
    2 * (roundQuotient n d * d) ≤ 2 * n + d ∧ 2 * n ≤ 2 * (roundQuotient n d * d) + d := by
  have parts := Nat.div_add_mod n d
  have less := Nat.mod_lt n pos
  rw [Nat.mul_comm] at parts
  unfold roundQuotient
  split
  · omega
  · rw [Nat.add_one_mul (n / d) d]
    omega

/-! ## Shifting -/

/-- Shifting keeps the quotient, the bit shifted out last, and whether any bit before was set. -/
theorem shiftRight_succ (mantissa k : Nat) :
    (ExtendedMantissa.mk mantissa false false) >>> (k + 1) =
      ⟨mantissa / 2 ^ (k + 1), mantissa / 2 ^ k % 2 != 0, mantissa % 2 ^ k != 0⟩ := by
  induction k with
  | zero => simp [HShiftRight.hShiftRight, Nat.repeat, ExtendedMantissa.shiftRightOne, Nat.mod_one]
  | succ k ih =>
    have step : ExtendedMantissa.mk mantissa false false >>> (k + 1 + 1) =
        (ExtendedMantissa.mk mantissa false false >>> (k + 1)).shiftRightOne := rfl
    have quotient : mantissa / 2 ^ (k + 1) / 2 = mantissa / 2 ^ (k + 1 + 1) := by
      rw [Nat.div_div_eq_div_mul, ← Nat.pow_succ]
    have sticky : (mantissa / 2 ^ k % 2 != 0 || mantissa % 2 ^ k != 0) =
        (mantissa % 2 ^ (k + 1) != 0) := by
      have split := Nat.mod_pow_succ (x := mantissa) (b := 2) (k := k)
      have pos : 0 < 2 ^ k := Nat.two_pow_pos k
      rcases Nat.mod_two_eq_zero_or_one (mantissa / 2 ^ k) with even | odd
      · rw [even, Nat.mul_zero, Nat.add_zero] at split
        rw [split, even]
        simp
      · rw [odd, Nat.mul_one] at split
        have some : mantissa % 2 ^ (k + 1) ≠ 0 := by omega
        rw [odd]
        simp [some]
    rw [step, ih, ExtendedMantissa.shiftRightOne, quotient, sticky]

/-- What rounding to the nearest makes of the bits that were shifted out. -/
theorem roundedMantissa_eq (mantissa : Nat) (roundBit stickyBit : Bool) :
    (ExtendedMantissa.mk mantissa roundBit stickyBit).roundedMantissa =
      if roundBit then if stickyBit then mantissa + 1 else mantissa + mantissa % 2
      else mantissa := by
  cases roundBit <;> cases stickyBit <;> rfl

/-- Shifting and rounding is dividing and rounding. -/
theorem roundedMantissa_shiftRight (mantissa k : Nat) :
    (ExtendedMantissa.mk mantissa false false >>> k).roundedMantissa =
      roundQuotient mantissa (2 ^ k) := by
  cases k with
  | zero =>
    rw [Nat.pow_zero, roundQuotient_one]
    rfl
  | succ k =>
    rw [shiftRight_succ, roundedMantissa_eq, roundQuotient]
    have split := Nat.mod_pow_succ (x := mantissa) (b := 2) (k := k)
    have double : 2 ^ (k + 1) = 2 * 2 ^ k := by rw [Nat.pow_succ, Nat.mul_comm]
    have less : mantissa % 2 ^ k < 2 ^ k := Nat.mod_lt _ (Nat.two_pow_pos k)
    rcases Nat.mod_two_eq_zero_or_one (mantissa / 2 ^ k) with even | odd
    · -- Less than half was shifted out.
      rw [even, Nat.mul_zero] at split
      have below : 2 * (mantissa % 2 ^ (k + 1)) < 2 ^ (k + 1) := by omega
      simp [even, below]
    · rw [odd, Nat.mul_one] at split
      by_cases middle : mantissa % 2 ^ k = 0
      · have tie : 2 * (mantissa % 2 ^ (k + 1)) = 2 ^ (k + 1) := by omega
        rcases Nat.mod_two_eq_zero_or_one (mantissa / 2 ^ (k + 1)) with other | other <;>
          simp [odd, middle, tie, other]
      · have above : 2 ^ (k + 1) < 2 * (mantissa % 2 ^ (k + 1)) := by omega
        simp [odd, middle, above.ne', Nat.lt_asymm above]

/-- Exact shifting to the exponent that a format asks for. -/
theorem shiftToTargetExponent_eq {mantissa k : Nat} {exponent : Int}
    (log : mantissa.log2 = 52 + k) (normal : -1022 ≤ exponent + mantissa.log2) :
    UnpackedFloat.shiftToTargetExponent Format.binary64 mantissa exponent .exact =
      (ExtendedMantissa.mk mantissa false false >>> k, exponent + k) := by
  have bits : Format.binary64.mantissaBits = 53 := rfl
  have least : Format.binary64.minExponent = -1074 := rfl
  have target : (Format.binary64.targetExponent
      (Float.Model.totalExponent mantissa exponent) - exponent).toNat = k := by
    rw [Format.targetExponent, Float.Model.totalExponent, bits, least]
    omega
  unfold UnpackedFloat.shiftToTargetExponent UnpackedFloat.shiftToExponent
  simp only [target]
  rfl

/-- The leading bits of a number, rounded. -/
theorem roundQuotient_bounds_of_log2 {mantissa k : Nat} (log : mantissa.log2 = 52 + k) :
    2 ^ 52 ≤ roundQuotient mantissa (2 ^ k) ∧ roundQuotient mantissa (2 ^ k) ≤ 2 ^ 53 := by
  have pos : mantissa ≠ 0 := by
    rintro rfl
    rw [Nat.log2_zero] at log
    omega
  have unit : 0 < 2 ^ k := Nat.two_pow_pos k
  obtain ⟨least, most⟩ := (Nat.log2_eq_iff pos).mp log
  have lower : 2 ^ 52 ≤ mantissa / 2 ^ k := by
    rw [Nat.le_div_iff_mul_le unit, ← Nat.pow_add]
    exact least
  have upper : mantissa / 2 ^ k < 2 ^ 53 := by
    rw [Nat.div_lt_iff_lt_mul unit, ← Nat.pow_add, show 53 + k = 52 + k + 1 by omega]
    exact most
  have near := roundQuotient_bounds mantissa (2 ^ k)
  omega

/-! ## Bits -/

/-- The bits of components side by side. -/
theorem toNat_packComponents (sign : Sign) (exponent : BitVec 11) (mantissa : BitVec 52) :
    (UnpackedFloat.packComponents Format.binary64 sign exponent mantissa).toNat =
      sign.toBitVec.toNat * 2 ^ 63 + exponent.toNat * 2 ^ 52 + mantissa.toNat := by
  show ((sign.toBitVec ++ exponent) ++ mantissa).toNat = _
  rw [BitVec.toNat_append, ← Nat.shiftLeft_add_eq_or_of_lt mantissa.isLt, BitVec.toNat_append,
    ← Nat.shiftLeft_add_eq_or_of_lt exponent.isLt, Nat.shiftLeft_eq, Nat.shiftLeft_eq]
  omega

theorem unpackSign_packComponents {format : Format} {sign : Sign}
    {exponent : BitVec format.exponentBits} {mantissa : BitVec format.mantissaBitsWithoutImplicit} :
    UnpackedFloat.unpackSign (UnpackedFloat.packComponents format sign exponent mantissa) =
      sign.toBitVec := by
  ext i single
  have behind : format.mantissaBitsWithoutImplicit + format.exponentBits + i -
      format.mantissaBitsWithoutImplicit - format.exponentBits = i := by omega
  simp only [UnpackedFloat.unpackSign, UnpackedFloat.packComponents, BitVec.getElem_cast,
    BitVec.getElem_extract, BitVec.getLsbD_append]
  rw [if_neg (by omega), if_neg (by omega), behind, BitVec.getLsbD_eq_getElem]

/-- Components that neither mark a subnormal value nor one that is not finite are read back. -/
theorem unpack_packComponents {format : Format} {sign : Sign}
    {exponent : BitVec format.exponentBits} {mantissa : BitVec format.mantissaBitsWithoutImplicit}
    (finite : exponent ≠ -1#_) (normal : exponent ≠ 0#_) :
    UnpackedFloat.unpack format (UnpackedFloat.packComponents format sign exponent mantissa) =
      .finite sign (1#1 ++ mantissa).toNat
        (exponent.toNat - (format.exponentBias + format.mantissaBitsWithoutImplicit))
        (by simp) := by
  have signs : Sign.ofBitVec sign.toBitVec = sign := by cases sign <;> rfl
  unfold UnpackedFloat.unpack
  dsimp only
  rw [UnpackedFloat.unpackExponent_packComponents, if_neg finite, if_neg normal]
  simp only [UnpackedFloat.unpackMantissa_packComponents, unpackSign_packComponents, signs]

/-! ## Normal values -/

/-- A binary64 with a mantissa of 53 bits, and an exponent counted from `2 ^ -52`. -/
structure Normal where
  /-- The sign. -/
  sign : Sign
  /-- The mantissa. -/
  mantissa : Nat
  /-- The exponent. -/
  exponent : Nat
  /-- The leading bit is set. -/
  least : 2 ^ 52 ≤ mantissa
  /-- There are 53 bits. -/
  most : mantissa < 2 ^ 53
  /-- The exponent is one that occurs for words. -/
  small : exponent ≤ 1000

/-- The value in units of `2 ^ -52`, without the sign. -/
def Normal.scaled (x : Normal) : Nat := x.mantissa * 2 ^ x.exponent

/-- The components of the value. -/
def Normal.unpacked (x : Normal) : UnpackedFloat :=
  .finite x.sign x.mantissa (x.exponent - 52) (lt_of_lt_of_le (by decide) x.least)

/-- The value. -/
def Normal.toFloat (x : Normal) : Float := .ofModel (Float.Model.pack x.unpacked)

theorem Normal.pack_unpacked (x : Normal) :
    UnpackedFloat.pack Format.binary64 x.unpacked =
      UnpackedFloat.packComponents Format.binary64 x.sign (BitVec.ofNat 11 (x.exponent + 1023))
        (BitVec.ofNat 52 x.mantissa) := by
  have log : x.mantissa.log2 = 52 :=
    (Nat.log2_eq_iff (by have := x.least; omega)).mpr ⟨x.least, x.most⟩
  have biased : ((x.exponent : Int) - 52 + Format.binary64.exponentBias + (52 : Nat)).toNat =
      x.exponent + 1023 := by
    have bias : Format.binary64.exponentBias = 1023 := rfl
    rw [bias]
    omega
  have small := x.small
  have fits : ¬ 2 ^ 11 ≤ x.exponent + 1023 + 1 := by omega
  have bits : x.mantissa.log2 + 1 = Format.binary64.mantissaBits := by rw [log]; rfl
  unfold unpacked UnpackedFloat.pack
  dsimp only
  rw [biased, if_neg fits, if_pos bits]

/-- **The place** of a normal binary64. -/
theorem Normal.toNat_toBits (x : Normal) :
    x.toFloat.toBits.toNat =
      x.sign.toBitVec.toNat * 2 ^ 63 + (x.exponent + 1022) * 2 ^ 52 + x.mantissa := by
  show (UnpackedFloat.pack Format.binary64 x.unpacked).toNat = _
  rw [x.pack_unpacked, toNat_packComponents, BitVec.toNat_ofNat, BitVec.toNat_ofNat]
  have small := x.small
  have least := x.least
  have most := x.most
  omega

/-- The bits of an exponent. -/
theorem ofNat_ne {b c : Nat} (small : b < 2 ^ 11) (other : c < 2 ^ 11) (differ : b ≠ c) :
    BitVec.ofNat 11 b ≠ BitVec.ofNat 11 c := by
  intro same
  have values := congrArg BitVec.toNat same
  rw [BitVec.toNat_ofNat, BitVec.toNat_ofNat, Nat.mod_eq_of_lt small, Nat.mod_eq_of_lt other]
    at values
  exact differ values

/-- Normal values are read back. -/
theorem Normal.unpack_pack (x : Normal) : (Float.Model.pack x.unpacked).unpack = x.unpacked := by
  have small := x.small
  have least := x.least
  have most := x.most
  have finite : BitVec.ofNat 11 (x.exponent + 1023) ≠ -1#11 :=
    ofNat_ne (c := 2047) (by omega) (by decide) (by omega)
  have normal : BitVec.ofNat 11 (x.exponent + 1023) ≠ 0#11 :=
    ofNat_ne (c := 0) (by omega) (by decide) (by omega)
  have mantissa : (1#1 ++ BitVec.ofNat 52 x.mantissa).toNat = x.mantissa := by
    rw [BitVec.toNat_append, ← Nat.shiftLeft_add_eq_or_of_lt (BitVec.ofNat 52 x.mantissa).isLt,
      Nat.shiftLeft_eq, BitVec.toNat_ofNat, BitVec.toNat_ofNat]
    omega
  have exponent : ((BitVec.ofNat 11 (x.exponent + 1023)).toNat : Int) -
      (Format.binary64.exponentBias + Format.binary64.mantissaBitsWithoutImplicit) =
      x.exponent - 52 := by
    have bias : (Format.binary64.exponentBias + Format.binary64.mantissaBitsWithoutImplicit : Int) =
      1075 := rfl
    rw [bias, BitVec.toNat_ofNat]
    omega
  show UnpackedFloat.unpack Format.binary64 (UnpackedFloat.pack Format.binary64 x.unpacked) = _
  rw [x.pack_unpacked, unpack_packComponents finite normal]
  unfold unpacked
  simp only [mantissa, exponent]

/-- **Rounding** keeps the leading 53 bits of a mantissa. -/
theorem Normal.exists_round (sign : Sign) {mantissa k : Nat} (exponent : Int) (base : Nat)
    (log : mantissa.log2 = 52 + k) (aligned : exponent + k + 52 = base) (small : base < 1000) :
    ∃ x : Normal, x.sign = sign ∧ x.exponent ≤ base + 1 ∧
      x.scaled = roundQuotient mantissa (2 ^ k) * 2 ^ base ∧
      UnpackedFloat.roundWithAccuracy Format.binary64 sign mantissa exponent .exact =
        x.unpacked := by
  obtain ⟨least, most⟩ := roundQuotient_bounds_of_log2 log
  unfold UnpackedFloat.roundWithAccuracy
  rw [shiftToTargetExponent_eq log (by omega)]
  dsimp only
  rw [roundedMantissa_shiftRight]
  generalize roundQuotient mantissa (2 ^ k) = rounded at *
  have reached : exponent + k = base - 52 := by omega
  rw [reached]
  rcases Nat.lt_or_eq_of_le most with fits | rfl
  · have log' : rounded.log2 = 52 + 0 := (Nat.log2_eq_iff (by omega)).mpr ⟨least, fits⟩
    rw [shiftToTargetExponent_eq log' (by omega)]
    have some : rounded ≠ 0 := by omega
    have settled : (base : Int) - 52 + (0 : Nat) = base - 52 := by omega
    rw [settled]
    refine ⟨⟨sign, rounded, base, least, fits, small.le⟩, rfl, Nat.le_succ base, rfl, ?_⟩
    exact dif_neg some
  · -- Rounding up made one bit too many, which is shifted out.
    have log' : (2 ^ 53).log2 = 52 + 1 := Nat.log2_two_pow
    rw [shiftToTargetExponent_eq log' (by omega)]
    have next : (base : Int) - 52 + 1 = (base + 1 : Nat) - 52 := by omega
    refine ⟨⟨sign, 2 ^ 52, base + 1, le_refl _, by decide, small⟩, rfl, le_refl _, ?_, ?_⟩
    · show 2 ^ 52 * 2 ^ (base + 1) = 2 ^ 53 * 2 ^ base
      rw [Nat.pow_succ 2 base]
      omega
    · unfold unpacked
      dsimp only
      rw [← next]
      rfl

/-- The rank of a binary64 among those of its sign. -/
def Normal.rank (x : Normal) : Nat := (x.exponent + 1022) * 2 ^ 52 + x.mantissa

/-- Ranks are in the order of values. -/
theorem Normal.rank_lt_rank_iff (x y : Normal) : x.rank < y.rank ↔ x.scaled < y.scaled := by
  -- A value with the smaller exponent is smaller, whatever the mantissas are.
  have apart {x y : Normal} (less : x.exponent < y.exponent) :
      x.rank < y.rank ∧ x.scaled < y.scaled := by
    have most := x.most
    have least := y.least
    constructor
    · unfold rank
      omega
    · calc x.mantissa * 2 ^ x.exponent
        _ < 2 ^ 53 * 2 ^ x.exponent := Nat.mul_lt_mul_of_pos_right most (Nat.two_pow_pos _)
        _ = 2 ^ 52 * 2 ^ (x.exponent + 1) := by
          rw [← Nat.pow_add, ← Nat.pow_add]
          congr 1
          omega
        _ ≤ 2 ^ 52 * 2 ^ y.exponent :=
          Nat.mul_le_mul_left _ (Nat.pow_le_pow_right (by decide) less)
        _ ≤ y.mantissa * 2 ^ y.exponent := Nat.mul_le_mul_right _ least
  rcases lt_trichotomy x.exponent y.exponent with less | same | greater
  · exact iff_of_true (apart less).1 (apart less).2
  · unfold rank scaled
    rw [same, Nat.add_lt_add_iff_left, Nat.mul_lt_mul_right (Nat.two_pow_pos _)]
  · have other := apart greater
    exact iff_of_false (by omega) (by omega)

/-- Positive values are equal, as floating-point values, iff they are the same. -/
theorem Normal.beq_toFloat_iff {x y : Normal} (positive : x.sign = .positive)
    (other : y.sign = .positive) : (x.toFloat == y.toFloat) = true ↔ x.scaled = y.scaled := by
  have compares : (x.toFloat == y.toFloat) =
      (some ((compare ((x.exponent : Int) - 52) (y.exponent - 52)).then
        (compare x.mantissa y.mantissa)) == some .eq) := by
    show UnpackedFloat.beq (Float.Model.pack x.unpacked).unpack
      (Float.Model.pack y.unpacked).unpack = _
    rw [x.unpack_pack, y.unpack_pack, UnpackedFloat.beq, unpacked, unpacked, positive, other]
    rfl
  rw [compares, beq_iff_eq, Option.some_inj, Ordering.then_eq_eq, compare_eq_iff_eq,
    compare_eq_iff_eq]
  constructor
  · rintro ⟨exponents, mantissas⟩
    have same : x.exponent = y.exponent := by omega
    rw [scaled, scaled, same, mantissas]
  · -- Ranks are in the order of values, and determine both components.
    intro same
    have less := x.rank_lt_rank_iff y
    have greater := y.rank_lt_rank_iff x
    have left : x.rank = (x.exponent + 1022) * 2 ^ 52 + x.mantissa := rfl
    have right : y.rank = (y.exponent + 1022) * 2 ^ 52 + y.mantissa := rfl
    have bounds := And.intro x.least x.most
    have boundsToo := And.intro y.least y.most
    omega

/-! ## Places -/

/-- A normal value is a number. -/
theorem Normal.isNaN_toFloat (x : Normal) : x.toFloat.isNaN = false := by
  show (Float.Model.pack x.unpacked).unpack.isNaN = false
  rw [x.unpack_pack]
  rfl

/-- The place of a positive value is its rank. -/
theorem Normal.place_of_positive {x : Normal} (positive : x.sign = .positive) :
    Float.place x.toFloat = x.rank := by
  have bits := x.toNat_toBits
  have most := x.most
  have small := x.small
  have clear : x.sign.toBitVec.toNat = 0 := by rw [positive]; rfl
  rw [clear] at bits
  have below : x.toFloat.toBits.toNat < Nat.pow 2 63 := by
    show _ < 2 ^ 63
    omega
  have quotient : x.toFloat.toBits.toNat / Nat.pow 2 63 ≠ 1 := by
    rw [Nat.div_eq_of_lt below]
    decide
  unfold Float.place
  dsimp only
  rw [if_neg quotient, ← Int.natCast_mod, Nat.mod_eq_of_lt below, bits, rank]
  simp

/-- The place of a negative value is opposite to its rank. -/
theorem Normal.place_of_negative {x : Normal} (negative : x.sign = .negative) :
    Float.place x.toFloat = -x.rank := by
  have bits := x.toNat_toBits
  have most := x.most
  have small := x.small
  have set : x.sign.toBitVec.toNat = 1 := by rw [negative]; rfl
  have rankEq : x.rank = (x.exponent + 1022) * 2 ^ 52 + x.mantissa := rfl
  rw [set, Nat.one_mul, Nat.add_assoc, ← rankEq] at bits
  have below : x.rank < 2 ^ 63 := by omega
  have quotient : x.toFloat.toBits.toNat / Nat.pow 2 63 = 1 := by
    show x.toFloat.toBits.toNat / 2 ^ 63 = 1
    omega
  have rest : x.toFloat.toBits.toNat % Nat.pow 2 63 = x.rank := by
    show x.toFloat.toBits.toNat % 2 ^ 63 = x.rank
    omega
  unfold Float.place
  dsimp only
  rw [if_pos quotient, ← Int.natCast_mod, rest]

/-- The negative of a positive value has its rank. -/
theorem Normal.exists_neg {x : Normal} (positive : x.sign = .positive) :
    ∃ y : Normal, y.sign = .negative ∧ y.rank = x.rank ∧ x.toFloat.neg = y.toFloat := by
  refine ⟨{ x with sign := .negative }, rfl, rfl, ?_⟩
  show Float.ofModel (Float.Model.pack (UnpackedFloat.neg (Float.Model.pack x.unpacked).unpack)) = _
  rw [x.unpack_pack, unpacked, positive]
  rfl

end Warden
