import Mathlib
import Warden.Number
/-! # Numbers among binary64 values
A binary64 value is equal to itself unless it is not a number (`Float.beq_self_of_number`). Finite
values are numbers. So is what an integer is rounded to, if only an infinite one
(`Number.isNaN_toFloat`). -/

namespace Warden

open Float.Model (UnpackedFloat Format)

/-- A number is equal to itself. -/
theorem Float.beq_self_of_number {x : Float} (number : x.isNaN = false) : (x == x) = true := by
  rw [Float.isNaN_eq_decide_eq_nan, decide_eq_false_iff_not] at number
  exact Float.beq_self_iff.mpr number

/-- What is finite is a number. -/
theorem Float.isNaN_of_isFinite {x : Float} (finite : x.isFinite = true) : x.isNaN = false := by
  have unpacked : x.toModel.unpack.isFinite = true := finite
  show x.toModel.unpack.isNaN = false
  cases opened : x.toModel.unpack with
  | notANumber =>
    rw [opened] at unpacked
    cases unpacked
  | _ => rfl

/-! ## Rounding -/

/-- Rounding gives a number. -/
theorem Float.isNaN_roundWithAccuracy (format : Format) (sign : UnpackedFloat.Sign) (mantissa : Nat)
    (exponent : Int) (accuracy : UnpackedFloat.Accuracy) :
    (UnpackedFloat.roundWithAccuracy format sign mantissa exponent accuracy).isNaN = false := by
  unfold UnpackedFloat.roundWithAccuracy
  dsimp only
  split <;> rfl

/-- Bits encode a number unless all bits of the exponent are set. -/
theorem Float.isNaN_unpack {format : Format} {sign : UnpackedFloat.Sign}
    {exponent : BitVec format.exponentBits} {mantissa : BitVec format.mantissaBitsWithoutImplicit}
    (small : exponent ≠ -1#_) :
    (UnpackedFloat.unpack format
      (UnpackedFloat.packComponents format sign exponent mantissa)).isNaN = false := by
  unfold UnpackedFloat.unpack
  dsimp only
  rw [UnpackedFloat.unpackExponent_packComponents, if_neg small]
  split
  · split <;> rfl
  · rfl

/-- A number is one still after it has been packed into bits. -/
theorem Float.isNaN_unpack_pack {x : UnpackedFloat} (number : x.isNaN = false) :
    (Float.Model.pack x).unpack.isNaN = false := by
  show (UnpackedFloat.unpack Format.binary64 (UnpackedFloat.pack Format.binary64 x)).isNaN = false
  cases x with
  | notANumber => cases number
  | infinity s => cases s <;> rfl
  | zero s => cases s <;> rfl
  | finite s m e pos =>
    unfold UnpackedFloat.pack
    dsimp only
    split
    · cases s <;> rfl
    · next small =>
      split
      -- The exponent is encoded below the one that has all bits set, or as zero if it is subnormal.
      · refine isNaN_unpack fun all => ?_
        generalize Int.toNat _ = biased at small all
        have bits : biased % 2 ^ 11 = 2 ^ 11 - 1 := congrArg BitVec.toNat all
        have within : ¬ 2 ^ 11 ≤ biased + 1 := small
        omega
      · exact isNaN_unpack (by decide)

/-- The product of finite numbers is a number. -/
theorem Float.isNaN_mul {sign sign' : UnpackedFloat.Sign} {mantissa mantissa' : Nat}
    {exponent exponent' : Int} (pos : 0 < mantissa) (pos' : 0 < mantissa') (format : Format) :
    (UnpackedFloat.mul format (.finite sign mantissa exponent pos)
      (.finite sign' mantissa' exponent' pos')).isNaN = false :=
  isNaN_roundWithAccuracy _ _ _ _ _

/-- A large integer is close to a number. -/
theorem Float.isNaN_ofNat {n : Nat} (large : 2 ^ 53 ≤ n) : (Float.ofNat n).isNaN = false := by
  -- An integer so large is not converted exactly, but rounded like any decimal text.
  have slow : ¬ (n < 2 ^ 53 ∧ 0 ≤ 22) := by omega
  have opened : Float.ofNat n = Float.ofModel (Float.Model.ofScientific n 0) := by
    show Float.ofScientific n false 0 = _
    unfold Float.ofScientific
    rw [dif_neg slow]
    rfl
  rw [opened]
  refine isNaN_unpack_pack ?_
  have exponents : ((2 : Int) ^ Format.binary64.exponentBits) = 2048 := rfl
  unfold UnpackedFloat.ofScientific
  rw [dif_neg (by omega), if_neg (by omega), if_neg (by omega), if_pos (Int.le_refl 0)]
  exact isNaN_mul _ _ _

/-- The negative of a number is a number. -/
theorem Float.isNaN_neg {x : Float} (number : x.isNaN = false) : x.neg.isNaN = false := by
  refine isNaN_unpack_pack ?_
  have unpacked : x.toModel.unpack.isNaN = false := number
  cases opened : x.toModel.unpack with
  | notANumber => rw [opened] at unpacked; cases unpacked
  | _ => rfl

/-- An integer that is no signed word is close to a number. -/
theorem Number.isNaN_toFloat {n : Int} (foreign : (Number.int n).word? = none) :
    (Number.int n).toFloat.isNaN = false := by
  have outside : ¬ (minWord ≤ n ∧ n ≤ maxWord) := by
    intro within
    rw [word?, if_pos within] at foreign
    cases foreign
  rw [minWord, maxWord] at outside
  cases n with
  | ofNat n =>
    rw [Int.ofNat_eq_natCast] at outside
    exact Float.isNaN_ofNat (by omega)
  | negSucc n => exact Float.isNaN_neg (Float.isNaN_ofNat (by omega))

end Warden
