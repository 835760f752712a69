import Mathlib
import Warden.Proofs.Rounding
/-! # The binary64 nearest to an integer
An integer is compared with one beyond the signed words as the binary64 nearest to it. That value is
an integer again (`Number.rounded`). **Converting rounds**: the places of two integers of documents
are in the order of their rounded values (`Number.compare?_toFloat`). Rounding never turns an order
round (`Number.rounded_mono`) and is off by `2 ^ 10` at most (`Number.rounded_near`). -/

namespace Warden

open Float.Model (UnpackedFloat Format)

/-! ## Natural numbers -/

/-- **The binary64 nearest to a natural number**: the leading 53 bits, rounded. -/
def Number.roundedNat (n : Nat) : Nat :=
  roundQuotient n (2 ^ (n.log2 - 52)) * 2 ^ (n.log2 - 52)

/-- A number of at most 53 bits is a binary64 already. -/
theorem Number.roundedNat_of_lt {n : Nat} (small : n < 2 ^ 53) : roundedNat n = n := by
  have log : n.log2 - 52 = 0 := by
    rcases Nat.eq_zero_or_pos n with rfl | pos
    · rfl
    · have := (Nat.log2_lt pos.ne').mpr small
      omega
  rw [roundedNat, log, Nat.pow_zero, roundQuotient_one, Nat.mul_one]

/-- A natural number is scaled by `2 ^ 53` before it is rounded. -/
theorem ofScientific_zero {n : Nat} (some : n ≠ 0) :
    UnpackedFloat.ofScientific Format.binary64 n 0 =
      UnpackedFloat.roundWithAccuracy Format.binary64 .positive (n * 2 ^ 53) (-53) .exact := by
  have exponents : ((2 : Int) ^ Format.binary64.exponentBits) = 2048 := rfl
  have bits : Format.binary64.mantissaBits = 53 := rfl
  unfold UnpackedFloat.ofScientific
  rw [dif_neg some, if_neg (by omega), if_neg (by omega), if_pos (Int.le_refl 0)]
  unfold UnpackedFloat.mul
  have one : 10 ^ (0 : Int).toNat = 1 := rfl
  have exponent : -((53 : Nat) : Int) + 0 = -53 := rfl
  simp only [Nat.shiftLeft_eq, bits, one, exponent, Nat.mul_one]
  rfl

/-- A large number becomes the binary64 nearest to it. -/
theorem Normal.exists_ofNat_of_le {n : Nat} (large : 2 ^ 53 ≤ n) (word : n < 2 ^ 64) :
    ∃ x : Normal, x.sign = .positive ∧ x.scaled = Number.roundedNat n * 2 ^ 52 ∧
      Float.ofNat n = x.toFloat := by
  have some : n ≠ 0 := by omega
  have atLeast : 53 ≤ n.log2 := (Nat.le_log2 some).mpr large
  have atMost : n.log2 < 64 := (Nat.log2_lt some).mpr word
  -- The number is written with 53 more bits than it has, of which rounding keeps the first.
  have log : (n * 2 ^ 53).log2 = 52 + (n.log2 + 1) := by
    refine (Nat.log2_eq_iff (by omega)).mpr ⟨?_, ?_⟩
    · rw [show 52 + (n.log2 + 1) = n.log2 + 53 by omega, Nat.pow_add]
      exact Nat.mul_le_mul_right _ (Nat.log2_self_le some)
    · rw [show 52 + (n.log2 + 1) + 1 = n.log2 + 1 + 53 by omega, Nat.pow_add]
      exact Nat.mul_lt_mul_of_pos_right Nat.lt_log2_self (Nat.two_pow_pos 53)
  obtain ⟨x, positive, -, scaled, rounds⟩ := exists_round .positive (-53) n.log2 log (by omega)
    (by omega)
  refine ⟨x, positive, ?_, ?_⟩
  · obtain ⟨j, above⟩ := Nat.exists_eq_add_of_le (show 52 ≤ n.log2 by omega)
    have unit : n.log2 - 52 = j := by omega
    have both : 2 ^ (n.log2 + 1) = 2 ^ j * 2 ^ 53 := by
      rw [← Nat.pow_add]
      congr 1
      omega
    rw [scaled, both, roundQuotient_mul (Nat.two_pow_pos 53), Number.roundedNat, unit, above,
      Nat.mul_assoc, ← Nat.pow_add, Nat.add_comm j]
  · have slow : ¬ (n < 2 ^ 53 ∧ 0 ≤ 22) := by omega
    have opened : Float.ofNat n = Float.ofModel (Float.Model.ofScientific n 0) := by
      show Float.ofScientific n false 0 = _
      unfold Float.ofScientific
      rw [dif_neg slow]
      rfl
    rw [opened, toFloat, ← rounds, ← ofScientific_zero some]
    rfl


/-- A positive number of at most 53 bits is converted as it is. -/
theorem Normal.exists_ofNat_of_lt {n : Nat} (some : n ≠ 0) (small : n < 2 ^ 53) :
    ∃ x : Normal, x.sign = .positive ∧ x.exponent < 1000 ∧ x.scaled = n * 2 ^ 52 ∧
      UnpackedFloat.ofNat Format.binary64 n = x.unpacked := by
  have atMost : n.log2 < 53 := (Nat.log2_lt some).mpr small
  -- It is shifted until it has 53 bits, so that rounding has nothing to do.
  have log : (n * 2 ^ (52 - n.log2)).log2 = 52 + 0 := by
    have whole : n.log2 + (52 - n.log2) = 52 := by omega
    have pos : 0 < n * 2 ^ (52 - n.log2) :=
      Nat.mul_pos (Nat.pos_of_ne_zero some) (Nat.two_pow_pos _)
    refine (Nat.log2_eq_iff pos.ne').mpr ⟨?_, ?_⟩
    · rw [show 52 + 0 = n.log2 + (52 - n.log2) by omega, Nat.pow_add]
      exact Nat.mul_le_mul_right _ (Nat.log2_self_le some)
    · rw [show 52 + 0 + 1 = n.log2 + 1 + (52 - n.log2) by omega, Nat.pow_add]
      exact Nat.mul_lt_mul_of_pos_right Nat.lt_log2_self (Nat.two_pow_pos _)
  obtain ⟨x, positive, near, scaled, rounds⟩ := exists_round .positive
    (n.log2 - 52) n.log2 log (by omega) (by omega)
  refine ⟨x, positive, by omega, ?_, ?_⟩
  · rw [scaled, Nat.pow_zero, roundQuotient_one, Nat.mul_assoc, ← Nat.pow_add,
      show 52 - n.log2 + n.log2 = 52 by omega]
  · have order : compare (n : Int) 0 = .gt := compare_gt_iff_gt.mpr (by omega)
    have target : Format.binary64.targetExponent (Float.Model.totalExponent n 0) =
        n.log2 - 52 := by
      have bits : Format.binary64.mantissaBits = 53 := rfl
      have least : Format.binary64.minExponent = -1074 := rfl
      rw [Format.targetExponent, Float.Model.totalExponent, bits, least]
      omega
    have shift : (0 - ((n.log2 : Int) - 52)).toNat = 52 - n.log2 := by omega
    have reached : (0 : Int) - (52 - n.log2 : Nat) = n.log2 - 52 := by omega
    rw [← rounds]
    unfold UnpackedFloat.ofNat UnpackedFloat.ofInt UnpackedFloat.normalize
    rw [order]
    dsimp only
    unfold UnpackedFloat.round UnpackedFloat.decreaseExponent
    simp only [Int.toNat_natCast, target, shift, reached, Nat.shiftLeft_eq]

/-- One. -/
def Normal.one : Normal := ⟨.positive, 2 ^ 52, 0, le_refl _, by decide, by decide⟩

theorem Normal.one_toFloat : Float.ofBits 0x3FF0000000000000 = one.toFloat := by
  decide +kernel

theorem Normal.toFloat_mul (x y : Normal) :
    x.toFloat * y.toFloat = Float.ofModel (Float.Model.pack
      (UnpackedFloat.mul Format.binary64 x.unpacked y.unpacked)) := by
  show Float.ofModel (Float.Model.pack (UnpackedFloat.mul Format.binary64
    (Float.Model.pack x.unpacked).unpack (Float.Model.pack y.unpacked).unpack)) = _
  rw [unpack_pack, unpack_pack]

/-- Multiplying by one changes nothing. -/
theorem Normal.exists_mul_one (x : Normal) (positive : x.sign = .positive)
    (small : x.exponent < 1000) :
    ∃ y : Normal, y.sign = .positive ∧ y.scaled = x.scaled ∧
      UnpackedFloat.mul Format.binary64 x.unpacked one.unpacked = y.unpacked := by
  have least := x.least
  have most := x.most
  have log : (x.mantissa * 2 ^ 52).log2 = 52 + 52 := by
    refine (Nat.log2_eq_iff (by omega)).mpr ⟨?_, ?_⟩ <;> omega
  obtain ⟨y, sign, -, scaled, rounds⟩ := exists_round .positive
    (x.exponent - 52 + -52) x.exponent log (by omega) small
  refine ⟨y, sign, ?_, ?_⟩
  · have same := roundQuotient_mul (Nat.two_pow_pos 52) x.mantissa 1
    rw [Nat.one_mul, roundQuotient_one] at same
    rw [scaled, same, Normal.scaled]
  · rw [← rounds, unpacked, positive]
    rfl

/-- **Natural numbers** below `2 ^ 64` become the binary64 nearest to them. -/
theorem Normal.exists_ofNat {n : Nat} (some : n ≠ 0) (word : n < 2 ^ 64) :
    ∃ x : Normal, x.sign = .positive ∧ x.scaled = Number.roundedNat n * 2 ^ 52 ∧
      Float.ofNat n = x.toFloat := by
  rcases Nat.lt_or_ge n (2 ^ 53) with small | large
  · obtain ⟨x, positive, near, scaled, converts⟩ := exists_ofNat_of_lt some small
    obtain ⟨y, sign, same, product⟩ := x.exists_mul_one positive near
    refine ⟨y, sign, ?_, ?_⟩
    · rw [same, scaled, Number.roundedNat_of_lt small]
    -- A short number is converted as it is, and then multiplied by the power of ten, which is one.
    · have fast : n < 2 ^ 53 ∧ 0 ≤ 22 := ⟨small, by decide⟩
      have fits : n.toUInt64.toNat = n := by
        simp
        omega
      have opened : Float.ofNat n = n.toUInt64.toFloat * Normal.one.toFloat := by
        show Float.ofScientific n false 0 = _
        unfold Float.ofScientific
        rw [dif_pos fast]
        exact congrArg (n.toUInt64.toFloat * ·) one_toFloat
      have left : n.toUInt64.toFloat = x.toFloat := by
        show Float.ofModel (Float.Model.pack
          (UnpackedFloat.ofNat Format.binary64 n.toUInt64.toNat)) = _
        rw [fits, converts]
        rfl
      rw [opened, left, toFloat_mul, product]
      rfl
  · exact exists_ofNat_of_le large word

/-! ## Ranks -/

/-- The rank of the binary64 nearest to a natural number. -/
def Number.rankNat (n : Nat) : Nat := (Float.place (Float.ofNat n)).toNat

/-- A natural number and its negative are opposite to one another. -/
theorem Number.place_ofNat {n : Nat} (word : n < 2 ^ 64) :
    Float.place (Float.ofNat n) = rankNat n ∧ Float.place (Float.ofNat n).neg = -rankNat n ∧
      (Float.ofNat n).isNaN = false := by
  rcases Nat.eq_zero_or_pos n with rfl | pos
  · decide +kernel
  · obtain ⟨x, positive, -, converts⟩ := Normal.exists_ofNat pos.ne' word
    obtain ⟨y, negative, same, opposite⟩ := Normal.exists_neg positive
    have rank : rankNat n = x.rank := by
      rw [rankNat, converts, Normal.place_of_positive positive, Int.toNat_natCast]
    refine ⟨?_, ?_, ?_⟩
    · rw [rank, converts, Normal.place_of_positive positive]
    · rw [rank, converts, opposite, Normal.place_of_negative negative, same]
    · rw [converts, x.isNaN_toFloat]

namespace Number

/-- A rounded number has as many bits as the number, or is the next power of two. -/
theorem roundedNat_bounds {n : Nat} (some : n ≠ 0) :
    2 ^ n.log2 ≤ roundedNat n ∧ roundedNat n ≤ 2 ^ (n.log2 + 1) := by
  rcases Nat.lt_or_ge n (2 ^ 53) with small | large
  · rw [roundedNat_of_lt small]
    exact ⟨Nat.log2_self_le some, Nat.lt_log2_self.le⟩
  · have atLeast : 53 ≤ n.log2 := (Nat.le_log2 some).mpr large
    obtain ⟨k, log⟩ := Nat.exists_eq_add_of_le (show 52 ≤ n.log2 by omega)
    obtain ⟨least, most⟩ := roundQuotient_bounds_of_log2 log
    have unit : n.log2 - 52 = k := by omega
    rw [roundedNat, unit, log, show 52 + k + 1 = 53 + k by omega, Nat.pow_add, Nat.pow_add]
    exact ⟨Nat.mul_le_mul_right _ least, Nat.mul_le_mul_right _ most⟩

/-- Rounding keeps the order. -/
theorem roundedNat_mono {m n : Nat} (le : m ≤ n) : roundedNat m ≤ roundedNat n := by
  rcases Nat.eq_zero_or_pos m with rfl | pos
  · exact Nat.zero_le _
  · have some : m ≠ 0 := pos.ne'
    have someToo : n ≠ 0 := by omega
    have logs : m.log2 ≤ n.log2 := (Nat.le_log2 someToo).mpr ((Nat.log2_self_le some).trans le)
    rcases Nat.lt_or_eq_of_le logs with less | same
    -- Between numbers of different lengths lies a power of two.
    · calc roundedNat m
        _ ≤ 2 ^ (m.log2 + 1) := (roundedNat_bounds some).2
        _ ≤ 2 ^ n.log2 := Nat.pow_le_pow_right (by decide) less
        _ ≤ roundedNat n := (roundedNat_bounds someToo).1
    · unfold roundedNat
      rw [same]
      exact Nat.mul_le_mul_right _ (roundQuotient_mono le _)

/-- A rounded word is off by `2 ^ 10` at most. -/
theorem roundedNat_near {n : Nat} (word : n < 2 ^ 64) :
    roundedNat n ≤ n + 2 ^ 10 ∧ n ≤ roundedNat n + 2 ^ 10 := by
  rcases Nat.eq_zero_or_pos n with rfl | pos
  · decide
  · have short : n.log2 < 64 := (Nat.log2_lt pos.ne').mpr word
    have unit : 2 ^ (n.log2 - 52) ≤ 2 ^ 11 := Nat.pow_le_pow_right (by decide) (by omega)
    have near := roundQuotient_near (Nat.two_pow_pos (n.log2 - 52)) n
    unfold roundedNat
    omega

theorem roundedNat_eq_zero_iff {n : Nat} : roundedNat n = 0 ↔ n = 0 := by
  constructor
  · intro zero
    by_contra some
    have pos : 0 < 2 ^ n.log2 := Nat.two_pow_pos _
    have bounds := roundedNat_bounds some
    omega
  · rintro rfl
    rfl

theorem rankNat_eq_zero_iff {n : Nat} (word : n < 2 ^ 64) : rankNat n = 0 ↔ n = 0 := by
  constructor
  · intro zero
    by_contra some
    obtain ⟨x, positive, -, converts⟩ := Normal.exists_ofNat some word
    rw [rankNat, converts, Normal.place_of_positive positive, Int.toNat_natCast,
      Normal.rank] at zero
    have least := x.least
    omega
  · rintro rfl
    decide +kernel

/-- **The order** of places is that of rounded numbers. -/
theorem rankNat_lt_rankNat_iff {m n : Nat} (left : m < 2 ^ 64) (right : n < 2 ^ 64) :
    rankNat m < rankNat n ↔ roundedNat m < roundedNat n := by
  rcases Nat.eq_zero_or_pos m with rfl | pos
  · have zero := (rankNat_eq_zero_iff left).mpr rfl
    have zeroToo : roundedNat 0 = 0 := rfl
    have ranks := rankNat_eq_zero_iff right
    have values := roundedNat_eq_zero_iff (n := n)
    omega
  · rcases Nat.eq_zero_or_pos n with rfl | posToo
    · have zero := (rankNat_eq_zero_iff right).mpr rfl
      have zeroToo : roundedNat 0 = 0 := rfl
      omega
    · obtain ⟨x, positive, scaled, converts⟩ := Normal.exists_ofNat pos.ne' left
      obtain ⟨y, positiveToo, scaledToo, convertsToo⟩ := Normal.exists_ofNat posToo.ne' right
      rw [rankNat, converts, Normal.place_of_positive positive, rankNat, convertsToo,
        Normal.place_of_positive positiveToo, Int.toNat_natCast, Int.toNat_natCast,
        Normal.rank_lt_rank_iff, scaled, scaledToo, Nat.mul_lt_mul_right (Nat.two_pow_pos 52)]

/-! ## Integers -/

/-- **The binary64 nearest to an integer**, an integer as well. -/
def rounded : Int → Int
  | .ofNat n => roundedNat n
  | .negSucc n => -roundedNat (n + 1)

/-- The place of an integer is the rank of its magnitude, under its sign. -/
theorem place_ofInt {n : Int} (document : minWord ≤ n ∧ n ≤ maxUnsigned) :
    Float.place (Float.ofInt n) =
        (if n < 0 then -(rankNat n.natAbs : Int) else rankNat n.natAbs) ∧
      rounded n = (if n < 0 then -(roundedNat n.natAbs : Int) else roundedNat n.natAbs) ∧
      (Float.ofInt n).isNaN = false := by
  rw [minWord, maxUnsigned] at document
  cases n with
  | ofNat n =>
    rw [Int.ofNat_eq_natCast] at document
    have nonneg : ¬ Int.ofNat n < 0 := by simp
    obtain ⟨place, -, number⟩ := place_ofNat (show n < 2 ^ 64 by omega)
    rw [if_neg nonneg, if_neg nonneg]
    exact ⟨place, rfl, number⟩
  | negSucc n =>
    have negative : Int.negSucc n < 0 := Int.negSucc_lt_zero n
    obtain ⟨-, place, number⟩ := place_ofNat (show n + 1 < 2 ^ 64 by omega)
    rw [if_pos negative, if_pos negative]
    exact ⟨place, rfl, Float.isNaN_neg number⟩

theorem compare_congr {a b c d : Int} (less : a < b ↔ c < d) (greater : b < a ↔ d < c) :
    compare a b = compare c d := by
  rcases lt_trichotomy c d with lt | eq | gt
  · rw [compare_lt_iff_lt.mpr lt, compare_lt_iff_lt.mpr (less.mpr lt)]
  · have same : a = b := by omega
    rw [compare_eq_iff_eq.mpr eq, compare_eq_iff_eq.mpr same]
  · rw [compare_gt_iff_gt.mpr gt, compare_gt_iff_gt.mpr (greater.mpr gt)]

/-- The order of places is that of rounded integers. -/
theorem place_lt_place_iff {a b : Int} (left : minWord ≤ a ∧ a ≤ maxUnsigned)
    (right : minWord ≤ b ∧ b ≤ maxUnsigned) :
    Float.place (Float.ofInt a) < Float.place (Float.ofInt b) ↔ rounded a < rounded b := by
  obtain ⟨place, value, -⟩ := place_ofInt left
  obtain ⟨placeToo, valueToo, -⟩ := place_ofInt right
  rw [minWord, maxUnsigned] at left right
  have word : a.natAbs < 2 ^ 64 := by omega
  have wordToo : b.natAbs < 2 ^ 64 := by omega
  -- Negative integers are ordered the other way round, and lie below all others.
  have up := rankNat_lt_rankNat_iff word wordToo
  have down := rankNat_lt_rankNat_iff wordToo word
  have none := rankNat_eq_zero_iff word
  have noneToo := rankNat_eq_zero_iff wordToo
  have zero := roundedNat_eq_zero_iff (n := a.natAbs)
  have zeroToo := roundedNat_eq_zero_iff (n := b.natAbs)
  rw [place, placeToo, value, valueToo]
  split <;> split <;> omega

/-- Integers of documents are compared by the binary64 values nearest to them. -/
theorem compare?_toFloat {a b : Int} (left : minWord ≤ a ∧ a ≤ maxUnsigned)
    (right : minWord ≤ b ∧ b ≤ maxUnsigned) :
    Float.compare? (Float.ofInt a) (Float.ofInt b) = some (compare (rounded a) (rounded b)) := by
  obtain ⟨-, -, number⟩ := place_ofInt left
  obtain ⟨-, -, numberToo⟩ := place_ofInt right
  have order := compare_congr (place_lt_place_iff left right) (place_lt_place_iff right left)
  rw [Float.compare?, number, numberToo, order]
  rfl

/-- Rounding integers keeps their order. -/
theorem rounded_mono {a b : Int} (document : minWord ≤ a) (le : a ≤ b)
    (documentToo : b ≤ maxUnsigned) : rounded a ≤ rounded b := by
  obtain ⟨-, value, -⟩ := place_ofInt ⟨document, le.trans documentToo⟩
  obtain ⟨-, valueToo, -⟩ := place_ofInt ⟨document.trans le, documentToo⟩
  rw [value, valueToo]
  split <;> split
  · have := roundedNat_mono (show b.natAbs ≤ a.natAbs by omega)
    omega
  · omega
  · omega
  · have := roundedNat_mono (show a.natAbs ≤ b.natAbs by omega)
    omega

/-- A rounded integer is off by `2 ^ 10` at most. -/
theorem rounded_near {n : Int} (document : minWord ≤ n ∧ n ≤ maxUnsigned) :
    |rounded n - n| ≤ 2 ^ 10 := by
  obtain ⟨-, value, -⟩ := place_ofInt document
  rw [minWord, maxUnsigned] at document
  have near := roundedNat_near (show n.natAbs < 2 ^ 64 by omega)
  rw [value, abs_le]
  split <;> omega

end Number

end Warden
