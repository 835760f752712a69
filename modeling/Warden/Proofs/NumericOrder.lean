import Mathlib
import Warden.Constraint
import Warden.Proofs.Decimals
import Warden.Proofs.Nearest
/-! # The order of numbers
Numbers have exact values (`Number.value?`), by which mathematics orders them (`Number.order?`).
Values are compared otherwise: by their exact values only if both are signed words, else by the
binary64 values nearest to them. Rounding never turns an order round, and it keeps the values that
are binary64 values, so that the two orders differ in one way only: different numbers may come out
as equal. Such numbers are **confused** (`Number.Confused`), and all others are compared exactly
(`Number.compare?_eq`). One of two confused numbers is an integer of more than 53 bits
(`Number.Confused.exists_int`).

What equality, literals and ranges let through can be told by mathematics from here on, as long as
confused numbers are named (`Value.equal_iff`, `Bound.admitsAbove_included_iff`). -/

namespace Warden

/-! ## Places and values -/

namespace Float

/-- The magnitude of the binary64 of a rank, in units of `2 ^ -1074`. -/
def units (rank : Nat) : Nat :=
  if rank < 2 ^ 52 then rank else (rank % 2 ^ 52 + 2 ^ 52) * 2 ^ (rank / 2 ^ 52 - 1)

theorem units_strictMono : StrictMono units := by
  refine strictMono_nat_of_lt_succ fun rank => ?_
  unfold units
  rcases Nat.lt_or_ge (rank + 1) (2 ^ 52) with subnormal | normal
  · rw [if_pos (by omega), if_pos subnormal]
    exact Nat.lt_succ_self rank
  · rw [if_neg (Nat.not_lt.mpr normal)]
    rcases Nat.lt_or_ge rank (2 ^ 52) with last | normalToo
    · have next : rank + 1 = 2 ^ 52 := by omega
      rw [if_pos last, next]
      exact last.trans_le (by decide)
    · rw [if_neg (Nat.not_lt.mpr normalToo)]
      -- The mantissa grows by one, or it starts again while the exponent does.
      by_cases full : rank % 2 ^ 52 + 1 = 2 ^ 52
      · obtain ⟨k, exponent⟩ := Nat.exists_eq_add_of_le
          (show 1 ≤ rank / 2 ^ 52 from (Nat.one_le_div_iff (by decide)).mpr normalToo)
        have restarts : (rank + 1) % 2 ^ 52 = 0 := by omega
        have carries : (rank + 1) / 2 ^ 52 - 1 = k + 1 := by omega
        have before : rank % 2 ^ 52 + 2 ^ 52 < 2 * 2 ^ 52 := by omega
        rw [restarts, carries, exponent, Nat.add_sub_cancel_left, Nat.zero_add, Nat.pow_succ 2 k]
        calc (rank % 2 ^ 52 + 2 ^ 52) * 2 ^ k
          _ < 2 * 2 ^ 52 * 2 ^ k := Nat.mul_lt_mul_of_pos_right before (Nat.two_pow_pos k)
          _ = 2 ^ 52 * (2 ^ k * 2) := by ring
      · have grows : (rank + 1) % 2 ^ 52 = rank % 2 ^ 52 + 1 := by omega
        have stays : (rank + 1) / 2 ^ 52 = rank / 2 ^ 52 := by omega
        rw [grows, stays]
        exact Nat.mul_lt_mul_of_pos_right (by omega) (Nat.two_pow_pos _)

/-- A magnitude has a mantissa of at most 53 bits. -/
theorem exists_units (rank : Nat) : ∃ mantissa k, units rank = mantissa * 2 ^ k ∧
    mantissa < 2 ^ 53 := by
  unfold units
  split
  · exact ⟨rank, 0, (Nat.mul_one rank).symm, by omega⟩
  · exact ⟨_, _, rfl, by omega⟩

/-- The value at a place; places count the binary64 values up and down from zero. -/
def valueAt (place : Int) : ℚ := (place.sign * units place.natAbs : Int) / 2 ^ 1074

theorem valueAt_neg (place : Int) : valueAt (-place) = -valueAt place := by
  rw [valueAt, valueAt, Int.sign_neg, Int.natAbs_neg, neg_mul, Int.cast_neg, neg_div]

theorem valueAt_natCast (rank : Nat) : valueAt rank = units rank / 2 ^ 1074 := by
  rw [valueAt, Int.natAbs_natCast]
  rcases Nat.eq_zero_or_pos rank with rfl | pos
  · simp [units]
  · rw [Int.sign_natCast_of_ne_zero pos.ne', one_mul, Int.cast_natCast]

theorem valueAt_zero : valueAt 0 = 0 := by simp [valueAt]

/-- **Places are in the order of values.** -/
theorem valueAt_strictMono : StrictMono valueAt := by
  have up {m n : Nat} (less : m < n) : valueAt m < valueAt n := by
    rw [valueAt_natCast, valueAt_natCast]
    have units := units_strictMono less
    gcongr
  intro p q less
  -- Below zero the values are opposite to those above.
  rcases lt_or_ge p 0 with negative | nonneg
  · obtain ⟨m, rfl⟩ := Int.exists_eq_neg_ofNat negative.le
    rcases lt_or_ge q 0 with negativeToo | nonneg
    · obtain ⟨n, rfl⟩ := Int.exists_eq_neg_ofNat negativeToo.le
      rw [valueAt_neg, valueAt_neg]
      exact neg_lt_neg (up (by omega))
    · obtain ⟨n, rfl⟩ := Int.eq_ofNat_of_zero_le nonneg
      have below : valueAt (0 : Nat) < valueAt m := up (by omega)
      rw [Int.natCast_zero, valueAt_zero] at below
      calc valueAt (-m)
        _ = -valueAt m := valueAt_neg m
        _ < 0 := neg_neg_iff_pos.mpr below
        _ ≤ valueAt n := by rw [valueAt_natCast]; positivity
  · obtain ⟨m, rfl⟩ := Int.eq_ofNat_of_zero_le nonneg
    obtain ⟨n, rfl⟩ := Int.eq_ofNat_of_zero_le (nonneg.trans less.le)
    exact up (by omega)

/-- Mantissa and exponent give the magnitude of the rank. -/
theorem parts_eq_units (x : Float) :
    ((Shortest.parts x).1 : ℚ) * 2 ^ (Shortest.parts x).2 =
      units (x.toBits.toNat % 2 ^ 63) / 2 ^ 1074 := by
  have field : x.toBits.toNat / Nat.pow 2 52 % 2048 = x.toBits.toNat % 2 ^ 63 / 2 ^ 52 := by
    show x.toBits.toNat / 2 ^ 52 % 2048 = _
    omega
  have fraction : x.toBits.toNat % Nat.pow 2 52 = x.toBits.toNat % 2 ^ 63 % 2 ^ 52 := by
    show x.toBits.toNat % 2 ^ 52 = _
    omega
  have power : Nat.pow 2 52 = 2 ^ 52 := rfl
  unfold Shortest.parts units
  dsimp only
  rw [field, fraction, power]
  generalize x.toBits.toNat % 2 ^ 63 = rank
  by_cases subnormal : rank < 2 ^ 52
  · rw [if_pos ((Nat.div_eq_zero_iff_lt (by decide)).mpr subnormal), if_pos subnormal,
      Nat.mod_eq_of_lt subnormal, zpow_neg, zpow_ofNat, div_eq_mul_inv]
  · obtain ⟨k, exponent⟩ := Nat.exists_eq_add_of_le
      (show 1 ≤ rank / 2 ^ 52 from (Nat.one_le_div_iff (by decide)).mpr (Nat.not_lt.mp subnormal))
    have shift : Int.ofNat (1 + k) - 1075 = (k : Int) - 1074 := by
      rw [Int.ofNat_eq_natCast]
      omega
    rw [exponent, if_neg (by omega), if_neg subnormal, Nat.add_sub_cancel_left, shift,
      zpow_sub₀ (by decide), zpow_natCast, zpow_ofNat, Nat.cast_mul, Nat.cast_pow, Nat.cast_ofNat,
      mul_div_assoc]

/-- **The exact value** of a finite binary64 is the one at its place. -/
theorem value?_eq (x : Float) :
    Float.value? x = if x.isNaN || x.isInf then none else some (valueAt (Float.place x)) := by
  have signed : (if Shortest.isNegative x then -1 else 1) *
      (units (x.toBits.toNat % 2 ^ 63) / 2 ^ 1074 : ℚ) = valueAt (Float.place x) := by
    rw [place, Shortest.isNegative]
    by_cases negative : x.toBits.toNat / Nat.pow 2 63 = 1
    · rw [if_pos (decide_eq_true negative), if_pos negative, valueAt_neg, neg_one_mul]
      exact congrArg Neg.neg (valueAt_natCast _).symm
    · rw [if_neg (decide_eq_true_iff.not.mpr negative), if_neg negative, one_mul]
      exact (valueAt_natCast _).symm
  rw [value?, mul_assoc, parts_eq_units, signed]

end Float

namespace Number

/-! ## Rounding to a value that is in between -/

/-- A value of 53 bits that is no less than the leading bit of a number is a multiple of the last bit
that rounding keeps of it. -/
theorem exists_multiple {mantissa k j s : Nat} (short : mantissa < 2 ^ 53)
    (above : 2 ^ (52 + j) * 2 ^ s ≤ mantissa * 2 ^ k) :
    ∃ c, mantissa * 2 ^ k = c * 2 ^ j * 2 ^ s := by
  have less : 2 ^ (52 + j + s) < 2 ^ (53 + k) := by
    rw [Nat.pow_add, Nat.pow_add 2 53]
    exact above.trans_lt (Nat.mul_lt_mul_of_pos_right short (Nat.two_pow_pos k))
  have exponents := (Nat.pow_lt_pow_iff_right Nat.one_lt_two).mp less
  obtain ⟨i, rfl⟩ := Nat.exists_eq_add_of_le (show j + s ≤ k by omega)
  exact ⟨mantissa * 2 ^ i, by rw [Nat.pow_add, Nat.pow_add]; ring⟩

/-- A multiple of the last bit kept is not rounded. -/
theorem roundQuotient_multiple (c j : Nat) : roundQuotient (c * 2 ^ j) (2 ^ j) = c := by
  have scaled := roundQuotient_mul (Nat.two_pow_pos j) c 1
  rwa [Nat.one_mul, roundQuotient_one] at scaled

/-- No value of 53 bits lies between a natural number and the one to which it is rounded. -/
theorem roundedNat_between (n s : Nat) {mantissa k : Nat} (short : mantissa < 2 ^ 53) :
    (n * 2 ^ s ≤ mantissa * 2 ^ k → roundedNat n * 2 ^ s ≤ mantissa * 2 ^ k) ∧
      (mantissa * 2 ^ k ≤ n * 2 ^ s → mantissa * 2 ^ k ≤ roundedNat n * 2 ^ s) := by
  rcases Nat.lt_or_ge n (2 ^ 53) with small | large
  · rw [roundedNat_of_lt small]
    exact ⟨id, id⟩
  · have some : n ≠ 0 := by omega
    have bits : 53 ≤ n.log2 := (Nat.le_log2 some).mpr large
    obtain ⟨j, log⟩ := Nat.exists_eq_add_of_le (show 52 ≤ n.log2 by omega)
    have unit : n.log2 - 52 = j := by omega
    have least : 2 ^ (52 + j) ≤ n := log ▸ Nat.log2_self_le some
    have nearest : 2 ^ (52 + j) ≤ roundedNat n := log ▸ (roundedNat_bounds some).1
    have scale : 0 < 2 ^ s := Nat.two_pow_pos s
    constructor
    · intro below
      obtain ⟨c, same⟩ := exists_multiple short ((Nat.mul_le_mul_right _ least).trans below)
      rw [same] at below ⊢
      have rounds := roundQuotient_mono (Nat.le_of_mul_le_mul_right below scale) (2 ^ j)
      rw [roundQuotient_multiple] at rounds
      rw [roundedNat, unit]
      exact Nat.mul_le_mul_right _ (Nat.mul_le_mul_right _ rounds)
    · intro above
      rcases Nat.lt_or_ge (mantissa * 2 ^ k) (2 ^ (52 + j) * 2 ^ s) with less | more
      · -- Rounding does not go below the leading bit.
        exact less.le.trans (Nat.mul_le_mul_right _ nearest)
      · obtain ⟨c, same⟩ := exists_multiple short more
        rw [same] at above ⊢
        have rounds := roundQuotient_mono (Nat.le_of_mul_le_mul_right above scale) (2 ^ j)
        rw [roundQuotient_multiple] at rounds
        rw [roundedNat, unit]
        exact Nat.mul_le_mul_right _ (Nat.mul_le_mul_right _ rounds)

/-- Nor does a magnitude of binary64, in whatever units. -/
theorem roundedNat_units (n rank s : Nat) :
    ((n : ℚ) ≤ Float.units rank / 2 ^ s → (roundedNat n : ℚ) ≤ Float.units rank / 2 ^ s) ∧
      (Float.units rank / 2 ^ s ≤ (n : ℚ) → Float.units rank / 2 ^ s ≤ (roundedNat n : ℚ)) := by
  obtain ⟨mantissa, k, units, short⟩ := Float.exists_units rank
  obtain ⟨below, above⟩ := roundedNat_between n s (k := k) short
  have scale : (0 : ℚ) < 2 ^ s := by positivity
  rw [units, le_div_iff₀ scale, le_div_iff₀ scale, div_le_iff₀ scale, div_le_iff₀ scale]
  exact ⟨by exact_mod_cast below, by exact_mod_cast above⟩

theorem rounded_neg (n : Int) : rounded (-n) = -rounded n := by
  rcases n with (_ | n) | n
  · rfl
  · rfl
  · exact (neg_neg _).symm

/-- An integer that is no larger than a binary64 stays so when it is rounded. -/
theorem rounded_le_valueAt {n place : Int} (le : (n : ℚ) ≤ Float.valueAt place) :
    (rounded n : ℚ) ≤ Float.valueAt place := by
  rcases lt_or_ge place 0 with negative | nonneg
  · have below := Float.valueAt_strictMono negative
    rw [Float.valueAt_zero] at below
    obtain ⟨rank, rfl⟩ := Int.exists_eq_neg_ofNat negative.le
    cases n with
    | ofNat m =>
      rw [Int.ofNat_eq_natCast, Int.cast_natCast] at le
      exact absurd (le.trans_lt below) (not_lt.mpr m.cast_nonneg)
    | negSucc m =>
      rw [Float.valueAt_neg, Float.valueAt_natCast, Int.cast_negSucc, neg_le_neg_iff] at le
      rw [Float.valueAt_neg, Float.valueAt_natCast, rounded, Int.cast_neg, neg_le_neg_iff]
      exact (roundedNat_units (m + 1) rank 1074).2 le
  · obtain ⟨rank, rfl⟩ := Int.eq_ofNat_of_zero_le nonneg
    rw [Float.valueAt_natCast] at le ⊢
    cases n with
    | ofNat m => exact (roundedNat_units m rank 1074).1 le
    | negSucc m =>
      calc (rounded (.negSucc m) : ℚ)
        _ = -(roundedNat (m + 1) : ℚ) := by rw [rounded, Int.cast_neg, Int.cast_natCast]
        _ ≤ 0 := neg_nonpos.mpr (Nat.cast_nonneg _)
        _ ≤ Float.units rank / 2 ^ 1074 := by positivity

/-- An integer that is no smaller than a binary64 stays so when it is rounded. -/
theorem valueAt_le_rounded {n place : Int} (le : Float.valueAt place ≤ n) :
    Float.valueAt place ≤ rounded n := by
  have opposite : ((-n : Int) : ℚ) ≤ Float.valueAt (-place) := by
    rw [Float.valueAt_neg, Int.cast_neg]
    exact neg_le_neg le
  have rounds := rounded_le_valueAt opposite
  rw [Float.valueAt_neg, rounded_neg, Int.cast_neg] at rounds
  exact neg_le_neg_iff.mp rounds

/-- The magnitude of a normal value. -/
theorem units_rank (x : Normal) : Float.units x.rank = x.mantissa * 2 ^ (x.exponent + 1022) := by
  have least := x.least
  have most := x.most
  have rank : x.rank = (x.exponent + 1022) * 2 ^ 52 + x.mantissa := rfl
  have normal : ¬ x.rank < 2 ^ 52 := by omega
  have exponent : x.rank / 2 ^ 52 - 1 = x.exponent + 1022 := by omega
  have mantissa : x.rank % 2 ^ 52 + 2 ^ 52 = x.mantissa := by omega
  rw [Float.units, if_neg normal, exponent, mantissa]

/-- Its value is counted in units of `2 ^ -52`. -/
theorem valueAt_rank (x : Normal) : Float.valueAt x.rank = x.scaled / 2 ^ 52 := by
  have cancel (s : Nat) : ((x.mantissa * 2 ^ (x.exponent + s) : Nat) : ℚ) / 2 ^ (52 + s) =
      x.scaled / 2 ^ 52 := by
    have pos : (2 : ℚ) ^ s ≠ 0 := by positivity
    rw [Normal.scaled, Nat.pow_add, ← Nat.mul_assoc, pow_add, Nat.cast_mul _ (2 ^ s), Nat.cast_pow,
      Nat.cast_ofNat, mul_div_mul_right _ _ pos]
  rw [Float.valueAt_natCast, units_rank]
  exact cancel 1022

/-- A natural number is converted to its rounded value. -/
theorem valueAt_rankNat {n : Nat} (word : n < 2 ^ 64) :
    Float.valueAt (rankNat n) = roundedNat n := by
  rcases Nat.eq_zero_or_pos n with rfl | pos
  · rw [(rankNat_eq_zero_iff word).mpr rfl, roundedNat_eq_zero_iff.mpr rfl]
    exact Float.valueAt_zero
  · obtain ⟨x, positive, scaled, converts⟩ := Normal.exists_ofNat pos.ne' word
    have rank : rankNat n = x.rank := by
      rw [rankNat, converts, Normal.place_of_positive positive, Int.toNat_natCast]
    rw [rank, valueAt_rank, scaled, Nat.cast_mul, Nat.cast_pow, Nat.cast_ofNat,
      mul_div_cancel_right₀ _ (by positivity)]

/-- **The value of the binary64 nearest** to a number. -/
def nearest (number : Number) : ℚ := Float.valueAt (Float.place number.toFloat)

/-- The one nearest to an integer is the rounded integer. -/
theorem nearest_int {n : Int} (document : minWord ≤ n ∧ n ≤ maxUnsigned) :
    nearest (.int n) = rounded n := by
  obtain ⟨place, value, -⟩ := place_ofInt document
  rw [minWord, maxUnsigned] at document
  have word : n.natAbs < 2 ^ 64 := by omega
  rw [nearest, toFloat, place, value]
  split
  · rw [Float.valueAt_neg, valueAt_rankNat word, Int.cast_neg, Int.cast_natCast]
  · rw [valueAt_rankNat word, Int.cast_natCast]

/-! ## Exact values -/

/-- **The exact value** of a number, if it is one of those that documents hold: an integer from the
smallest signed to the largest unsigned word, or a finite binary64. -/
def value? : Number → Option ℚ
  | .int n => if minWord ≤ n ∧ n ≤ maxUnsigned then some n else none
  | .float x => Float.value? x

/-- **The order** of the exact values of two numbers. Numbers that no document holds have none, and
are left in the order in which they are compared. -/
def order? (a b : Number) : Option Ordering :=
  match a.value?, b.value? with
  | some p, some q => some (compare p q)
  | _, _ => a.compare? b

/-- Two numbers are **confused** if they are different and not both signed words, and the same
binary64 is nearest to both. -/
def Confused (a b : Number) : Prop :=
  (a.word? = none ∨ b.word? = none) ∧ a.order? b ≠ some .eq ∧
    Float.compare? a.toFloat b.toFloat = some .eq

instance (a b : Number) : Decidable (a.Confused b) := inferInstanceAs (Decidable (_ ∧ _ ∧ _))

/-- A signed word has its value. -/
theorem value?_of_word? {a : Number} {n : Int} (word : a.word? = some n) :
    a.value? = some (n : ℚ) := by
  cases a with
  | int m =>
    rw [word?] at word
    split at word
    · next within =>
      cases word
      rw [value?, if_pos ⟨within.1, within.2.trans (by decide)⟩]
    · cases word
  | float x => cases word

theorem value?_int_eq_some_iff {n : Int} {p : ℚ} :
    (int n).value? = some p ↔ (minWord ≤ n ∧ n ≤ maxUnsigned) ∧ (n : ℚ) = p := by
  rw [value?, Option.ite_none_right_eq_some, Option.some_inj]

theorem value?_float_eq_some_iff {x : Float} {p : ℚ} :
    (float x).value? = some p ↔
      (x.isNaN || x.isInf) = false ∧ Float.valueAt (Float.place x) = p := by
  rw [value?, Float.value?_eq, Option.ite_none_left_eq_some, Option.some_inj, Bool.not_eq_true]

/-- What has an exact value is no NaN once it is rounded. -/
theorem isNaN_toFloat_of_value? {a : Number} {p : ℚ} (value : a.value? = some p) :
    a.toFloat.isNaN = false := by
  cases a with
  | int n => exact (place_ofInt (value?_int_eq_some_iff.mp value).1).2.2
  | float x => exact (Bool.or_eq_false_iff.mp (value?_float_eq_some_iff.mp value).1).1

/-- **Rounding keeps the order** of exact values. -/
theorem nearest_mono {a b : Number} {p q : ℚ} (left : a.value? = some p) (right : b.value? = some q)
    (le : p ≤ q) : a.nearest ≤ b.nearest := by
  cases a with
  | int m =>
    obtain ⟨document, rfl⟩ := value?_int_eq_some_iff.mp left
    rw [nearest_int document]
    cases b with
    | int n =>
      obtain ⟨documentToo, rfl⟩ := value?_int_eq_some_iff.mp right
      rw [nearest_int documentToo, Int.cast_le]
      exact rounded_mono document.1 (Int.cast_le.mp le) documentToo.2
    | float y =>
      obtain ⟨-, rfl⟩ := value?_float_eq_some_iff.mp right
      exact rounded_le_valueAt le
  | float x =>
    obtain ⟨-, rfl⟩ := value?_float_eq_some_iff.mp left
    cases b with
    | int n =>
      obtain ⟨documentToo, rfl⟩ := value?_int_eq_some_iff.mp right
      rw [nearest_int documentToo]
      exact valueAt_le_rounded le
    | float y =>
      obtain ⟨-, rfl⟩ := value?_float_eq_some_iff.mp right
      exact le

/-- Numbers are compared as binary64 values by the values nearest to them. -/
theorem compare?_toFloat_of_value? {a b : Number} {p q : ℚ} (left : a.value? = some p)
    (right : b.value? = some q) :
    Float.compare? a.toFloat b.toFloat = some (compare a.nearest b.nearest) := by
  rw [Float.compare?, isNaN_toFloat_of_value? left, isNaN_toFloat_of_value? right, nearest, nearest,
    ← cmp_eq_compare (Float.valueAt _), Float.valueAt_strictMono.cmp_map_eq, cmp_eq_compare]
  rfl

/-- Rounding makes different values the same at most. -/
theorem compare_nearest {a b : Number} {p q : ℚ} (left : a.value? = some p)
    (right : b.value? = some q) :
    compare a.nearest b.nearest = compare p q ∨
      compare p q ≠ .eq ∧ compare a.nearest b.nearest = .eq := by
  rcases lt_trichotomy p q with less | rfl | greater
  · rcases (nearest_mono left right less.le).lt_or_eq with apart | same
    · exact .inl ((compare_lt_iff_lt.mpr apart).trans (compare_lt_iff_lt.mpr less).symm)
    · exact .inr ⟨fun equal => less.ne (compare_eq_iff_eq.mp equal), compare_eq_iff_eq.mpr same⟩
  · have same := (nearest_mono left right le_rfl).antisymm (nearest_mono right left le_rfl)
    exact .inl ((compare_eq_iff_eq.mpr same).trans (compare_eq_iff_eq.mpr rfl).symm)
  · rcases (nearest_mono right left greater.le).lt_or_eq with apart | same
    · exact .inl ((compare_gt_iff_gt.mpr apart).trans (compare_gt_iff_gt.mpr greater).symm)
    · exact .inr ⟨fun equal => greater.ne' (compare_eq_iff_eq.mp equal),
        compare_eq_iff_eq.mpr same.symm⟩

/-- Numbers that are not both signed words are compared as binary64 values. -/
theorem compare?_of_word?_eq_none {a b : Number} (foreign : a.word? = none ∨ b.word? = none) :
    a.compare? b = Float.compare? a.toFloat b.toFloat := by
  rw [compare?]
  rcases foreign with none | none
  · rw [none]
  · rw [none]
    cases a.word? <;> rfl

/-- Signed words are compared by their exact values. -/
theorem compare?_of_word? {a b : Number} {m n : Int} (left : a.word? = some m)
    (right : b.word? = some n) : a.compare? b = some (compare (m : ℚ) n) := by
  rw [compare?, left, right, ← cmp_eq_compare (m : ℚ), Int.cast_strictMono.cmp_map_eq,
    cmp_eq_compare]

/-- So are all numbers that have some, unless they are confused. -/
theorem compare?_of_value? {a b : Number} {p q : ℚ} (left : a.value? = some p)
    (right : b.value? = some q) (exact : ¬ a.Confused b) : a.compare? b = some (compare p q) := by
  by_cases foreign : a.word? = none ∨ b.word? = none
  · have order : a.order? b = some (compare p q) := by rw [order?, left, right]
    have rounds := compare?_toFloat_of_value? left right
    rw [compare?_of_word?_eq_none foreign, rounds]
    rcases compare_nearest left right with same | ⟨differ, equal⟩
    · rw [same]
    · -- Rounding has made the two the same, so that they would be confused.
      refine absurd ⟨foreign, ?_, rounds.trans (congrArg some equal)⟩ exact
      rw [order]
      exact fun same => differ (Option.some.inj same)
  · obtain ⟨wordA, wordB⟩ := not_or.mp foreign
    obtain ⟨m, isM⟩ := Option.ne_none_iff_exists'.mp wordA
    obtain ⟨n, isN⟩ := Option.ne_none_iff_exists'.mp wordB
    cases (value?_of_word? isM).symm.trans left
    cases (value?_of_word? isN).symm.trans right
    exact compare?_of_word? isM isN

/-- **Numbers are compared** by their exact values unless they are confused. -/
theorem compare?_eq (a b : Number) :
    a.compare? b = if a.Confused b then some .eq else a.order? b := by
  by_cases confused : a.Confused b
  · rw [if_pos confused, compare?_of_word?_eq_none confused.1, confused.2.2]
  · rw [if_neg confused]
    cases left : a.value? with
    | none => rw [order?, left]
    | some p =>
      cases right : b.value? with
      | none => rw [order?, left, right]
      | some q => rw [compare?_of_value? left right confused, order?, left, right]

/-- The binary64 nearest to a binary64 is itself. -/
theorem nearest_float {x : Float} {p : ℚ} (value : (float x).value? = some p) :
    (float x).nearest = p :=
  (value?_float_eq_some_iff.mp value).2

/-- A number that is no longer than 53 bits is a binary64, too. -/
theorem nearest_of_short {a : Number} {p : ℚ} (value : a.value? = some p)
    (short : ∀ n, a = .int n → |n| < 2 ^ 53) : a.nearest = p := by
  cases a with
  | float x => exact nearest_float value
  | int n =>
    obtain ⟨document, rfl⟩ := value?_int_eq_some_iff.mp value
    have bits := abs_lt.mp (short n rfl)
    obtain ⟨-, rounds, -⟩ := place_ofInt document
    rw [roundedNat_of_lt (show n.natAbs < 2 ^ 53 by omega)] at rounds
    rw [nearest_int document, rounds, Int.cast_inj]
    split <;> omega

/-- **One of two confused numbers** is an integer of more than 53 bits. -/
theorem Confused.exists_int {a b : Number} (confused : a.Confused b) {p q : ℚ}
    (left : a.value? = some p) (right : b.value? = some q) :
    ∃ n : Int, 2 ^ 53 ≤ |n| ∧ (a = .int n ∨ b = .int n) := by
  by_contra none
  have short {c : Number} (either : c = a ∨ c = b) (n : Int) (is : c = .int n) : |n| < 2 ^ 53 := by
    refine not_le.mp fun long => none ⟨n, long, ?_⟩
    rcases either with rfl | rfl
    · exact .inl is
    · exact .inr is
  have rounds := (compare?_toFloat_of_value? left right).symm.trans confused.2.2
  rw [nearest_of_short left (short (.inl rfl)), nearest_of_short right (short (.inr rfl))] at rounds
  exact confused.2.1 (by rw [order?, left, right]; exact rounds)

/-- What is nearest to a number is `2 ^ 10` away from it at most. -/
theorem abs_nearest_sub_le {a : Number} {p : ℚ} (value : a.value? = some p) :
    |a.nearest - p| ≤ 2 ^ 10 := by
  cases a with
  | int n =>
    obtain ⟨document, rfl⟩ := value?_int_eq_some_iff.mp value
    rw [nearest_int document]
    exact_mod_cast rounded_near document
  | float x =>
    rw [nearest_float value, sub_self, abs_zero]
    norm_num

/-- **Confused numbers** are `2 ^ 11` apart at most. -/
theorem Confused.abs_sub_le {a b : Number} (confused : a.Confused b) {p q : ℚ}
    (left : a.value? = some p) (right : b.value? = some q) : |p - q| ≤ 2 ^ 11 := by
  have rounds := (compare?_toFloat_of_value? left right).symm.trans confused.2.2
  have same : a.nearest = b.nearest := compare_eq_iff_eq.mp (Option.some.inj rounds)
  calc |p - q|
    _ = |(b.nearest - q) - (a.nearest - p)| := by rw [same]; congr 1; ring
    _ ≤ |b.nearest - q| + |a.nearest - p| := abs_sub _ _
    _ ≤ 2 ^ 10 + 2 ^ 10 := add_le_add (abs_nearest_sub_le right) (abs_nearest_sub_le left)
    _ = 2 ^ 11 := by norm_num

/-- Numbers of one kind and value have one exact value. -/
theorem order?_of_same {a b : Number} (same : a.same b = true) : a.order? b = some .eq := by
  rw [order?]
  cases a with
  | int m =>
    cases b with
    | float y => cases same
    | int n =>
      cases beq_iff_eq.mp same
      cases value : (int m).value? with
      | some p => exact congrArg some (compare_eq_iff_eq.mpr rfl)
      | none =>
        -- An integer without a value is no signed word, and compared as a binary64.
        have foreign : (int m).word? = none := by
          cases word : (int m).word? with
          | none => rfl
          | some n => cases (value?_of_word? word).symm.trans value
        dsimp only
        rw [compare?_of_word?_eq_none (.inl foreign), Float.compare?, isNaN_toFloat foreign]
        exact congrArg some (compare_eq_iff_eq.mpr rfl)
  | float x =>
    cases b with
    | int n => cases same
    | float y =>
      have equal : Float.compare? x y = some .eq := beq_iff_eq.mp same
      cases left : (float x).value? with
      | none => exact equal
      | some p =>
        cases right : (float y).value? with
        | none => exact equal
        | some q =>
          have rounds := (compare?_toFloat_of_value? left right).symm.trans equal
          rw [nearest_float left, nearest_float right] at rounds
          exact rounds

end Number

/-! ## Values -/

namespace Value

/-- **The order** of the exact values of two numbers, or of two texts; values of other kinds have
none. -/
def order? : Value → Value → Option Ordering
  | .number a, .number b => a.order? b
  | .string a, .string b => some (compare a b)
  | _, _ => none

/-- A value is **at most** another one if it comes before it or with it. -/
def AtMost (a b : Value) : Prop := a.order? b = some .lt ∨ a.order? b = some .eq

/-- A value is **below** another one if it comes before it. -/
def Below (a b : Value) : Prop := a.order? b = some .lt

/-- Two values **are equal** if they have one exact value as numbers, or one structure. -/
def Equals (a b : Value) : Prop := a.order? b = some .eq ∨ a.same b = true

/-- Two values are **confused** if they are numbers that are. -/
def Confused (a b : Value) : Prop := ∃ m ∈ a.number?, ∃ n ∈ b.number?, m.Confused n

/-- Two values are **alike** if they are equal or confused. -/
def Alike (a b : Value) : Prop := a.Equals b ∨ a.Confused b

instance (a b : Value) : Decidable (a.AtMost b) := inferInstanceAs (Decidable (_ ∨ _))

instance (a b : Value) : Decidable (a.Below b) := inferInstanceAs (Decidable (_ = _))

instance (a b : Value) : Decidable (a.Equals b) := inferInstanceAs (Decidable (_ ∨ _))

instance (a b : Value) : Decidable (a.Confused b) :=
  inferInstanceAs (Decidable (∃ m ∈ a.number?, ∃ n ∈ b.number?, m.Confused n))

instance (a b : Value) : Decidable (a.Alike b) := inferInstanceAs (Decidable (_ ∨ _))

@[simp] theorem confused_number {m n : Number} :
    (number m).Confused (.number n) ↔ m.Confused n := by
  simp [Confused, number?]

variable {a b : Value}

/-- Only numbers are confused. -/
theorem Confused.exists_number (confused : a.Confused b) :
    ∃ m n, a = .number m ∧ b = .number n ∧ m.Confused n := by
  obtain ⟨m, isM, n, isN, numbers⟩ := confused
  refine ⟨m, n, ?_, ?_, numbers⟩
  · cases a <;> cases isM
    rfl
  · cases b <;> cases isN
    rfl

/-- **Values are compared** by this order unless they are confused. -/
theorem compare?_eq (a b : Value) :
    a.compare? b = if a.Confused b then some .eq else a.order? b := by
  by_cases confused : a.Confused b
  · obtain ⟨m, n, rfl, rfl, numbers⟩ := confused.exists_number
    rw [if_pos confused]
    exact (m.compare?_eq n).trans (if_pos numbers)
  · rw [if_neg confused]
    cases a with
    | number m =>
      cases b with
      | number n => exact (m.compare?_eq n).trans (if_neg (confused_number.not.mp confused))
      | _ => rfl
    | string s => cases b <;> rfl
    | _ => rfl

/-- **Values come out as equal** iff they are alike. -/
theorem equal_iff : a.equal b = true ↔ a.Alike b := by
  by_cases numbers : ∃ m n, a = .number m ∧ b = .number n
  · obtain ⟨m, n, rfl, rfl⟩ := numbers
    have structured : (number m).same (.number n) = true → m.order? n = some .eq :=
      Number.order?_of_same
    show (m.compare? n == some .eq) = true ↔
      (m.order? n = some .eq ∨ (number m).same (.number n) = true) ∨ _
    rw [beq_iff_eq, m.compare?_eq n, confused_number, or_iff_left_of_imp structured]
    split
    · next confused => exact iff_of_true rfl (.inr confused)
    · next exact => exact (or_iff_left exact).symm
  · have structural : a.equal b = a.same b := by
      cases a with
      | number m =>
        cases b with
        | number n => exact absurd ⟨m, n, rfl, rfl⟩ numbers
        | _ => rfl
      | _ => cases b <;> rfl
    have text : a.order? b = some .eq → a.same b = true := by
      intro equal
      cases a with
      | number m =>
        cases b with
        | number n => exact absurd ⟨m, n, rfl, rfl⟩ numbers
        | _ => cases equal
      | string s =>
        cases b with
        | string t => exact beq_iff_eq.mpr (compare_eq_iff_eq.mp (Option.some.inj equal))
        | _ => cases equal
      | _ => cases equal
    have exact : ¬ a.Confused b := fun confused =>
      let ⟨m, n, isM, isN, _⟩ := confused.exists_number
      numbers ⟨m, n, isM, isN⟩
    rw [structural, Alike, Equals, or_iff_left exact, or_iff_right_of_imp text]

/-- Whether a value is a signed word if it is a number at all. -/
def HasWord (value : Value) : Prop := ∀ number, value.number? = some number → number.word? ≠ none

/-- Among signed words and what is no number nothing is confused. -/
theorem not_confused_of_hasWord (left : a.HasWord) (right : b.HasWord) : ¬ a.Confused b := by
  rintro ⟨m, isM, n, isN, foreign | foreign, -⟩
  · exact left m isM foreign
  · exact right n isN foreign

end Value

/-! ## Limits -/

namespace Bound

variable {limit value : Value}

/-- A lower limit lets through what it is at most, and what it is confused with. -/
theorem admitsAbove_included_iff :
    (included limit).admitsAbove value = true ↔ limit.AtMost value ∨ limit.Confused value := by
  rw [admitsAbove, Value.compare?_eq, Value.AtMost]
  by_cases confused : limit.Confused value
  · simp [confused]
  · rw [if_neg confused, or_iff_left confused]
    rcases limit.order? value with _ | _ | _ | _ <;> simp

/-- An upper limit lets through what is at most it, and what is confused with it. -/
theorem admitsBelow_included_iff :
    (included limit).admitsBelow value = true ↔ value.AtMost limit ∨ value.Confused limit := by
  rw [admitsBelow, Value.compare?_eq, Value.AtMost]
  by_cases confused : value.Confused limit
  · simp [confused]
  · rw [if_neg confused, or_iff_left confused]
    rcases value.order? limit with _ | _ | _ | _ <;> simp

/-- An upper limit that is ruled out lets through what is below it and not confused with it. -/
theorem admitsBelow_excluded_iff :
    (excluded limit).admitsBelow value = true ↔ value.Below limit ∧ ¬ value.Confused limit := by
  rw [admitsBelow, Value.compare?_eq, Value.Below, beq_iff_eq]
  by_cases confused : value.Confused limit
  · simp [confused]
  · rw [if_neg confused, and_iff_left confused]

end Bound

end Warden
