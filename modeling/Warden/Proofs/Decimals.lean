import Mathlib
import Warden.Number.Shortest
import Warden.Proofs.Rounding
/-! # Decimals of whole numbers
A finite binary64 has an exact value (`Float.value?`), but is written with the fewest digits that
read back as it. A large one is a whole number, and so is what is written: the digits that are left
out are zeros, and it lies half a unit away from the value at most (`Normal.text_plain`). -/

namespace Warden

open Float.Model (UnpackedFloat)

/-! ## Digits -/

/-- Multiplying by a power of ten appends zeros. -/
theorem toDigits_mul_pow {n : Nat} (pos : 0 < n) (k : Nat) :
    Nat.toDigits 10 (n * 10 ^ k) = Nat.toDigits 10 n ++ List.replicate k '0' := by
  induction k with
  | zero => simp
  | succ k ih =>
    have more : 0 < n * 10 ^ k := Nat.mul_pos pos (Nat.pow_pos (by decide))
    have step := Nat.toDigits_append_toDigits (b := 10) (by decide) more (d := 0) (by decide)
    have shifted : 10 * (n * 10 ^ k) + 0 = n * 10 ^ (k + 1) := by
      rw [Nat.add_zero, Nat.pow_succ, Nat.mul_comm, Nat.mul_assoc]
    rw [← shifted, ← step, ih, List.append_assoc, List.replicate_succ']
    rfl

/-- Digits with zeros behind them are the text of a whole number. -/
theorem DecimalStyle.positionalText_plain {n : Nat} (pos : 0 < n) (k : Nat) :
    plain.positionalText (Nat.toDigits 10 n) k = toString (n * 10 ^ k) := by
  have shown : toString (n * 10 ^ k) = String.ofList (Nat.toDigits 10 (n * 10 ^ k)) := rfl
  rw [shown, toDigits_mul_pow pos, positionalText, if_pos (Int.natCast_nonneg k), zeros,
    Int.toNat_natCast, String.ofList_append]
  simp [plain]

namespace Shortest

/-- Dropping zeros and raising the exponent keeps what is denoted. -/
theorem exists_trim (fuel digits : Nat) (exponent : Int) :
    ∃ k : Nat, (trim fuel digits exponent).2 = exponent + k ∧
      (trim fuel digits exponent).1 * 10 ^ k = digits := by
  induction fuel generalizing digits exponent with
  | zero => exact ⟨0, by simp [trim]⟩
  | succ fuel ih =>
    rw [trim]
    split
    · next zero =>
      obtain ⟨k, raised, kept⟩ := ih (digits / 10) (exponent + 1)
      refine ⟨k + 1, by rw [raised]; omega, ?_⟩
      rw [Nat.pow_succ, ← Nat.mul_assoc, kept]
      omega
    · exact ⟨0, by simp⟩

/-! ## Grids -/

variable {i : Interval}

namespace Interval

/-- What lies in an interval of whole numbers lies between its ends. -/
theorem bounds_of_contains (whole : i.unit = 1) {grid candidate : Nat}
    (inside : i.contains 1 grid candidate = true) :
    i.low ≤ candidate * grid ∧ candidate * grid ≤ i.high := by
  unfold contains at inside
  rw [whole] at inside
  simp only [Nat.mul_one] at inside
  split at inside <;> simp only [Bool.and_eq_true, decide_eq_true_eq] at inside <;> omega

/-- What lies strictly between the ends lies in the interval. -/
theorem contains_of_bounds (whole : i.unit = 1) {grid candidate : Nat}
    (above : i.low < candidate * grid) (below : candidate * grid < i.high) :
    i.contains 1 grid candidate = true := by
  unfold contains
  rw [whole]
  simp only [Nat.mul_one]
  split <;> simp only [Bool.and_eq_true, decide_eq_true_eq] <;> omega

/-- A decimal that is found lies in the interval. -/
theorem bounds_of_onGrid (whole : i.unit = 1) {place found : Nat}
    (finds : i.onGrid place = some found) :
    i.low ≤ found * 10 ^ place ∧ found * 10 ^ place ≤ i.high := by
  have inside : i.contains 1 (10 ^ place) found = true := by
    unfold onGrid at finds
    have scale : Nat.pow 10 (-(place : Int)).toNat = 1 := by simp
    have grid : Nat.pow 10 (place : Int).toNat = 10 ^ place := by simp
    simp only [scale, grid] at finds
    split at finds
    · next down up =>
      cases finds
      split
      · exact down
      · split
        · exact up
        · split
          · exact down
          · exact up
    · next down _ => cases finds; exact down
    · next _ up => cases finds; exact up
    · cases finds
  exact bounds_of_contains whole inside

/-- A decimal is found on a grid that is fine enough. -/
theorem isSome_onGrid (whole : i.unit = 1) (below : i.low ≤ i.middle) {place : Nat}
    (fine : i.middle + 10 ^ place < i.high) : (i.onGrid place).isSome = true := by
  -- The next decimal above the value is at most one step away from it.
  have inside : i.contains 1 (10 ^ place) (i.middle / 10 ^ place + 1) = true := by
    have parts := Nat.div_add_mod i.middle (10 ^ place)
    have rest := Nat.mod_lt i.middle (Nat.pow_pos (n := place) (show 0 < 10 by decide))
    have next : (i.middle / 10 ^ place + 1) * 10 ^ place =
        10 ^ place * (i.middle / 10 ^ place) + 10 ^ place := by ring
    exact contains_of_bounds whole (by omega) (by omega)
  have scale : Nat.pow 10 (-(place : Int)).toNat = 1 := by simp
  have grid : Nat.pow 10 (place : Int).toNat = 10 ^ place := by simp
  unfold onGrid
  simp only [scale, grid, whole, Nat.mul_one, inside]
  split <;> simp_all

end Interval

/-- **The search** stops on a grid that is no finer than one on which a decimal is found. -/
theorem search_of_isSome {place : Int} (hits : (i.onGrid place).isSome = true) (lead : Int)
    (fuel count : Nat) (ahead : place ≤ lead - count)
    (enough : lead - count < place + fuel) :
    ∃ k found : Nat, i.onGrid (place + k) = some found ∧
      search i lead fuel count = trim 20 found (place + k) := by
  induction fuel generalizing count with
  | zero => omega
  | succ fuel ih =>
    obtain ⟨k, here⟩ := Int.le.dest ahead
    rw [search, ← here]
    cases finds : i.onGrid (place + k) with
    | some found => exact ⟨k, found, finds, rfl⟩
    | none =>
      -- The grid on which a decimal is found is still to come.
      have other : k ≠ 0 := by
        rintro rfl
        rw [Int.natCast_zero, Int.add_zero] at finds
        rw [finds] at hits
        cases hits
      exact ih (count + 1) (by omega) (by omega)

/-- What the search finds in an interval of whole numbers is a whole number in it, with zeros at its
end. -/
theorem exists_search (whole : i.unit = 1) (below : i.low ≤ i.middle) (place : Nat)
    (fine : i.middle + 10 ^ place < i.high) (least : 10 ^ place ≤ i.middle)
    (most : i.middle < 10 ^ (place + 17)) :
    ∃ digits exponent : Nat,
      search i (leading i.middle i.unit) 17 0 = (digits, (exponent : Int)) ∧
        10 ^ place ∣ digits * 10 ^ exponent ∧
        i.low ≤ digits * 10 ^ exponent ∧ digits * 10 ^ exponent ≤ i.high := by
  have pos : 0 < 10 ^ place := Nat.pow_pos (by decide)
  have lead : leading i.middle i.unit = ((Nat.toDigits 10 i.middle).length : Int) - 1 := by
    rw [leading, whole, if_pos (by omega), Nat.div_one, digitCount]
  -- The search starts at the leading digit, and seventeen steps take it past the given place.
  have short : (Nat.toDigits 10 i.middle).length ≤ place + 17 :=
    (Nat.length_toDigits_le_iff (by decide) (Nat.succ_pos _)).mpr most
  have long : place < (Nat.toDigits 10 i.middle).length := by
    rcases Nat.eq_zero_or_pos place with rfl | some
    · exact Nat.length_toDigits_pos
    · by_contra few
      have less := (Nat.length_toDigits_le_iff (by decide) some).mp (Nat.not_lt.mp few)
      omega
  obtain ⟨k, found, finds, stops⟩ := search_of_isSome (Interval.isSome_onGrid whole below fine)
    (leading i.middle i.unit) 17 0 (by omega) (by omega)
  rw [← Int.natCast_add] at finds stops
  obtain ⟨j, raised, kept⟩ := exists_trim 20 found (place + k : Nat)
  have bounds := Interval.bounds_of_onGrid whole finds
  have value : (trim 20 found (place + k : Nat)).1 * 10 ^ (place + k + j) =
      found * 10 ^ (place + k) := by
    rw [Nat.add_comm (place + k), Nat.pow_add, ← Nat.mul_assoc, kept]
  refine ⟨(trim 20 found (place + k : Nat)).1, place + k + j, ?_, ?_, ?_, ?_⟩
  · rw [stops]
    exact Prod.ext rfl raised
  · rw [value, Nat.pow_add]
    exact ⟨found * 10 ^ k, by ring⟩
  · rw [value]
    exact bounds.1
  · rw [value]
    exact bounds.2

/-- The interval of a whole number that is even twice over. -/
theorem interval_whole (mantissa j : Nat) :
    (interval mantissa (j + 2 : Nat)).unit = 1 ∧
      (interval mantissa (j + 2 : Nat)).middle = mantissa * 2 ^ (j + 2) ∧
      (interval mantissa (j + 2 : Nat)).low ≤ mantissa * 2 ^ (j + 2) ∧
      mantissa * 2 ^ (j + 2) ≤ (interval mantissa (j + 2 : Nat)).low + 2 ^ (j + 1) ∧
      (interval mantissa (j + 2 : Nat)).high = mantissa * 2 ^ (j + 2) + 2 ^ (j + 1) := by
  have up : (((j + 2 : Nat) : Int) - 2).toNat = j := by omega
  have down : (2 - ((j + 2 : Nat) : Int)).toNat = 0 := by omega
  have fourfold : mantissa * 2 ^ (j + 2) = 4 * mantissa * 2 ^ j := by ring
  have double : 2 ^ (j + 1) = 2 * 2 ^ j := by ring
  refine ⟨?_, ?_, ?_, ?_, ?_⟩
  · show 2 ^ _ = 1
    rw [down, Nat.pow_zero]
  · show 4 * mantissa * 2 ^ _ = _
    rw [up, fourfold]
  · show (4 * mantissa - _) * 2 ^ _ ≤ _
    rw [up, fourfold]
    exact Nat.mul_le_mul_right _ (Nat.sub_le _ _)
  · show _ ≤ (4 * mantissa - _) * 2 ^ _ + _
    rw [up, Nat.sub_mul]
    split <;> omega
  · show (4 * mantissa + 2) * 2 ^ _ = _
    rw [up, fourfold, double, Nat.add_mul]

end Shortest

/-- The plain decimal of a positive value. -/
theorem DecimalStyle.text_plain {x : Float} (positive : Shortest.isNegative x = false)
    (number : x.isNaN = false) (finite : x.isInf = false) (some : (x == 0) = false) :
    plain.text x =
      plain.positionalText (Nat.toDigits 10 (Shortest.digits x).1) (Shortest.digits x).2 := by
  unfold text
  rw [positive, number, finite, some]
  simp [plain]

/-! ## Values -/

/-- **The exact value** of a binary64; none if it is not finite. -/
def Float.value? (x : Float) : Option ℚ :=
  if x.isNaN || x.isInf then none
  else some ((if Shortest.isNegative x then -1 else 1) * (Shortest.parts x).1 *
    2 ^ (Shortest.parts x).2)

namespace Normal

variable {x : Normal}

/-- Mantissa and exponent of a positive value are read back from its bits. -/
theorem parts_of_positive (positive : x.sign = .positive) :
    Shortest.isNegative x.toFloat = false ∧
      Shortest.parts x.toFloat = (x.mantissa, (x.exponent : Int) - 52) := by
  have bits := x.toNat_toBits
  have least := x.least
  have most := x.most
  have small := x.small
  have clear : x.sign.toBitVec.toNat = 0 := by rw [positive]; rfl
  rw [clear] at bits
  constructor
  · have below : x.toFloat.toBits.toNat / Nat.pow 2 63 = 0 := by
      show _ / 2 ^ 63 = 0
      omega
    rw [Shortest.isNegative, below]
    rfl
  · have field : x.toFloat.toBits.toNat / Nat.pow 2 52 % 2048 = x.exponent + 1023 := by
      show _ / 2 ^ 52 % 2048 = _
      omega
    have fraction : x.toFloat.toBits.toNat % Nat.pow 2 52 + Nat.pow 2 52 = x.mantissa := by
      show _ % 2 ^ 52 + 2 ^ 52 = _
      omega
    have exponent : Int.ofNat (x.exponent + 1023) - 1075 = x.exponent - 52 := by
      rw [Int.ofNat_eq_natCast]
      omega
    unfold Shortest.parts
    dsimp only
    rw [field, fraction, exponent, if_neg (Nat.succ_ne_zero _)]

theorem isInf_toFloat (x : Normal) : x.toFloat.isInf = false := by
  show (Float.Model.pack x.unpacked).unpack.isInf = false
  rw [x.unpack_pack]
  rfl

theorem toFloat_ne_zero (x : Normal) : (x.toFloat == 0) = false := by
  have zero : (0 : Float).toModel.unpack = .zero .positive := rfl
  show UnpackedFloat.beq (Float.Model.pack x.unpacked).unpack (0 : Float).toModel.unpack = false
  rw [x.unpack_pack, zero, UnpackedFloat.beq, unpacked]
  cases x.sign <;> rfl

/-- The exact value of a positive binary64. -/
theorem value?_toFloat (positive : x.sign = .positive) :
    Float.value? x.toFloat = some ((x.mantissa : ℚ) * 2 ^ ((x.exponent : Int) - 52)) := by
  obtain ⟨sign, parts⟩ := parts_of_positive positive
  rw [Float.value?, x.isNaN_toFloat, x.isInf_toFloat, sign, parts]
  simp

/-- **A large value** is written as a whole number with zeros at its end, which is half a unit away
from it at most. -/
theorem text_plain (positive : x.sign = .positive) {j : Nat} (large : x.exponent = 54 + j)
    (place : Nat) (fine : 10 ^ place < 2 ^ (j + 1))
    (most : x.mantissa * 2 ^ (j + 2) < 10 ^ (place + 17)) :
    ∃ written, DecimalStyle.plain.text x.toFloat = toString written ∧ 10 ^ place ∣ written ∧
      written ≤ x.mantissa * 2 ^ (j + 2) + 2 ^ (j + 1) ∧
      x.mantissa * 2 ^ (j + 2) ≤ written + 2 ^ (j + 1) := by
  obtain ⟨sign, parts⟩ := parts_of_positive positive
  have exponent : (x.exponent : Int) - 52 = (j + 2 : Nat) := by omega
  obtain ⟨whole, middle, below, low, high⟩ := Shortest.interval_whole x.mantissa j
  -- The value has more bits than half a unit.
  have least := x.least
  have above : 2 ^ (j + 1) < x.mantissa * 2 ^ (j + 2) := by
    calc 2 ^ (j + 1)
      _ < 1 * 2 ^ (j + 2) := by rw [Nat.one_mul]; exact Nat.pow_lt_pow_right (by decide) (by omega)
      _ ≤ x.mantissa * 2 ^ (j + 2) := Nat.mul_le_mul_right _ (by omega)
  obtain ⟨digits, power, found, zeros, lower, upper⟩ :=
    Shortest.exists_search whole (by omega) place (by omega) (by omega) (by omega)
  have found : Shortest.digits x.toFloat = (digits, (power : Int)) := by
    unfold Shortest.digits
    rw [parts, exponent]
    exact found
  have some : 0 < digits := by
    rcases Nat.eq_zero_or_pos digits with rfl | pos
    · omega
    · exact pos
  refine ⟨digits * 10 ^ power, ?_, zeros, by omega, by omega⟩
  rw [DecimalStyle.text_plain sign x.isNaN_toFloat x.isInf_toFloat x.toFloat_ne_zero, found,
    DecimalStyle.positionalText_plain some]

end Normal

end Warden
