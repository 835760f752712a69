import Warden.Number.Shortest
import Warden.Proofs.Rounding
/-! # Mantissas and exponents
A finite binary64 other than zero is a mantissa times a power of two, under a sign. Of the many ways
to write it so, one is **canonical** (`Canonical`): the mantissa has 53 bits, or fewer at the
smallest exponent. It can be read off the bits (`Canonical.toNat_toBits`), and it is what
`Shortest.parts` reads (`Canonical.zero_or_exists`). -/

namespace Warden

open Float.Model (UnpackedFloat Format)
open Float.Model.UnpackedFloat (Sign)

/-- The **canonical** mantissa and exponent of a finite binary64 other than zero. -/
structure Canonical where
  /-- The mantissa. -/
  mantissa : Nat
  /-- The exponent. -/
  exponent : Int
  /-- The value is not zero. -/
  pos : 0 < mantissa
  /-- There are 53 bits at most. -/
  short : mantissa < 2 ^ 53
  /-- The smallest exponent. -/
  least : -1074 ≤ exponent
  /-- The largest exponent. -/
  most : exponent ≤ 971
  /-- There are fewer bits at the smallest exponent only. -/
  full : exponent ≠ -1074 → 2 ^ 52 ≤ mantissa

namespace Canonical

variable {c : Canonical} {sign : Sign}

/-- The components of the value under a sign. -/
def unpacked (c : Canonical) (sign : Sign) : UnpackedFloat :=
  .finite sign c.mantissa c.exponent c.pos

/-- The value under a sign. -/
def toFloat (c : Canonical) (sign : Sign) : Float := .ofModel (Float.Model.pack (c.unpacked sign))

/-! ## Packing -/

/-- A mantissa of 53 bits loses its leading bit. -/
theorem pack_of_full (c : Canonical) (sign : Sign) (full : 2 ^ 52 ≤ c.mantissa) :
    UnpackedFloat.pack Format.binary64 (c.unpacked sign) =
      UnpackedFloat.packComponents Format.binary64 sign
        (BitVec.ofNat 11 (c.exponent + 1075).toNat) (BitVec.ofNat 52 c.mantissa) := by
  have log : c.mantissa.log2 = 52 := (Nat.log2_eq_iff c.pos.ne').mpr ⟨full, c.short⟩
  have least := c.least
  have most := c.most
  have biased : (c.exponent + Format.binary64.exponentBias + (52 : Nat)).toNat =
      (c.exponent + 1075).toNat := by
    have bias : Format.binary64.exponentBias = 1023 := rfl
    rw [bias]
    omega
  have fits : ¬ 2 ^ 11 ≤ (c.exponent + 1075).toNat + 1 := by omega
  have bits : c.mantissa.log2 + 1 = Format.binary64.mantissaBits := by rw [log]; rfl
  unfold unpacked UnpackedFloat.pack
  dsimp only
  rw [biased, if_neg fits, if_pos bits]

/-- A shorter one is kept as it is, below the smallest exponent. -/
theorem pack_of_subnormal (c : Canonical) (sign : Sign) (few : c.mantissa < 2 ^ 52) :
    UnpackedFloat.pack Format.binary64 (c.unpacked sign) =
      UnpackedFloat.packComponents Format.binary64 sign 0#11 (BitVec.ofNat 52 c.mantissa) := by
  have smallest : c.exponent = -1074 := by
    by_contra larger
    have := c.full larger
    omega
  have log : c.mantissa.log2 < 52 := (Nat.log2_lt c.pos.ne').mpr few
  have biased : (c.exponent + Format.binary64.exponentBias + (52 : Nat)).toNat = 1 := by
    rw [smallest]
    rfl
  have bits : ¬ c.mantissa.log2 + 1 = Format.binary64.mantissaBits := by
    show ¬ c.mantissa.log2 + 1 = 53
    omega
  unfold unpacked UnpackedFloat.pack
  dsimp only
  rw [biased, if_neg (by decide), if_neg bits]

/-- **The bits** of a value: its sign, and its place among the values of that sign. -/
theorem toNat_toBits (c : Canonical) (sign : Sign) :
    (c.toFloat sign).toBits.toNat =
      sign.toBitVec.toNat * 2 ^ 63 + (c.exponent + 1074).toNat * 2 ^ 52 + c.mantissa := by
  show (UnpackedFloat.pack Format.binary64 (c.unpacked sign)).toNat = _
  have least := c.least
  have most := c.most
  have short := c.short
  rcases Nat.lt_or_ge c.mantissa (2 ^ 52) with few | full
  · have smallest : c.exponent = -1074 := by
      by_contra larger
      have := c.full larger
      omega
    rw [c.pack_of_subnormal sign few, toNat_packComponents, BitVec.toNat_ofNat, BitVec.toNat_ofNat,
      smallest]
    omega
  · rw [c.pack_of_full sign full, toNat_packComponents, BitVec.toNat_ofNat, BitVec.toNat_ofNat]
    omega

/-- Components with the exponent that marks a subnormal value are read back, unless they are those
of zero. -/
theorem unpack_packComponents_zero {mantissa : BitVec 52} (some : mantissa ≠ 0#52) :
    UnpackedFloat.unpack Format.binary64
        (UnpackedFloat.packComponents Format.binary64 sign 0#11 mantissa) =
      .finite sign mantissa.toNat (-1074)
        (by simpa [BitVec.toNat_pos, BitVec.pos_iff_ne_zero] using some) := by
  have signs : Sign.ofBitVec sign.toBitVec = sign := by cases sign <;> rfl
  have finite : (0#11 : BitVec Format.binary64.exponentBits) ≠ -1#_ := by decide
  unfold UnpackedFloat.unpack
  dsimp only
  rw [UnpackedFloat.unpackExponent_packComponents, if_neg finite, if_pos rfl]
  simp only [UnpackedFloat.unpackMantissa_packComponents, unpackSign_packComponents, signs]
  exact dif_neg some

/-- Values are **read back** from their bits. -/
theorem unpack_toFloat (c : Canonical) (sign : Sign) :
    (c.toFloat sign).toModel.unpack = c.unpacked sign := by
  show UnpackedFloat.unpack Format.binary64
    (UnpackedFloat.pack Format.binary64 (c.unpacked sign)) = _
  have pos := c.pos
  have least := c.least
  have most := c.most
  have short := c.short
  rcases Nat.lt_or_ge c.mantissa (2 ^ 52) with few | full
  · have smallest : c.exponent = -1074 := by
      by_contra larger
      have := c.full larger
      omega
    have bits : (BitVec.ofNat 52 c.mantissa).toNat = c.mantissa := by
      rw [BitVec.toNat_ofNat]
      omega
    have some : BitVec.ofNat 52 c.mantissa ≠ 0#52 := by
      intro zero
      rw [zero] at bits
      exact pos.ne bits
    rw [c.pack_of_subnormal sign few, unpack_packComponents_zero some, unpacked]
    simp only [bits, smallest]
  · have finite : BitVec.ofNat 11 (c.exponent + 1075).toNat ≠ -1#11 :=
      ofNat_ne (c := 2047) (by omega) (by decide) (by omega)
    have normal : BitVec.ofNat 11 (c.exponent + 1075).toNat ≠ 0#11 :=
      ofNat_ne (c := 0) (by omega) (by decide) (by omega)
    have mantissa : (1#1 ++ BitVec.ofNat 52 c.mantissa).toNat = c.mantissa := by
      rw [BitVec.toNat_append, ← Nat.shiftLeft_add_eq_or_of_lt (BitVec.ofNat 52 c.mantissa).isLt,
        Nat.shiftLeft_eq, BitVec.toNat_ofNat, BitVec.toNat_ofNat]
      omega
    have exponent : ((BitVec.ofNat 11 (c.exponent + 1075).toNat).toNat : Int) -
        (Format.binary64.exponentBias + Format.binary64.mantissaBitsWithoutImplicit) =
        c.exponent := by
      have bias : (Format.binary64.exponentBias + Format.binary64.mantissaBitsWithoutImplicit : Int)
        = 1075 := rfl
      rw [bias, BitVec.toNat_ofNat]
      omega
    rw [c.pack_of_full sign full, unpack_packComponents finite normal, unpacked]
    simp only [mantissa, exponent]

/-- A value of the other sign is the negative. -/
theorem neg_toFloat (c : Canonical) : -(c.toFloat .positive) = c.toFloat .negative := by
  show Float.ofModel (Float.Model.pack (c.toFloat .positive).toModel.unpack.neg) = _
  rw [c.unpack_toFloat]
  rfl

/-! ## Reading bits -/

/-- Values with the same bits are the same. -/
theorem eq_of_toNat_toBits {x y : Float} (same : x.toBits.toNat = y.toBits.toNat) : x = y := by
  obtain ⟨⟨bits, valid⟩⟩ := x
  obtain ⟨⟨others, validToo⟩⟩ := y
  cases UInt64.toNat_inj.mp same
  rfl

/-- `Shortest.parts` reads the canonical mantissa and exponent. -/
theorem parts_toFloat (c : Canonical) (sign : Sign) :
    Shortest.parts (c.toFloat sign) = (c.mantissa, c.exponent) := by
  have bits := c.toNat_toBits sign
  have pos := c.pos
  have least := c.least
  have most := c.most
  have short := c.short
  have signs : sign.toBitVec.toNat < 2 := sign.toBitVec.isLt
  unfold Shortest.parts
  dsimp only
  rcases Nat.lt_or_ge c.mantissa (2 ^ 52) with few | full
  · have smallest : c.exponent = -1074 := by
      by_contra larger
      have := c.full larger
      omega
    have field : (c.toFloat sign).toBits.toNat / Nat.pow 2 52 % 2048 = 0 := by
      show _ / 2 ^ 52 % 2048 = 0
      omega
    have fraction : (c.toFloat sign).toBits.toNat % Nat.pow 2 52 = c.mantissa := by
      show _ % 2 ^ 52 = _
      omega
    rw [if_pos field, fraction, smallest]
  · have field : (c.toFloat sign).toBits.toNat / Nat.pow 2 52 % 2048 =
        (c.exponent + 1075).toNat := by
      show _ / 2 ^ 52 % 2048 = _
      omega
    have fraction : (c.toFloat sign).toBits.toNat % Nat.pow 2 52 + Nat.pow 2 52 = c.mantissa := by
      show _ % 2 ^ 52 + 2 ^ 52 = _
      omega
    rw [field, if_neg (by omega), fraction, Int.ofNat_eq_natCast]
    exact Prod.ext rfl (by dsimp only; omega)

/-- Whether the sign bit is set. -/
theorem isNegative_toFloat (c : Canonical) (sign : Sign) :
    Shortest.isNegative (c.toFloat sign) = (sign == .negative) := by
  have bits := c.toNat_toBits sign
  have least := c.least
  have most := c.most
  have short := c.short
  cases sign with
  | negative =>
    have set : (c.toFloat .negative).toBits.toNat / Nat.pow 2 63 = 1 := by
      have one : (Sign.toBitVec .negative).toNat = 1 := rfl
      rw [one] at bits
      show _ / 2 ^ 63 = 1
      omega
    rw [Shortest.isNegative, set]
    rfl
  | positive =>
    have clear : (c.toFloat .positive).toBits.toNat / Nat.pow 2 63 = 0 := by
      have zero : (Sign.toBitVec .positive).toNat = 0 := rfl
      rw [zero] at bits
      show _ / 2 ^ 63 = 0
      omega
    rw [Shortest.isNegative, clear]
    rfl

/-- The exponent of a finite value is not the one that has all bits set. -/
theorem field_ne_of_isFinite {x : Float} (finite : x.isFinite = true) :
    x.toBits.toNat / 2 ^ 52 % 2048 ≠ 2047 := by
  intro all
  have word : x.toBits.toNat < 2 ^ 64 := x.toBits.toNat_lt
  -- The bits are those of some components, among them an exponent that marks no finite value.
  obtain ⟨sign, signs⟩ : ∃ sign : Sign, sign.toBitVec.toNat = x.toBits.toNat / 2 ^ 63 := by
    rcases (by omega : x.toBits.toNat / 2 ^ 63 = 0 ∨ x.toBits.toNat / 2 ^ 63 = 1) with zero | one
    · exact ⟨.positive, zero.symm⟩
    · exact ⟨.negative, one.symm⟩
  have components : x.toBits.toBitVec = UnpackedFloat.packComponents Format.binary64 sign
      (-1#11) (BitVec.ofNat 52 x.toBits.toNat) := by
    refine BitVec.eq_of_toNat_eq ?_
    have ones : (-1#11 : BitVec 11).toNat = 2047 := rfl
    rw [toNat_packComponents, signs, BitVec.toNat_ofNat, ones]
    show x.toBits.toNat = _
    omega
  have unpacked : x.toModel.unpack.isFinite = true := finite
  rw [show x.toModel.unpack = UnpackedFloat.unpack Format.binary64 x.toBits.toBitVec from rfl,
    components, UnpackedFloat.unpack] at unpacked
  dsimp only at unpacked
  rw [UnpackedFloat.unpackExponent_packComponents, if_pos rfl] at unpacked
  split at unpacked <;> cases unpacked

theorem isNaN_toFloat (c : Canonical) (sign : Sign) : (c.toFloat sign).isNaN = false := by
  show (c.toFloat sign).toModel.unpack.isNaN = false
  rw [c.unpack_toFloat sign]
  rfl

theorem isInf_toFloat (c : Canonical) (sign : Sign) : (c.toFloat sign).isInf = false := by
  show (c.toFloat sign).toModel.unpack.isInf = false
  rw [c.unpack_toFloat sign]
  rfl

theorem toFloat_ne_zero (c : Canonical) (sign : Sign) : (c.toFloat sign == 0) = false := by
  have zero : (0 : Float).toModel.unpack = .zero .positive := rfl
  show UnpackedFloat.beq (c.toFloat sign).toModel.unpack (0 : Float).toModel.unpack = false
  rw [c.unpack_toFloat sign, zero, UnpackedFloat.beq, unpacked]
  cases sign <;> rfl

/-- **Every finite value** is one of the two zeros or has a canonical mantissa and exponent. -/
theorem zero_or_exists {x : Float} (finite : x.isFinite = true) :
    x = 0 ∨ x = -0 ∨ ∃ c sign, x = toFloat c sign := by
  have word : x.toBits.toNat < 2 ^ 64 := x.toBits.toNat_lt
  have field := field_ne_of_isFinite finite
  obtain ⟨sign, signs⟩ : ∃ sign : Sign, sign.toBitVec.toNat = x.toBits.toNat / 2 ^ 63 := by
    rcases (by omega : x.toBits.toNat / 2 ^ 63 = 0 ∨ x.toBits.toNat / 2 ^ 63 = 1) with zero | one
    · exact ⟨.positive, zero.symm⟩
    · exact ⟨.negative, one.symm⟩
  -- What is left without the sign is the place of the value.
  rcases Nat.eq_zero_or_pos (x.toBits.toNat % 2 ^ 63) with zero | rank
  · rcases (by omega : x.toBits.toNat = 0 ∨ x.toBits.toNat = 2 ^ 63) with plus | minus
    · exact .inl (eq_of_toNat_toBits plus)
    · exact .inr (.inl (eq_of_toNat_toBits minus))
  · refine .inr (.inr ?_)
    by_cases subnormal : x.toBits.toNat % 2 ^ 63 < 2 ^ 52
    · refine ⟨⟨x.toBits.toNat % 2 ^ 63, -1074, rank, by omega, le_refl _, by decide,
        fun other => absurd rfl other⟩, sign, eq_of_toNat_toBits ?_⟩
      rw [toNat_toBits, signs]
      dsimp only
      omega
    · refine ⟨⟨x.toBits.toNat % 2 ^ 52 + 2 ^ 52, (x.toBits.toNat / 2 ^ 52 % 2048 : Nat) - 1075,
        by omega, by omega, by omega, by omega, fun _ => Nat.le_add_left _ _⟩, sign,
        eq_of_toNat_toBits ?_⟩
      rw [toNat_toBits, signs]
      dsimp only
      omega

end Canonical

end Warden
