/-! # Digits of a base
Numerals in a base up to sixteen, as escapes and integers of documents and expressions use them.
Digits beyond nine are letters of either case. -/

namespace Warden

namespace Digits

/-- The value of a digit. -/
def value? (base : Nat) (c : Char) : Option Nat :=
  let value :=
    if c.isDigit then some (c.toNat - '0'.toNat)
    else if 'a' ≤ c ∧ c ≤ 'f' then some (c.toNat - 'a'.toNat + 10)
    else if 'A' ≤ c ∧ c ≤ 'F' then some (c.toNat - 'A'.toNat + 10)
    else none
  value.filter (· < base)

/-- The number that digits denote; no digits denote zero. -/
def number? (base : Nat) (digits : List Char) : Option Nat :=
  digits.foldlM (fun n c => (value? base c).map (base * n + ·)) 0

/-- The character of a code point; surrogates are no characters. -/
def character? (n : Nat) : Option Char :=
  if n < 0xD800 ∨ (0xDFFF < n ∧ n ≤ 0x10FFFF) then some (Char.ofNat n) else none

/-- A digit is read back as the value it was written for. -/
theorem value?_digitChar {d : Nat} (h : d < 16) : value? 16 (Nat.digitChar d) = some d := by
  have all : ∀ e ∈ List.range 16, value? 16 (Nat.digitChar e) = some e := by decide
  exact all d (List.mem_range.mpr h)

/-- One more digit behind others is worth itself, and the others the base as much. -/
theorem number?_append_singleton (base : Nat) (digits : List Char) (c : Char) :
    number? base (digits ++ [c])
      = (number? base digits).bind fun n => (value? base c).map (base * n + ·) := by
  simp [number?, List.foldlM_append]

/-- The character of a code point has that code point. -/
theorem character?_toNat (c : Char) : character? c.toNat = some c := by
  have valid : c.toNat < 0xD800 ∨ (0xDFFF < c.toNat ∧ c.toNat < 0x110000) := c.valid
  have : c.toNat < 0xD800 ∨ (0xDFFF < c.toNat ∧ c.toNat ≤ 0x10FFFF) := by omega
  simp [character?, this]

end Digits

end Warden
