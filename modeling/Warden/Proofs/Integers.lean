import Mathlib
import Warden.Constraint
import Warden.Proofs.Equality
import Warden.Proofs.Nearest
import Warden.Proofs.Run
/-! # Comparing integers
Documents hold integers between `-2 ^ 63` and `2 ^ 64 - 1` (`Integer`). Two of them are compared
exactly if both are signed words, and otherwise as the binary64 values nearest to them
(`Integer.order`). Beyond the words that order is coarser than that of the integers: it never turns
two of them round (`Integer.order_ne_gt`) and tells them apart if they are more than `2 ^ 11` apart
(`Integer.order_eq_compare_of_far`), but neighbours are found equal
(`Integer.order_confuses_neighbours`).

The order decides which integers a literal and a range let through
(`Integer.constraints_follow_order`). -/

namespace Warden

/-- An integer that documents can hold. -/
structure Integer where
  /-- The integer. -/
  value : Int
  /-- It is no smaller than the signed words. -/
  least : minWord ≤ value
  /-- It is no larger than the unsigned words. -/
  most : value ≤ maxUnsigned

namespace Integer

/-- The integer as a value. -/
def toValue (n : Integer) : Value := .int n.value

/-- Whether the integer is a signed word. -/
def IsWord (n : Integer) : Prop := n.value ≤ maxWord

instance (n : Integer) : Decidable n.IsWord := inferInstanceAs (Decidable (n.value ≤ maxWord))

/-- The binary64 nearest to the integer. -/
def rounded (n : Integer) : Int := Number.rounded n.value

/-- **The order** in which integers are seen. -/
def order (a b : Integer) : Ordering :=
  if a.IsWord ∧ b.IsWord then compare a.value b.value else compare a.rounded b.rounded

theorem order_of_words {a b : Integer} (left : a.IsWord) (right : b.IsWord) :
    a.order b = compare a.value b.value := if_pos ⟨left, right⟩

/-- A signed word is known as one. -/
theorem word?_value (n : Integer) :
    (Number.int n.value).word? = if n.IsWord then some n.value else none := by
  have within : (minWord ≤ n.value ∧ n.value ≤ maxWord) ↔ n.IsWord := and_iff_right n.least
  rw [Number.word?]
  simp only [within]

/-- Values that are integers are compared in this order. -/
theorem compare?_toValue (a b : Integer) : a.toValue.compare? b.toValue = some (a.order b) := by
  have nearest := Number.compare?_toFloat ⟨a.least, a.most⟩ ⟨b.least, b.most⟩
  show (Number.int a.value).compare? (.int b.value) = _
  rw [Number.compare?, word?_value, word?_value, order]
  by_cases left : a.IsWord <;> by_cases right : b.IsWord <;> simp [left, right] <;> exact nearest

/-- They are equal if this order says so. -/
theorem equal_toValue (a b : Integer) :
    a.toValue.equal b.toValue = decide (a.order b = .eq) := by
  show (a.toValue.compare? b.toValue == some .eq) = _
  rw [compare?_toValue, Bool.eq_iff_iff]
  simp

/-! ## How exact the order is -/

theorem rounded_mono {a b : Integer} (le : a.value ≤ b.value) : a.rounded ≤ b.rounded :=
  Number.rounded_mono a.least le b.most

/-- **No two integers are turned round.** -/
theorem order_ne_gt {a b : Integer} (le : a.value ≤ b.value) : a.order b ≠ .gt := by
  unfold order
  split
  · exact compare_le_iff_le.mpr le
  · exact compare_le_iff_le.mpr (rounded_mono le)

theorem order_swap (a b : Integer) : (a.order b).swap = b.order a := by
  simp only [order, @and_comm b.IsWord]
  split <;> exact Int.compare_swap _ _

theorem order_self (a : Integer) : a.order a = .eq := by
  unfold order
  split <;> exact compare_eq_iff_eq.mpr rfl

/-- **Integers that are far apart are told apart.** -/
theorem order_eq_compare_of_far {a b : Integer} (far : 2 ^ 11 < |a.value - b.value|) :
    a.order b = compare a.value b.value := by
  have left := abs_le.mp (Number.rounded_near ⟨a.least, a.most⟩)
  have right := abs_le.mp (Number.rounded_near ⟨b.least, b.most⟩)
  have apart := lt_abs.mp far
  unfold order
  split
  · rfl
  · unfold rounded
    exact Number.compare_congr (by omega) (by omega)

/-- **Equality passes on** from one integer to the next, except from a word to another by way of an
integer that is none. -/
theorem order_eq_trans {a b c : Integer} (first : a.order b = .eq) (second : b.order c = .eq)
    (foreign : ¬ (a.IsWord ∧ c.IsWord) ∨ b.IsWord) : a.order c = .eq := by
  -- Equal integers round to one binary64, whichever way they are compared.
  have same {m n : Integer} (equal : m.order n = .eq) : m.rounded = n.rounded := by
    unfold order at equal
    split at equal
    · rw [rounded, compare_eq_iff_eq.mp equal, rounded]
    · exact compare_eq_iff_eq.mp equal
  have all : a.rounded = c.rounded := (same first).trans (same second)
  by_cases words : a.IsWord ∧ c.IsWord
  · have middle : b.IsWord := foreign.resolve_left (not_not.mpr words)
    rw [order_of_words words.1 middle, compare_eq_iff_eq] at first
    rw [order_of_words middle words.2, compare_eq_iff_eq] at second
    rw [order_of_words words.1 words.2, compare_eq_iff_eq, first, second]
  · rw [order, if_neg words, compare_eq_iff_eq]
    exact all

end Integer

/-! ## Bounds and ranges -/

/-- One end of a range of integers. -/
inductive IntegerBound where
  /-- No limit. -/
  | unbounded
  /-- A limit that belongs to the range. -/
  | included (limit : Integer)
  /-- A limit that does not belong to the range. -/
  | excluded (limit : Integer)

namespace IntegerBound

/-- The bound as one of values. -/
def toBound : IntegerBound → Bound
  | .unbounded => .unbounded
  | .included limit => .included limit.toValue
  | .excluded limit => .excluded limit.toValue

/-- Whether the bound lies below an integer, which it does not keep out. -/
def Below : IntegerBound → Integer → Prop
  | .unbounded, _ => True
  | .included limit, n => limit.order n ≠ .gt
  | .excluded limit, n => limit.order n = .lt

/-- Whether the bound lies above an integer, which it does not keep out. -/
def Above : IntegerBound → Integer → Prop
  | .unbounded, _ => True
  | .included limit, n => n.order limit ≠ .gt
  | .excluded limit, n => n.order limit = .lt

theorem admitsAbove_toBound (bound : IntegerBound) (n : Integer) :
    bound.toBound.admitsAbove n.toValue = true ↔ bound.Below n := by
  cases bound with
  | unbounded => exact iff_of_true rfl trivial
  | included limit =>
    simp only [toBound, Bound.admitsAbove, Integer.compare?_toValue, Below]
    cases limit.order n <;> decide
  | excluded limit =>
    simp only [toBound, Bound.admitsAbove, Integer.compare?_toValue, Below]
    cases limit.order n <;> decide

theorem admitsBelow_toBound (bound : IntegerBound) (n : Integer) :
    bound.toBound.admitsBelow n.toValue = true ↔ bound.Above n := by
  cases bound with
  | unbounded => exact iff_of_true rfl trivial
  | included limit =>
    simp only [toBound, Bound.admitsBelow, Integer.compare?_toValue, Above]
    cases n.order limit <;> decide
  | excluded limit =>
    simp only [toBound, Bound.admitsBelow, Integer.compare?_toValue, Above]
    cases n.order limit <;> decide

/-- A range of integers contains those above the one bound and below the other. -/
theorem contains_toBound (lower upper : IntegerBound) (n : Integer) :
    ValueRange.contains ⟨lower.toBound, upper.toBound⟩ n.toValue = true ↔
      lower.Below n ∧ upper.Above n := by
  have rangeable : n.toValue.isRangeable = true := rfl
  rw [ValueRange.contains, rangeable, Bool.and_true, Bool.and_eq_true, admitsAbove_toBound,
    admitsBelow_toBound]

end IntegerBound

namespace Integer

/-- **Integers** are compared, found equal, and let through by literals and ranges according to one
order. It is the mathematical order of words and of integers that are far apart, and never turns two
integers round. Equality is reflexive and symmetric, and passes on from integer to integer except
from a word to another by way of an integer that is none. -/
theorem constraints_follow_order (a b c : Integer) (lower upper : IntegerBound) :
    a.toValue.compare? b.toValue = some (a.order b) ∧
      (a.toValue.equal b.toValue = true ↔ a.order b = .eq) ∧
      (∀ trust, ((Constraint.literal a.toValue).check b.toValue).startFrom trust =
        (.ok (decide (a.order b = .eq)), trust)) ∧
      (∀ trust, ∃ passed,
        ((Constraint.range ⟨lower.toBound, upper.toBound⟩).check a.toValue).startFrom trust =
            (.ok passed, trust) ∧
          (passed = true ↔ lower.Below a ∧ upper.Above a)) ∧
      (a.IsWord ∧ b.IsWord ∨ 2 ^ 11 < |a.value - b.value| →
        a.order b = compare a.value b.value) ∧
      (a.value ≤ b.value → a.order b ≠ .gt) ∧
      a.toValue.equal a.toValue = true ∧ b.toValue.equal a.toValue = a.toValue.equal b.toValue ∧
      (a.toValue.equal b.toValue = true → b.toValue.equal c.toValue = true →
        ¬ (a.IsWord ∧ c.IsWord) ∨ b.IsWord → a.toValue.equal c.toValue = true) := by
  have equal (m n : Integer) : m.toValue.equal n.toValue = true ↔ m.order n = .eq := by
    rw [equal_toValue, decide_eq_true_eq]
  refine ⟨compare?_toValue a b, equal a b, ?_, ?_, ?_, order_ne_gt, ?_, ?_, ?_⟩
  · intro trust
    show (pure _ : Run Bool).startFrom trust = _
    rw [Run.startFrom_pure, equal_toValue]
  · intro trust
    refine ⟨_, Run.startFrom_pure _ _, ?_⟩
    exact IntegerBound.contains_toBound lower upper a
  · rintro (⟨left, right⟩ | far)
    · exact order_of_words left right
    · exact order_eq_compare_of_far far
  · exact (equal a a).mpr (order_self a)
  · exact Value.equal_comm _ _
  · intro first second foreign
    rw [equal] at first second ⊢
    exact order_eq_trans first second foreign

/-- The largest signed word. -/
def largestWord : Integer := ⟨9223372036854775807, by decide, by decide⟩

/-- The integer after it. -/
def firstForeign : Integer := ⟨9223372036854775808, by decide, by decide⟩

/-- The integer after that. -/
def secondForeign : Integer := ⟨9223372036854775809, by decide, by decide⟩

/-- The largest integer of a document, which is far from the words. -/
def largest : Integer := ⟨18446744073709551615, by decide, by decide⟩

theorem constraints_follow_order_far :
    largestWord.order largest = .lt ∧ largest.order firstForeign ≠ .lt ∧
      secondForeign.toValue.equal largestWord.toValue = true := by
  obtain ⟨-, -, -, -, far, -, -, -, -⟩ :=
    constraints_follow_order largestWord largest largest .unbounded .unbounded
  obtain ⟨-, -, -, -, farToo, -, -, -, -⟩ :=
    constraints_follow_order largest firstForeign largest .unbounded .unbounded
  obtain ⟨-, -, -, -, -, -, -, -, passes⟩ :=
    constraints_follow_order secondForeign firstForeign largestWord .unbounded .unbounded
  refine ⟨(far (.inr (by decide))).trans (by decide), ?_, ?_⟩
  · rw [farToo (.inr (by decide))]
    decide
  · exact passes (by decide +kernel) (by decide +kernel) (.inl (by decide))

/-- The signed word before the largest. -/
def formerWord : Integer := ⟨9223372036854775806, by decide, by decide⟩

/-- **Neighbours are confused.** The first integer after the signed words is found equal to the next
one, and a literal and a range that end with it let the next one through. It is also found equal to
each of the two largest words, which are different. -/
theorem order_confuses_neighbours :
    firstForeign.value < secondForeign.value ∧
      firstForeign.toValue.compare? secondForeign.toValue = some .eq ∧
      ((Constraint.literal firstForeign.toValue).check secondForeign.toValue).startFrom {} =
        (.ok true, {}) ∧
      ((Constraint.range (.atMost firstForeign.toValue)).check
        secondForeign.toValue).startFrom {} = (.ok true, {}) ∧
      formerWord.toValue.equal firstForeign.toValue = true ∧
      firstForeign.toValue.equal largestWord.toValue = true ∧
      formerWord.toValue.equal largestWord.toValue = false := by
  have confused : firstForeign.toValue.compare? secondForeign.toValue = some .eq := by
    decide +kernel
  refine ⟨by decide, confused, ?_, ?_, by decide +kernel, by decide +kernel, by decide +kernel⟩
  · show (pure (firstForeign.toValue.compare? secondForeign.toValue == some .eq) :
      Run Bool).startFrom {} = _
    rw [confused]
    rfl
  · have swapped : secondForeign.toValue.compare? firstForeign.toValue = some .eq := by
      decide +kernel
    have contained :
        (ValueRange.atMost firstForeign.toValue).contains secondForeign.toValue = true := by
      simp only [ValueRange.contains, ValueRange.atMost, Bound.admitsAbove, Bound.admitsBelow,
        swapped]
      rfl
    show (pure (ValueRange.contains _ _) : Run Bool).startFrom {} = _
    rw [contained]
    rfl

end Integer

end Warden
