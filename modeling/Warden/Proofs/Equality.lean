import Warden.Value
/-! # Equality of values
Both equalities of values look the same from either side: that of structure (`Value.same_comm`) and
that across the kinds of numbers (`Value.equal_comm`). They come down to numbers, which are compared
by their places in one order (`Number.compare?_swap`).

Numbers of different kinds may be equal without being the same, and binary64 values come so close to
one another that equality of values does not pass from one to the next. Among **integral** values,
whose numbers are all signed words, being equal is being the same (`Value.eq_of_equal`). -/

namespace Warden

/-- The other side sees the order of two binary64 values the other way round. -/
theorem Float.compare?_swap (x y : Float) :
    (Float.compare? x y).map Ordering.swap = Float.compare? y x := by
  rw [Float.compare?, Float.compare?, Bool.or_comm]
  split
  · rfl
  · exact congrArg some (Int.compare_swap _ _)

/-- The other side sees the order of two numbers the other way round. -/
theorem Number.compare?_swap (a b : Number) :
    (a.compare? b).map Ordering.swap = b.compare? a := by
  rw [compare?, compare?]
  cases a.word? with
  | none => cases b.word? <;> exact Float.compare?_swap _ _
  | some m =>
    cases b.word? with
    | none => exact Float.compare?_swap _ _
    | some n => exact congrArg some (Int.compare_swap m n)

/-- Whether two things are equal does not depend on the side from which they are ordered. -/
theorem beq_eq_swap (order : Option Ordering) :
    (order.map Ordering.swap == some .eq) = (order == some .eq) := by
  rcases order with _ | _ | _ | _ <;> rfl

/-- Equality of numbers of one kind looks the same from either side. -/
theorem Number.same_comm (a b : Number) : a.same b = b.same a := by
  cases a with
  | int m =>
    cases b with
    | int n => exact Bool.beq_comm
    | float y => rfl
  | float x =>
    cases b with
    | int n => rfl
    | float y => rw [same, same, ← Float.compare?_swap, beq_eq_swap]

/-- A number that is a signed word is that integer. -/
theorem Number.eq_int {number : Number} {word : Int} (isWord : number.word? = some word) :
    number = .int word := by
  cases number with
  | int n =>
    rw [word?] at isWord
    split at isWord
    · cases isWord
      rfl
    · cases isWord
  | float x => cases isWord

/-- Signed words that are compared as equal are the same. -/
theorem Number.eq_of_compare? {a b : Number} (left : a.word?.isSome = true)
    (right : b.word?.isSome = true) (equal : (a.compare? b == some .eq) = true) : a = b := by
  obtain ⟨m, isWord⟩ := Option.isSome_iff_exists.mp left
  obtain ⟨n, isOther⟩ := Option.isSome_iff_exists.mp right
  rw [compare?, isWord, isOther] at equal
  have same : m = n := Std.LawfulEqCmp.eq_of_compare (Option.some.inj (beq_iff_eq.mp equal))
  rw [Number.eq_int isWord, Number.eq_int isOther, same]

/-- Signed words of one kind and value are the same. -/
theorem Number.eq_of_same {a b : Number} (left : a.word?.isSome = true)
    (right : b.word?.isSome = true) (same : a.same b = true) : a = b := by
  obtain ⟨m, isWord⟩ := Option.isSome_iff_exists.mp left
  obtain ⟨n, isOther⟩ := Option.isSome_iff_exists.mp right
  rw [Number.eq_int isWord, Number.eq_int isOther] at same ⊢
  exact congrArg Number.int (beq_iff_eq.mp same)

namespace Value

mutual

/-- **Equality of structure** looks the same from either side. -/
theorem same_comm : ∀ a b : Value, a.same b = b.same a
  | .null, b => by cases b <;> rfl
  | .bool x, b => by
    cases b with
    | bool y => exact Bool.beq_comm
    | _ => rfl
  | .number m, b => by
    cases b with
    | number n => exact m.same_comm n
    | _ => rfl
  | .string x, b => by
    cases b with
    | string y => exact Bool.beq_comm
    | _ => rfl
  -- Nested values are compared item by item, and the items are parts of both sides.
  | .array xs, b => by
    cases b with
    | array ys => exact sameItems_comm xs ys
    | _ => rfl
  | .object xs, b => by
    cases b with
    | object ys => exact sameFields_comm xs ys
    | _ => rfl

/-- So does equality item by item. -/
theorem sameItems_comm : ∀ xs ys : List Value, sameItems xs ys = sameItems ys xs
  | [], ys => by cases ys <;> rfl
  | x :: xs, ys => by
    cases ys with
    | nil => rfl
    | cons y ys => rw [sameItems, sameItems, same_comm x y, sameItems_comm xs ys]

/-- So does equality entry by entry. -/
theorem sameFields_comm : ∀ xs ys : List (String × Value), sameFields xs ys = sameFields ys xs
  | [], ys => by cases ys <;> rfl
  | (key, x) :: xs, ys => by
    cases ys with
    | nil => rfl
    | cons entry ys =>
      obtain ⟨other, y⟩ := entry
      rw [sameFields, sameFields, same_comm x y, sameFields_comm xs ys,
        show (key == other) = (other == key) from Bool.beq_comm]

end

/-- **Equality of values** looks the same from either side. -/
theorem equal_comm (a b : Value) : a.equal b = b.equal a := by
  cases a with
  | number m =>
    cases b with
    | number n => rw [equal, equal, ← Number.compare?_swap, beq_eq_swap]
    | _ => rfl
  | _ =>
    cases b <;> exact same_comm _ _

/-! ## Integral values -/

mutual

/-- Whether all numbers of a value are integers that fit a signed 64-bit word. -/
def isIntegral : Value → Bool
  | .number n => n.word?.isSome
  | .array items => allIntegral items
  | .object fields => fieldsIntegral fields
  | _ => true

/-- Whether all items are integral. -/
def allIntegral : List Value → Bool
  | [] => true
  | item :: rest => item.isIntegral && allIntegral rest

/-- Whether the values of all entries are integral. -/
def fieldsIntegral : List (String × Value) → Bool
  | [] => true
  | (_, value) :: rest => value.isIntegral && fieldsIntegral rest

end

mutual

/-- Integral values of one structure are the same. -/
theorem eq_of_same : ∀ {a b : Value}, a.isIntegral = true → b.isIntegral = true →
    a.same b = true → a = b
  | .null, b, _, _, same => by
    cases b with
    | null => rfl
    | _ => cases same
  | .bool x, b, _, _, same => by
    cases b with
    | bool y => exact congrArg bool (beq_iff_eq.mp same)
    | _ => cases same
  | .number m, b, left, right, same => by
    cases b with
    | number n => exact congrArg number (Number.eq_of_same left right same)
    | _ => cases same
  | .string x, b, _, _, same => by
    cases b with
    | string y => exact congrArg string (beq_iff_eq.mp same)
    | _ => cases same
  | .array xs, b, left, right, same => by
    cases b with
    | array ys => exact congrArg array (eq_of_sameItems left right same)
    | _ => cases same
  | .object xs, b, left, right, same => by
    cases b with
    | object ys => exact congrArg object (eq_of_sameFields left right same)
    | _ => cases same

/-- So are lists of integral items. -/
theorem eq_of_sameItems : ∀ {xs ys : List Value}, allIntegral xs = true → allIntegral ys = true →
    sameItems xs ys = true → xs = ys
  | [], ys, _, _, same => by
    cases ys with
    | nil => rfl
    | cons y ys => cases same
  | x :: xs, ys, left, right, same => by
    cases ys with
    | nil => cases same
    | cons y ys =>
      rw [allIntegral, Bool.and_eq_true] at left right
      rw [sameItems, Bool.and_eq_true] at same
      rw [eq_of_same left.1 right.1 same.1, eq_of_sameItems left.2 right.2 same.2]

/-- So are entries with integral values. -/
theorem eq_of_sameFields : ∀ {xs ys : List (String × Value)}, fieldsIntegral xs = true →
    fieldsIntegral ys = true → sameFields xs ys = true → xs = ys
  | [], ys, _, _, same => by
    cases ys with
    | nil => rfl
    | cons y ys => cases same
  | (key, x) :: xs, ys, left, right, same => by
    cases ys with
    | nil => cases same
    | cons entry ys =>
      obtain ⟨other, y⟩ := entry
      rw [fieldsIntegral, Bool.and_eq_true] at left right
      rw [sameFields, Bool.and_eq_true, Bool.and_eq_true] at same
      rw [beq_iff_eq.mp same.1.1, eq_of_same left.1 right.1 same.1.2,
        eq_of_sameFields left.2 right.2 same.2]

end

/-- **Equal integral values** are the same. -/
theorem eq_of_equal {a b : Value} (left : a.isIntegral = true) (right : b.isIntegral = true)
    (equal : a.equal b = true) : a = b := by
  cases a with
  | number m =>
    cases b with
    | number n => exact congrArg number (Number.eq_of_compare? left right equal)
    | _ => cases equal
  | _ => exact eq_of_same left right (by cases b <;> exact equal)

end Value

end Warden
