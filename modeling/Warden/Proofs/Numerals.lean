import Mathlib
import Warden.Proofs.Shortest
import Warden.Yaml.Datum
/-! # Numbers of documents
A number is written as a plain scalar, and a plain scalar may stand for many things. Written numbers
are **read back as they were** (`Yaml.plainDatum?_text_int`, `Yaml.plainDatum?_text_float`), with
their kind: an integer is written in digits only, and a binary64 with a point or an exponent
(`Decimal.LaidOut`), so that neither is taken for the other. -/

namespace Warden

open Float.Model.UnpackedFloat (Sign)

namespace Decimal

/-! ## Digits -/

/-- The digits of a number denote it. -/
theorem ofDigits_toDigits (n : Nat) : ofDigits (Nat.toDigits 10 n) = n :=
  Nat.ofDigitChars_ten_toDigits

/-- Zeros in front of digits count for nothing. -/
theorem ofDigits_zeros (k : Nat) (digits : List Char) :
    ofDigits (List.replicate k '0' ++ digits) = ofDigits digits := by
  show Nat.ofDigitChars 10 (_ ++ _) 0 = Nat.ofDigitChars 10 digits 0
  rw [Nat.ofDigitChars_append, Nat.ofDigitChars_replicate_zero, Nat.mul_zero]

/-- Zeros behind digits multiply by ten. -/
theorem ofDigits_append_zeros (digits : List Char) (k : Nat) :
    ofDigits (digits ++ List.replicate k '0') = 10 ^ k * ofDigits digits := by
  show Nat.ofDigitChars 10 (_ ++ _) 0 = _
  rw [Nat.ofDigitChars_append, Nat.ofDigitChars_replicate_zero]
  rfl

/-- Digits end where something else comes. -/
theorem spanDigits_append {digits rest : List Char} (each : ∀ c ∈ digits, c.isDigit = true)
    (ends : ∀ c ∈ rest.head?, c.isDigit = false) :
    spanDigits (digits ++ rest) = (digits, rest) := by
  have stops : rest.takeWhile Char.isDigit = [] ∧ rest.dropWhile Char.isDigit = rest := by
    cases rest with
    | nil => exact ⟨rfl, rfl⟩
    | cons c rest =>
      have other : c.isDigit = false := ends c rfl
      simp [other]
  rw [spanDigits, List.takeWhile_append_of_pos each, List.dropWhile_append_of_pos each, stops.1,
    stops.2, List.append_nil]

/-- A digit is no sign. -/
theorem ne_sign_of_isDigit {c : Char} (digit : c.isDigit = true) : c ≠ '-' ∧ c ≠ '+' := by
  constructor <;> rintro rfl <;> exact absurd digit (by decide)

/-! ## Layout -/

/-- The characters of a sign; a plus sign is not written. -/
def signChars (negative : Bool) : List Char := if negative then ['-'] else []

/-- The characters of a fraction. -/
def pointChars (fraction : List Char) : List Char :=
  if fraction.isEmpty then [] else '.' :: fraction

/-- The characters of an exponent, always with a sign. -/
def powerChars (exponent : Int) : List Char :=
  'e' :: (if exponent < 0 then '-' else '+') :: Nat.toDigits 10 exponent.natAbs

/-- The characters of a numeral behind its sign. -/
def unsignedChars (d : Decimal) (scientific : Bool) : List Char :=
  d.whole ++ (pointChars d.fraction ++ if scientific then powerChars d.exponent else [])

/-- A text **lays out** a numeral if it has the digits of it with a point or an exponent, without
which they would be those of an integer. -/
structure LaidOut (d : Decimal) (scientific : Bool) (text : String) : Prop where
  /-- The text consists of these parts. -/
  chars : text.toList = signChars d.negative ++ d.unsignedChars scientific
  /-- There are digits in front of the point. -/
  nonempty : d.whole ≠ []
  /-- They are digits. -/
  whole : ∀ c ∈ d.whole, c.isDigit = true
  /-- So are those behind the point. -/
  fraction : ∀ c ∈ d.fraction, c.isDigit = true
  /-- A point or an exponent is there. -/
  real : d.fraction ≠ [] ∨ scientific = true
  /-- What is not written is zero. -/
  plain : scientific = false → d.exponent = 0

theorem spanSign_append (negative : Bool) {unsigned : List Char}
    (starts : ∀ c ∈ unsigned.head?, c.isDigit = true) :
    spanSign (signChars negative ++ unsigned) = (negative, unsigned) := by
  cases negative with
  | true => rfl
  | false =>
    cases unsigned with
    | nil => rfl
    | cons c rest =>
      obtain ⟨minus, plus⟩ := ne_sign_of_isDigit (starts c rfl)
      show spanSign (c :: rest) = _
      unfold spanSign
      split
      · next same => cases same; exact absurd rfl minus
      · next same => cases same; exact absurd rfl plus
      · rfl

/-- **A numeral is read from its parts**: digits, digits behind a point if there is one, and an
exponent if anything follows. -/
theorem ofText?_of_parts {d : Decimal} {text : String} {unsigned rest after : List Char}
    (sign : spanSign text.toList = (d.negative, unsigned))
    (front : spanDigits unsigned = (d.whole, rest)) (nonempty : d.whole ≠ [])
    (point : (∃ more, rest = '.' :: more ∧ spanDigits more = (d.fraction, after)) ∨
      (∀ more, rest ≠ '.' :: more) ∧ d.fraction = [] ∧ after = rest)
    (power : after = [] ∧ d.exponent = 0 ∨
      after ≠ [] ∧ spanExponent after = some (d.exponent, [])) :
    ofText? text = some d := by
  have some : d.whole.isEmpty = false := List.isEmpty_eq_false_iff.mpr nonempty
  obtain ⟨negative, whole, fraction, exponent⟩ := d
  dsimp only at sign front nonempty point power some
  unfold ofText?
  rw [sign]
  dsimp only
  rw [front]
  dsimp only
  -- Where a point stands decides which digits belong to the fraction.
  rcases point with ⟨more, rfl, digits⟩ | ⟨pointless, rfl, rfl⟩
  case' inl => simp only [digits]
  case' inr =>
    split
    next more => exact absurd rfl (pointless more)
    dsimp only
  all_goals
    rw [some, Bool.false_and, if_neg Bool.false_ne_true]
    rcases power with ⟨rfl, rfl⟩ | ⟨present, read⟩
    · rfl
    · split
      · exact absurd rfl present
      · rw [read]

theorem spanExponent_powerChars (exponent : Int) :
    spanExponent (powerChars exponent) = some (exponent, []) := by
  have digits : ∀ c ∈ Nat.toDigits 10 exponent.natAbs, c.isDigit = true :=
    fun c mem => Nat.isDigit_of_mem_toDigits (by decide) (by decide) mem
  have span : spanDigits (Nat.toDigits 10 exponent.natAbs) =
      (Nat.toDigits 10 exponent.natAbs, []) := by
    have all : spanDigits (Nat.toDigits 10 exponent.natAbs ++ []) =
        (Nat.toDigits 10 exponent.natAbs, []) := spanDigits_append digits nofun
    rwa [List.append_nil] at all
  have some : (Nat.toDigits 10 exponent.natAbs).isEmpty = false :=
    List.isEmpty_eq_false_iff.mpr Nat.toDigits_ne_nil
  have value : (if exponent < 0 then -(exponent.natAbs : Int) else exponent.natAbs) = exponent := by
    split <;> omega
  have read : ∀ negative : Bool, spanSign ((if negative then '-' else '+') ::
      Nat.toDigits 10 exponent.natAbs) = (negative, Nat.toDigits 10 exponent.natAbs) := by
    intro negative
    cases negative <;> rfl
  have sign := read (decide (exponent < 0))
  simp only [decide_eq_true_eq] at sign
  unfold powerChars spanExponent
  dsimp only
  rw [if_pos (.inl rfl), sign]
  dsimp only
  rw [span]
  dsimp only
  rw [some, ofDigits_toDigits, if_neg Bool.false_ne_true]
  simp only [decide_eq_true_eq]
  rw [value]

namespace LaidOut

variable {d : Decimal} {scientific : Bool} {text : String}

/-- A point or an exponent ends the digits in front of it. -/
theorem ends : ∀ c ∈ (pointChars d.fraction ++
    if scientific then powerChars d.exponent else []).head?, c.isDigit = false := by
  intro c first
  unfold pointChars at first
  split at first
  · cases scientific with
    | true => cases first; rfl
    | false => cases first
  · cases first
    rfl

/-- What stands behind the sign starts with a digit. -/
theorem starts (laid : d.LaidOut scientific text) :
    ∃ c rest, d.unsignedChars scientific = c :: rest ∧ c.isDigit = true := by
  obtain ⟨c, digits, is⟩ := List.exists_cons_of_ne_nil laid.nonempty
  exact ⟨c, digits ++ _, by rw [unsignedChars, is, List.cons_append],
    laid.whole c (is ▸ List.mem_cons_self)⟩

theorem spanSign (laid : d.LaidOut scientific text) :
    Decimal.spanSign text.toList = (d.negative, d.unsignedChars scientific) := by
  rw [laid.chars]
  refine spanSign_append d.negative fun c first => ?_
  obtain ⟨c', rest, is, digit⟩ := laid.starts
  rw [is] at first
  cases first
  exact digit

/-- **What is laid out is read.** -/
theorem ofText? (laid : d.LaidOut scientific text) : Decimal.ofText? text = some d := by
  obtain ⟨after, is⟩ : ∃ after, after = if scientific then powerChars d.exponent else [] := ⟨_, rfl⟩
  have front : spanDigits (d.unsignedChars scientific) =
      (d.whole, pointChars d.fraction ++ after) := is ▸ spanDigits_append laid.whole ends
  -- Without a point there is an exponent; digits behind a point end where it comes, or nothing.
  have point : (∃ more, pointChars d.fraction ++ after = '.' :: more ∧
      spanDigits more = (d.fraction, after)) ∨
      (∀ more, pointChars d.fraction ++ after ≠ '.' :: more) ∧ d.fraction = [] ∧
        after = pointChars d.fraction ++ after := by
    by_cases pointless : d.fraction = []
    · have exponential : scientific = true := laid.real.resolve_left (not_not.mpr pointless)
      rw [pointless, is, exponential]
      exact .inr ⟨nofun, rfl, rfl⟩
    · refine .inl ⟨d.fraction ++ after, ?_, spanDigits_append laid.fraction fun c first => ?_⟩
      · rw [pointChars, if_neg (by rwa [List.isEmpty_iff]), List.cons_append]
      · rw [is] at first
        cases scientific with
        | true => cases first; rfl
        | false => cases first
  have power : after = [] ∧ d.exponent = 0 ∨
      after ≠ [] ∧ spanExponent after = some (d.exponent, []) := by
    rw [is]
    cases scientific with
    | true => exact .inr ⟨nofun, spanExponent_powerChars d.exponent⟩
    | false => exact .inl ⟨rfl, laid.plain rfl⟩
  exact ofText?_of_parts laid.spanSign front laid.nonempty point power

/-- The characters behind the sign, none of which announces another base. -/
theorem mem_unsigned (laid : d.LaidOut scientific text) {c : Char}
    (mem : c ∈ d.unsignedChars scientific) : c.isDigit = true ∨ c ∈ ['.', 'e', '-', '+'] := by
  rw [unsignedChars, List.mem_append, List.mem_append] at mem
  rcases mem with whole | point | power
  · exact .inl (laid.whole c whole)
  · unfold pointChars at point
    split at point
    · cases point
    · rcases List.mem_cons.mp point with rfl | digit
      · exact .inr (by decide)
      · exact .inl (laid.fraction c digit)
  · cases scientific with
    | false => cases power
    | true =>
      rcases List.mem_cons.mp power with rfl | power
      · exact .inr (by decide)
      · rcases List.mem_cons.mp power with rfl | digit
        · split <;> exact .inr (by decide)
        · exact .inl (Nat.isDigit_of_mem_toDigits (by decide) (by decide) digit)

/-- Among them is a point or the mark of an exponent. -/
theorem exists_mark (laid : d.LaidOut scientific text) :
    ∃ c ∈ d.unsignedChars scientific, c = '.' ∨ c = 'e' := by
  rcases laid.real with pointed | rfl
  · refine ⟨'.', List.mem_append_right _ (List.mem_append_left _ ?_), .inl rfl⟩
    rw [pointChars, if_neg (by rwa [List.isEmpty_iff])]
    exact List.mem_cons_self
  · exact ⟨'e', List.mem_append_right _ (List.mem_append_right _ List.mem_cons_self), .inr rfl⟩

end LaidOut

end Decimal

/-! ## Kinds of plain scalars -/

namespace Yaml

variable {text : String}

/-- Whether a digit comes first, behind a sign at most. -/
def startsNumeral (text : String) : Bool :=
  (Decimal.spanSign text.toList).2.head?.any Char.isDigit

/-- Words that do not start as numerals are different from a text that does. -/
theorem contains_eq_false {words : List String} (numeral : startsNumeral text = true)
    (others : words.all fun word => !startsNumeral word) : words.contains text = false := by
  by_contra among
  have mem : text ∈ words := List.contains_iff_mem.mp (Bool.not_eq_false _ |>.mp among)
  have other := List.all_eq_true.mp others text mem
  rw [numeral] at other
  cases other

/-- **A numeral is a number**, or else a text: neither null nor a truth value. -/
theorem plainDatum?_of_numeral (numeral : startsNumeral text = true) :
    plainDatum? text = match (integerOf? text.toList).filter Datum.fitsTwice with
      | some n => if n.fits then some n else none
      | none => some (((floatOf? text).map Datum.float).getD (.text text)) := by
  have null : isNullText text = false := contains_eq_false numeral (by decide)
  have bool : boolOf? text = none := by
    rw [boolOf?, contains_eq_false numeral (by decide), contains_eq_false numeral (by decide)]
    rfl
  rw [plainDatum?, null, bool]
  rfl

/-- No base is announced by digits, points and exponents. -/
theorem base?_take_two {unsigned : List Char}
    (plain : ∀ c ∈ unsigned, c ≠ 'x' ∧ c ≠ 'o' ∧ c ≠ 'b') : base? (unsigned.take 2) = none := by
  have within {c : Char} {digits : List Char} (is : unsigned.take 2 = digits) (mem : c ∈ digits) :
      c ∈ unsigned := List.mem_of_mem_take (is ▸ mem)
  unfold base?
  split
  · next is => exact absurd rfl (plain 'x' (within is (by decide))).1
  · next is => exact absurd rfl (plain 'o' (within is (by decide))).2.1
  · next is => exact absurd rfl (plain 'b' (within is (by decide))).2.2
  · rfl

/-- Characters of which one is no digit of the base denote nothing. -/
theorem digitsOf?_eq_none {base : Nat} {digits : List Char} {c : Char} (mem : c ∈ digits)
    (other : Digits.value? base c = none) : digitsOf? base digits = none := by
  obtain ⟨before, after, rfl⟩ := List.append_of_mem mem
  have stuck : ∀ n : Option Nat,
      (n.bind fun n => (Digits.value? base c).map (base * n + ·)) = none := by
    intro n
    rw [other]
    cases n <;> rfl
  have nothing : Digits.number? base (before ++ c :: after) = none := by
    rw [Digits.number?, List.append_cons, List.foldlM_append]
    show ((Digits.number? base (before ++ [c])).bind _) = none
    rw [Digits.number?_append_singleton, stuck]
    rfl
  rw [digitsOf?, nothing, ite_self]

theorem integerOf?_minus (unsigned : List Char) :
    integerOf? ('-' :: unsigned) =
      (magnitudeOf? ('-' :: unsigned) unsigned).map fun n => .negative (-n : Int) := by
  show ((magnitudeOf? ('-' :: unsigned) unsigned).bind fun n => some (n : Int)).map _ = _
  cases magnitudeOf? ('-' :: unsigned) unsigned <;> rfl

theorem integerOf?_of_isDigit {c : Char} {digits : List Char} (digit : c.isDigit = true) :
    integerOf? (c :: digits) = (magnitudeOf? (c :: digits) (c :: digits)).map .natural := by
  obtain ⟨minus, plus⟩ := Decimal.ne_sign_of_isDigit digit
  unfold integerOf?
  split
  · next same => cases same; exact absurd rfl minus
  · next same => cases same; exact absurd rfl plus
  · rfl

end Yaml

namespace Decimal.LaidOut

variable {d : Decimal} {scientific : Bool} {text : String}

open Yaml

/-- A numeral with a point or an exponent starts as one. -/
theorem startsNumeral (laid : d.LaidOut scientific text) : Yaml.startsNumeral text = true := by
  obtain ⟨c, rest, is, digit⟩ := laid.starts
  rw [Yaml.startsNumeral, laid.spanSign, is]
  exact digit

/-- It is no integer with zeros in front. -/
theorem isZeroPadded_eq_false (laid : d.LaidOut scientific text) :
    isZeroPadded text.toList = false := by
  obtain ⟨c, mem, mark⟩ := laid.exists_mark
  have other : c.isDigit = false := by rcases mark with rfl | rfl <;> rfl
  unfold isZeroPadded
  rw [laid.spanSign]
  dsimp only
  split
  · next next rest is =>
    rw [is] at mem
    rcases List.mem_cons.mp mem with rfl | later
    · exact absurd other (by decide)
    · by_contra all
      have digit := List.all_eq_true.mp (Bool.not_eq_false _ |>.mp all) c later
      rw [other] at digit
      cases digit
  · rfl

/-- **It is no integer.** -/
theorem integerOf?_eq_none (laid : d.LaidOut scientific text) : integerOf? text.toList = none := by
  obtain ⟨mark, among, is⟩ := laid.exists_mark
  have unannounced : base? ((d.unsignedChars scientific).take 2) = none := by
    refine base?_take_two fun c mem => ?_
    rcases laid.mem_unsigned mem with digit | known
    · refine ⟨?_, ?_, ?_⟩ <;> rintro rfl <;> exact absurd digit (by decide)
    · refine ⟨?_, ?_, ?_⟩ <;> rintro rfl <;> exact absurd known (by decide)
  have other : Digits.value? 10 mark = none := by rcases is with rfl | rfl <;> rfl
  have none (chars : List Char) : magnitudeOf? chars (d.unsignedChars scientific) = none := by
    unfold magnitudeOf?
    rw [unannounced, digitsOf?_eq_none among other, ite_self]
    rfl
  obtain ⟨c, rest, is, digit⟩ := laid.starts
  rw [laid.chars]
  cases d.negative with
  | true =>
    show integerOf? ('-' :: d.unsignedChars scientific) = _
    rw [integerOf?_minus, none]
    rfl
  | false =>
    rw [is] at none ⊢
    show integerOf? (c :: rest) = _
    rw [integerOf?_of_isDigit digit, none]
    rfl

/-- **It is read as the nearest binary64**, if that is finite. -/
theorem plainDatum?_eq (laid : d.LaidOut scientific text) (finite : d.nearest.isFinite = true) :
    plainDatum? text = some (.float d.nearest) := by
  have numeral := laid.startsNumeral
  have float : floatOf? text = some d.nearest := by
    unfold floatOf?
    dsimp only
    rw [contains_eq_false numeral (by decide), contains_eq_false numeral (by decide),
      contains_eq_false numeral (by decide), laid.isZeroPadded_eq_false, laid.ofText?]
    simp [finite]
  rw [plainDatum?_of_numeral numeral, laid.integerOf?_eq_none, float]
  rfl

end Decimal.LaidOut

/-! ## Integers -/

namespace Yaml

/-- Digits denote the same number in both ways of reading them. -/
theorem number?_ten {digits : List Char} (each : ∀ c ∈ digits, c.isDigit = true) :
    Digits.number? 10 digits = some (Decimal.ofDigits digits) := by
  have value {c : Char} (digit : c.isDigit = true) :
      Digits.value? 10 c = some (Decimal.digit c) := by
    have bounds := Char.isDigit_iff_toNat.mp digit
    have nine : '9'.toNat = 57 := rfl
    have zero : '0'.toNat = 48 := rfl
    unfold Digits.value? Decimal.digit
    rw [if_pos digit]
    exact Option.filter_some_pos (decide_eq_true (by omega))
  suffices general : ∀ n, digits.foldlM (fun n c => (Digits.value? 10 c).map (10 * n + ·)) n =
      some (digits.foldl (fun n c => 10 * n + Decimal.digit c) n) from general 0
  induction digits with
  | nil => exact fun _ => rfl
  | cons c rest ih =>
    intro n
    have digit := each c List.mem_cons_self
    rw [List.foldlM_cons, List.foldl_cons, value digit]
    exact ih (fun later mem => each later (List.mem_cons_of_mem c mem)) _

/-- The digits of a number do not start with zero, unless it is zero. -/
theorem eq_zero_of_toDigits {n : Nat} {rest : List Char} (is : Nat.toDigits 10 n = '0' :: rest) :
    n = 0 := by
  induction n using Nat.strong_induction_on generalizing rest with
  | _ n ih =>
    rw [Nat.toDigits_eq_if (by decide)] at is
    split at is
    · next small =>
      have digit : n.digitChar = '0' := (List.cons.inj is).1
      have all : ∀ k < 10, k.digitChar = '0' → k = 0 := by decide
      exact all n small digit
    · next large =>
      -- The first digit is that of the tenth part.
      obtain ⟨c, before, tenth⟩ :=
        List.exists_cons_of_ne_nil (Nat.toDigits_ne_nil (n := n / 10) (b := 10))
      rw [tenth, List.cons_append] at is
      cases (List.cons.inj is).1
      have := ih (n / 10) (by omega) tenth
      omega

/-- The digits of a number are not padded with zeros. -/
theorem isZeroPadded_eq_false {chars : List Char} {n : Nat}
    (unsigned : (Decimal.spanSign chars).2 = Nat.toDigits 10 n) : isZeroPadded chars = false := by
  unfold isZeroPadded
  rw [unsigned]
  split
  · next is =>
    cases eq_zero_of_toDigits is
    cases is
  · rfl

theorem isDigit_toDigits {n : Nat} : ∀ c ∈ Nat.toDigits 10 n, c.isDigit = true :=
  fun _ mem => Nat.isDigit_of_mem_toDigits (by decide) (by decide) mem

/-- The digits of a number behind a sign. -/
theorem spanSign_toDigits (negative : Bool) (n : Nat) :
    Decimal.spanSign (Decimal.signChars negative ++ Nat.toDigits 10 n) =
      (negative, Nat.toDigits 10 n) :=
  Decimal.spanSign_append negative fun c first => isDigit_toDigits c (List.mem_of_mem_head? first)

/-- **Digits are an integer**, with or without minus sign. -/
theorem integerOf?_toDigits (negative : Bool) (n : Nat) :
    integerOf? (Decimal.signChars negative ++ Nat.toDigits 10 n) =
      some (if negative then .negative (-n) else .natural n) := by
  have sign := spanSign_toDigits negative n
  have unannounced : base? ((Nat.toDigits 10 n).take 2) = none := by
    refine base?_take_two fun c mem => ?_
    have digit := isDigit_toDigits c mem
    refine ⟨?_, ?_, ?_⟩ <;> rintro rfl <;> exact absurd digit (by decide)
  have some : (Nat.toDigits 10 n).isEmpty = false :=
    List.isEmpty_eq_false_iff.mpr Nat.toDigits_ne_nil
  have magnitude : magnitudeOf? (Decimal.signChars negative ++ Nat.toDigits 10 n)
      (Nat.toDigits 10 n) = Option.some n := by
    unfold magnitudeOf?
    rw [unannounced, isZeroPadded_eq_false (congrArg Prod.snd sign), digitsOf?, some,
      number?_ten isDigit_toDigits, Decimal.ofDigits_toDigits]
    rfl
  cases negative with
  | true =>
    exact (integerOf?_minus _).trans (congrArg _ magnitude)
  | false =>
    obtain ⟨c, rest, is⟩ := List.exists_cons_of_ne_nil (Nat.toDigits_ne_nil (n := n) (b := 10))
    have digit : c.isDigit = true := isDigit_toDigits c (is ▸ List.mem_cons_self)
    rw [is] at magnitude ⊢
    exact (integerOf?_of_isDigit digit).trans (congrArg _ magnitude)

/-- **Integers are read back.** -/
theorem plainDatum?_text_int {n : Int} (least : minWord ≤ n) (most : n ≤ maxUnsigned) :
    plainDatum? (Number.int n).text = some (if n < 0 then .negative n else .natural n.toNat) := by
  have low : minWord = -9223372036854775808 := rfl
  have high : maxUnsigned = 18446744073709551615 := rfl
  have chars : (Number.int n).text.toList =
      Decimal.signChars (decide (n < 0)) ++ Nat.toDigits 10 n.natAbs := by
    show n.repr.toList = _
    rw [Int.repr_eq_if]
    split
    · next nonneg =>
      rw [decide_eq_false (by omega), show n.natAbs = n.toNat by omega]
      exact String.toList_ofList
    · next negative =>
      rw [decide_eq_true (by omega), show n.natAbs = (-n).toNat by omega, String.toList_append]
      exact congrArg ('-' :: ·) String.toList_ofList
  have numeral : startsNumeral (Number.int n).text = true := by
    obtain ⟨c, rest, is⟩ := List.exists_cons_of_ne_nil
      (Nat.toDigits_ne_nil (n := n.natAbs) (b := 10))
    rw [startsNumeral, chars, spanSign_toDigits, is]
    exact isDigit_toDigits c (is ▸ List.mem_cons_self)
  have value : (if decide (n < 0) = true then Datum.negative (-n.natAbs) else .natural n.natAbs) =
      if n < 0 then .negative n else .natural n.toNat := by
    simp only [decide_eq_true_eq]
    split
    · next negative => rw [show -(n.natAbs : Int) = n by omega]
    · next nonneg => rw [show n.natAbs = n.toNat by omega]
  have fits : Datum.fits (if n < 0 then .negative n else .natural n.toNat) = true ∧
      Datum.fitsTwice (if n < 0 then .negative n else .natural n.toNat) = true := by
    split
    · exact ⟨decide_eq_true least,
        decide_eq_true (show -((2 ^ 127 : Nat) : Int) ≤ n by omega)⟩
    · exact ⟨decide_eq_true (show (n.toNat : Int) ≤ maxUnsigned by omega),
        decide_eq_true (show n.toNat < 2 ^ 128 by omega)⟩
  rw [plainDatum?_of_numeral numeral, chars, integerOf?_toDigits, value,
    Option.filter_some_pos fits.2]
  exact if_pos fits.1

end Yaml

/-! ## Binary64 values -/

namespace Decimal

/-- The exact value of a numeral without its sign. -/
def magnitude (d : Decimal) : ℚ :=
  ofDigits (d.whole ++ d.fraction) * 10 ^ (d.exponent - d.fraction.length)

/-- **The nearest binary64** of a numeral that is near a value. -/
theorem nearest_of_near {d : Decimal} {c : Canonical} (near : c.Near d.magnitude) :
    d.nearest = c.toFloat (if d.negative then .negative else .positive) := by
  have some : ofDigits (d.whole ++ d.fraction) ≠ 0 := by
    intro zero
    have pos := near.pos
    rw [magnitude, zero, Nat.cast_zero, zero_mul] at pos
    exact pos.false
  rw [nearest, Canonical.nearestPower_of_near some near]
  cases d.negative with
  | true => exact c.neg_toFloat
  | false => rfl

end Decimal

namespace DecimalStyle

open Decimal

/-- The text of a sign. -/
def signText (negative : Bool) : String := if negative then "-" else ""

theorem toList_signText (negative : Bool) : (signText negative).toList = signChars negative := by
  cases negative <;> rfl

theorem isDigit_zeros (k : Nat) : ∀ c ∈ List.replicate k '0', c.isDigit = true := by
  intro c mem
  rw [List.eq_of_mem_replicate mem]
  rfl

variable (negative : Bool) (m : Nat) (q : Int)

/-- A text **lays out** digits with a power of ten: it is a numeral with their value. -/
def LaysOut (scientific : Bool) (text : String) : Prop :=
  ∃ d : Decimal, d.LaidOut scientific text ∧ d.negative = negative ∧ d.magnitude = m * 10 ^ q

/-- Digits come before the point, with zeros behind them. -/
theorem laysOut_whole (whole : 0 ≤ q) : LaysOut negative m q false
    (signText negative ++ document.positionalText (Nat.toDigits 10 m) q) := by
  have digits := Yaml.isDigit_toDigits (n := m)
  refine ⟨⟨negative, Nat.toDigits 10 m ++ List.replicate q.toNat '0', ['0'], 0⟩,
    ⟨?_, by simp [Nat.toDigits_ne_nil], ?_, isDigit_zeros 1, .inl (List.cons_ne_nil _ _),
      fun _ => rfl⟩, rfl, ?_⟩
  · simp [positionalText, whole, toList_signText, unsignedChars, pointChars, zeros, document]
  · intro c mem
    exact (List.mem_append.mp mem).elim (digits c) (isDigit_zeros _ c)
  · have all : ofDigits (Nat.toDigits 10 m ++ List.replicate q.toNat '0' ++ ['0']) =
        10 ^ (q.toNat + 1) * m := by
      have appended := ofDigits_append_zeros (Nat.toDigits 10 m) (q.toNat + 1)
      rwa [List.replicate_succ', ← List.append_assoc, ofDigits_toDigits] at appended
    show (ofDigits _ : ℚ) * 10 ^ ((0 : Int) - 1) = _
    obtain ⟨k, rfl⟩ := Int.eq_ofNat_of_zero_le whole
    rw [all, Int.toNat_natCast, zpow_natCast]
    push_cast
    rw [pow_succ]
    norm_num
    ring

/-- The point comes between digits. -/
theorem laysOut_pointed (below : ¬ 0 ≤ q) (point : 0 < ((Nat.toDigits 10 m).length : Int) + q) :
    LaysOut negative m q false
      (signText negative ++ document.positionalText (Nat.toDigits 10 m) q) := by
  have digits := Yaml.isDigit_toDigits (n := m)
  obtain ⟨place, placed⟩ : ∃ place, place = (((Nat.toDigits 10 m).length : Int) + q).toNat :=
    ⟨_, rfl⟩
  have length : ((Nat.toDigits 10 m).drop place).length = (-q).toNat := by
    rw [List.length_drop]
    omega
  have some : (Nat.toDigits 10 m).drop place ≠ [] := by
    rw [← List.length_pos_iff, length]
    omega
  refine ⟨⟨negative, (Nat.toDigits 10 m).take place, (Nat.toDigits 10 m).drop place, 0⟩,
    ⟨?_, ?_, fun c mem => digits c (List.mem_of_mem_take mem),
      fun c mem => digits c (List.mem_of_mem_drop mem), .inl some, fun _ => rfl⟩, rfl, ?_⟩
  · have shown : ((Nat.toDigits 10 m).drop place).isEmpty = false :=
      List.isEmpty_eq_false_iff.mpr some
    simp [positionalText, below, point, ← placed, toList_signText, unsignedChars, pointChars, shown]
  · rw [← List.length_pos_iff, List.length_take]
    omega
  · show (ofDigits (_ ++ _) : ℚ) * 10 ^ ((0 : Int) - (List.length _ : Nat)) = _
    rw [List.take_append_drop, ofDigits_toDigits, length]
    congr 2
    omega

/-- Digits come behind the point, with zeros in front of them. -/
theorem laysOut_fraction (below : ¬ 0 ≤ q)
    (point : ¬ 0 < ((Nat.toDigits 10 m).length : Int) + q) :
    LaysOut negative m q false
      (signText negative ++ document.positionalText (Nat.toDigits 10 m) q) := by
  have digits := Yaml.isDigit_toDigits (n := m)
  obtain ⟨k, many⟩ : ∃ k, k = (-(((Nat.toDigits 10 m).length : Int) + q)).toNat := ⟨_, rfl⟩
  have text : document.positionalText (Nat.toDigits 10 m) q =
      "0." ++ String.ofList (List.replicate k '0') ++ String.ofList (Nat.toDigits 10 m) := by
    rw [positionalText, if_neg below, if_neg point, zeros, ← many]
  refine ⟨⟨negative, ['0'], List.replicate k '0' ++ Nat.toDigits 10 m, 0⟩,
    ⟨?_, List.cons_ne_nil _ _, isDigit_zeros 1, ?_, .inl ?_, fun _ => rfl⟩, rfl, ?_⟩
  · simp [text, toList_signText, unsignedChars, pointChars, Nat.toDigits_ne_nil]
  · intro c mem
    exact (List.mem_append.mp mem).elim (isDigit_zeros _ c) (digits c)
  · simp [Nat.toDigits_ne_nil]
  · show (ofDigits (List.replicate 1 '0' ++ (List.replicate k '0' ++ Nat.toDigits 10 m)) : ℚ) *
      10 ^ ((0 : Int) - (List.replicate k '0' ++ Nat.toDigits 10 m).length) = _
    rw [ofDigits_zeros, ofDigits_zeros, ofDigits_toDigits, List.length_append,
      List.length_replicate]
    congr 2
    omega

/-- A layout **without exponent** has the value of the digits. -/
theorem laysOut_positional : LaysOut negative m q false
    (signText negative ++ document.positionalText (Nat.toDigits 10 m) q) := by
  by_cases whole : 0 ≤ q
  · exact laysOut_whole negative m q whole
  · by_cases point : 0 < ((Nat.toDigits 10 m).length : Int) + q
    · exact laysOut_pointed negative m q whole point
    · exact laysOut_fraction negative m q whole point

/-- A layout **with an exponent** has the value of the digits. -/
theorem laysOut_scientific : LaysOut negative m q true
    (signText negative ++ scientificText (Nat.toDigits 10 m) q) := by
  have digits := Yaml.isDigit_toDigits (n := m)
  obtain ⟨first, rest, is⟩ := List.exists_cons_of_ne_nil (Nat.toDigits_ne_nil (n := m) (b := 10))
  refine ⟨⟨negative, [first], rest, (rest.length : Int) + q⟩, ⟨?_, List.cons_ne_nil _ _, ?_, ?_,
    .inr rfl, nofun⟩, rfl, ?_⟩
  · have power : ((first :: rest).length : Int) + q - 1 = rest.length + q := by
      rw [List.length_cons]
      omega
    have point : (if (first :: rest).length ≤ 1 then "" else
        "." ++ String.ofList ((first :: rest).drop 1)).toList = pointChars rest := by
      cases rest with
      | nil => rfl
      | cons c rest => simp [pointChars]
    have exponent : (toString ((rest.length : Int) + q).natAbs).toList =
        Nat.toDigits 10 ((rest.length : Int) + q).natAbs := String.toList_ofList
    have sign : (if (rest.length : Int) + q < 0 then "-" else "+").toList =
        [if (rest.length : Int) + q < 0 then '-' else '+'] := by
      split <;> rfl
    have mark : "e".toList = ['e'] := rfl
    unfold scientificText
    dsimp only
    rw [is, power, unsignedChars, powerChars]
    simp only [String.toList_append, toList_signText, point, mark, sign, exponent,
      String.toList_ofList, List.take_succ_cons, List.take_zero, List.append_assoc,
      List.cons_append, List.nil_append, if_true]
  · intro c mem
    exact digits c (is ▸ List.mem_cons.mpr (.inl (List.mem_singleton.mp mem)))
  · intro c mem
    exact digits c (is ▸ List.mem_cons_of_mem first mem)
  · show (ofDigits (first :: rest) : ℚ) * 10 ^ ((rest.length : Int) + q - rest.length) = _
    rw [← is, ofDigits_toDigits]
    congr 2
    omega

/-- **A value is laid out** as a numeral that is near it. -/
theorem exists_laidOut (c : Canonical) (sign : Sign) : ∃ (d : Decimal) (scientific : Bool),
    d.LaidOut scientific (document.text (c.toFloat sign)) ∧
      d.negative = (sign == .negative) ∧ c.Near d.magnitude := by
  have signs : (if Shortest.isNegative (c.toFloat sign) then "-" else "") =
      signText (sign == .negative) := by
    rw [c.isNegative_toFloat sign]
    rfl
  have near := c.near_digits sign
  obtain ⟨⟨m, q⟩, digits⟩ : ∃ digits, digits = Shortest.digits (c.toFloat sign) := ⟨_, rfl⟩
  rw [← digits] at near
  have either (plain : Bool) : ∃ (d : Decimal) (scientific : Bool),
      d.LaidOut scientific (signText (sign == .negative) ++
        if plain then document.positionalText (Nat.toDigits 10 m) q
        else scientificText (Nat.toDigits 10 m) q) ∧
        d.negative = (sign == .negative) ∧ c.Near d.magnitude := by
    cases plain with
    | true =>
      obtain ⟨d, laid, negative, value⟩ := laysOut_positional (sign == .negative) m q
      exact ⟨d, false, laid, negative, value ▸ near⟩
    | false =>
      obtain ⟨d, laid, negative, value⟩ := laysOut_scientific (sign == .negative) m q
      exact ⟨d, true, laid, negative, value ▸ near⟩
  unfold text
  dsimp only
  rw [signs, c.isNaN_toFloat sign, c.isInf_toFloat sign, c.toFloat_ne_zero sign,
    if_neg Bool.false_ne_true, if_neg Bool.false_ne_true, if_neg Bool.false_ne_true, ← digits]
  exact either _

end DecimalStyle

/-- The two zeros are read back. -/
theorem Yaml.plainDatum?_zero (negative : Bool) :
    plainDatum? (DecimalStyle.signText negative ++ "0.0") =
      some (.float (Decimal.signed negative 0)) := by
  have laid : (⟨negative, ['0'], ['0'], 0⟩ : Decimal).LaidOut false
      (DecimalStyle.signText negative ++ "0.0") := by
    have digit : ∀ c ∈ ['0'], c.isDigit = true := List.forall_mem_singleton.mpr rfl
    refine ⟨?_, List.cons_ne_nil _ _, digit, digit, .inl (List.cons_ne_nil _ _), fun _ => rfl⟩
    cases negative <;> rfl
  have nearest : (⟨negative, ['0'], ['0'], 0⟩ : Decimal).nearest = Decimal.signed negative 0 := by
    have none : Decimal.ofDigits (['0'] ++ ['0']) = 0 := rfl
    rw [Decimal.nearest, none, Decimal.nearestPower, if_pos (.inl rfl)]
  have finite : (Decimal.signed negative 0).isFinite = true := by cases negative <;> rfl
  rw [laid.plainDatum?_eq (nearest ▸ finite), nearest]

/-- **Binary64 values are read back.** -/
theorem Yaml.plainDatum?_text_float {x : Float} (finite : x.isFinite = true) :
    plainDatum? (Number.float x).text = some (.float x) := by
  rcases Canonical.zero_or_exists finite with rfl | rfl | ⟨c, sign, rfl⟩
  · exact plainDatum?_zero false
  · exact plainDatum?_zero true
  · obtain ⟨d, scientific, laid, negative, near⟩ := DecimalStyle.exists_laidOut c sign
    have nearest : d.nearest = c.toFloat sign := by
      rw [Decimal.nearest_of_near near, negative]
      cases sign <;> rfl
    show plainDatum? (DecimalStyle.document.text (c.toFloat sign)) = _
    rw [laid.plainDatum?_eq (nearest ▸ finite), nearest]

end Warden
