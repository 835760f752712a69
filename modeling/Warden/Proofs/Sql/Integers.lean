import Mathlib
import Warden.Proofs.Decimals
import Warden.Proofs.Integers
import Warden.Proofs.Sql.Merging
import Warden.Proofs.Sql.Targets
/-! # Integers in SQL statements
A statement contains an integer as a literal (`Integer.literal`), wherever it stands
(`Integer.IsWritten`, `Integer.IsAskedFor`). What the literal denotes is **carried** by it
(`Integer.carried`): a signed word as it is, and an integer beyond the words as the binary64 nearest
to it. In the text it is shorter still: a whole number that ends in three zeros
(`Integer.render_literal`).

Conditions tell integers apart by what their literals carry (`Integer.ToldApart`). Words, and
integers that are more than `2 ^ 11` apart, keep conditions of their own. Neighbours beyond the
words share one (`Integer.neighbours_share_literal`). -/

namespace Warden

open Sql

/-- The number that a literal denotes, exactly. -/
def Sql.Literal.number? : Literal → Option ℚ
  | .integer n => some n
  | .double x => Float.value? x
  | _ => none

/-- The comparison of an operator that compares with its operand. -/
def Sql.Operator.comparison? : Operator → Option Comparison
  | .eq => some .eq
  | .ne => some .ne
  | .gt => some .gt
  | .gte => some .gte
  | .lt => some .lt
  | .lte => some .lte
  | _ => none

namespace Integer

variable {m n : Integer}

/-! ## Literals -/

/-- The literal of the integer. -/
def literal (n : Integer) : Literal := .ofValue n.toValue

/-- **What the literal carries**: the integer if it is a word, or else the binary64 nearest to it. -/
def carried (n : Integer) : Int := if n.IsWord then n.value else n.rounded

theorem carried_of_word (word : n.IsWord) : n.carried = n.value := if_pos word

theorem carried_of_foreign (foreign : ¬ n.IsWord) : n.carried = n.rounded := if_neg foreign

theorem literal_of_word (word : n.IsWord) : n.literal = .integer n.value := by
  rw [literal, toValue, Value.int, Literal.ofValue, word?_value, if_pos word]

theorem literal_of_foreign (foreign : ¬ n.IsWord) : n.literal = .double (Float.ofInt n.value) := by
  rw [literal, toValue, Value.int, Literal.ofValue, word?_value, if_neg foreign]
  rfl

/-- An integer beyond the words is a natural number of 64 bits. -/
theorem exists_nat (foreign : ¬ n.IsWord) :
    ∃ k : Nat, k ≠ 0 ∧ n.value = k ∧ k.log2 = 63 ∧ n.rounded = Number.roundedNat k := by
  have most := n.most
  rw [IsWord, maxWord] at foreign
  rw [maxUnsigned] at most
  obtain ⟨k, value⟩ := Int.eq_ofNat_of_zero_le (show 0 ≤ n.value by omega)
  refine ⟨k, by omega, value, (Nat.log2_eq_iff (by omega)).mpr (by omega), ?_⟩
  rw [rounded, value]
  rfl

/-- A normal value is **the nearest** to an integer. -/
structure IsNearest (n : Integer) (x : Normal) : Prop where
  /-- It is positive. -/
  positive : x.sign = .positive
  /-- Its value is the rounded integer. -/
  scaled_eq : (x.scaled : Int) = n.rounded * 2 ^ 52
  /-- It is what the integer becomes. -/
  converts : Float.ofInt n.value = x.toFloat

/-- There is one beyond the words. -/
theorem exists_isNearest (foreign : ¬ n.IsWord) : ∃ x, n.IsNearest x := by
  obtain ⟨k, some, value, log, rounds⟩ := exists_nat foreign
  obtain ⟨x, positive, scaled, converts⟩ :=
    Normal.exists_ofNat some ((Nat.log2_lt some).mp (by omega))
  refine ⟨x, positive, ?_, ?_⟩
  · rw [scaled, rounds]
    rfl
  · rw [value]
    exact converts

/-- It has the exponent of an unsigned word. -/
theorem IsNearest.exists_exponent {x : Normal} (nearest : n.IsNearest x)
    (foreign : ¬ n.IsWord) : ∃ j, x.exponent = 54 + j ∧ 9 ≤ j ∧ j ≤ 10 ∧
      n.rounded = (x.mantissa * 2 ^ (j + 2) : Nat) := by
  obtain ⟨k, some, -, log, rounds⟩ := exists_nat foreign
  obtain ⟨lower, upper⟩ := Number.roundedNat_bounds some
  rw [log] at lower upper
  have scaled := nearest.scaled_eq
  rw [rounds, Normal.scaled] at scaled
  -- The mantissa has 53 bits, so that the other bits of the value are left to the exponent.
  have least := x.least
  have most := x.most
  have long : 63 ≤ x.exponent := by
    by_contra short
    have small : 2 ^ x.exponent ≤ 2 ^ 62 := Nat.pow_le_pow_right (by decide) (by omega)
    have := Nat.mul_lt_mul_of_lt_of_le most small (by decide)
    omega
  have short : x.exponent ≤ 64 := by
    by_contra long
    have large : 2 ^ 65 ≤ 2 ^ x.exponent := Nat.pow_le_pow_right (by decide) (by omega)
    have := Nat.mul_le_mul least large
    omega
  obtain ⟨j, exponent⟩ := Nat.exists_eq_add_of_le (show 54 ≤ x.exponent by omega)
  have product : x.mantissa * 2 ^ x.exponent = x.mantissa * 2 ^ (j + 2) * 2 ^ 52 := by
    rw [exponent, Nat.mul_assoc, ← Nat.pow_add]
    congr 2
    omega
  exact ⟨j, exponent, by omega, by omega, by omega⟩

/-- **The literal denotes** what it carries. -/
theorem number?_literal (n : Integer) : n.literal.number? = some (n.carried : ℚ) := by
  by_cases word : n.IsWord
  · rw [literal_of_word word, carried_of_word word]
    rfl
  · obtain ⟨x, nearest⟩ := exists_isNearest word
    obtain ⟨j, exponent, -, -, rounds⟩ := nearest.exists_exponent word
    have power : (x.exponent : Int) - 52 = (j + 2 : Nat) := by omega
    rw [literal_of_foreign word, carried_of_foreign word, nearest.converts, rounds,
      Literal.number?, Normal.value?_toFloat nearest.positive, power, zpow_natCast]
    push_cast
    rfl

/-- **How it is written**: a word with all its digits, and an integer beyond the words as a whole
number close to the binary64, with three zeros at its end. -/
theorem render_literal (n : Integer) :
    ∃ written : Int, n.literal.render = toString written ∧ (n.IsWord → written = n.value) ∧
      (¬ n.IsWord → 1000 ∣ written ∧ |written - n.carried| ≤ 2 ^ 11) := by
  by_cases word : n.IsWord
  · refine ⟨n.value, ?_, fun _ => rfl, fun foreign => absurd word foreign⟩
    rw [literal_of_word word]
    rfl
  · obtain ⟨x, nearest⟩ := exists_isNearest word
    obtain ⟨j, exponent, least, most, rounds⟩ := nearest.exists_exponent word
    -- Half a unit exceeds a thousand, so that three digits at least are left out.
    have half : 2 ^ 10 ≤ 2 ^ (j + 1) ∧ 2 ^ (j + 1) ≤ 2 ^ 11 :=
      ⟨Nat.pow_le_pow_right (by decide) (by omega), Nat.pow_le_pow_right (by decide) (by omega)⟩
    have near := abs_le.mp (Number.rounded_near ⟨n.least, n.most⟩)
    have largest := n.most
    rw [maxUnsigned] at largest
    rw [rounded] at rounds
    obtain ⟨written, text, zeros, upper, lower⟩ :=
      Normal.text_plain nearest.positive exponent 3 (by omega) (by omega)
    refine ⟨written, ?_, fun isWord => absurd isWord word, fun _ => ⟨?_, ?_⟩⟩
    · rw [literal_of_foreign word, nearest.converts]
      exact text
    · exact_mod_cast zeros
    · rw [carried_of_foreign word, rounded, rounds, abs_le]
      omega

/-! ## How exact they are -/

/-- A carried integer is off by `2 ^ 10` at most. -/
theorem carried_near (n : Integer) : |n.carried - n.value| ≤ 2 ^ 10 := by
  unfold carried
  split
  · rw [sub_self, abs_zero]
    decide
  · exact Number.rounded_near ⟨n.least, n.most⟩

/-- **What is carried exactly**: the words, and the multiples of `2 ^ 11`. -/
theorem carried_eq_value_iff : n.carried = n.value ↔ n.IsWord ∨ 2 ^ 11 ∣ n.value := by
  by_cases word : n.IsWord
  · exact iff_of_true (carried_of_word word) (.inl word)
  · obtain ⟨k, -, value, log, rounds⟩ := exists_nat word
    -- Of 64 bits the last eleven are rounded away.
    have unit : Number.roundedNat k = roundQuotient k (2 ^ 11) * 2 ^ 11 := by
      rw [Number.roundedNat, log]
    rw [carried_of_foreign word, rounds, value, unit, or_iff_right word]
    constructor
    · intro same
      exact ⟨roundQuotient k (2 ^ 11), by rw [← same]; push_cast; ring⟩
    · rintro ⟨q, multiple⟩
      obtain ⟨q, rfl⟩ := Int.eq_ofNat_of_zero_le (show 0 ≤ q by omega)
      have product : k = q * 2 ^ 11 := by omega
      have exact := roundQuotient_mul (Nat.two_pow_pos 11) q 1
      rw [Nat.one_mul, roundQuotient_one] at exact
      rw [product, exact]

/-- Words are carried as words, and other integers as integers beyond them. -/
theorem carried_le_maxWord_iff (n : Integer) : n.carried ≤ maxWord ↔ n.IsWord := by
  by_cases word : n.IsWord
  · rw [carried_of_word word]
    rfl
  · obtain ⟨k, some, -, log, rounds⟩ := exists_nat word
    have lower := (Number.roundedNat_bounds some).1
    rw [log] at lower
    refine iff_of_false ?_ word
    rw [carried_of_foreign word, rounds, maxWord]
    omega

/-- **The order** of integers is never turned round. -/
theorem carried_mono (le : m.value ≤ n.value) : m.carried ≤ n.carried := by
  by_cases right : n.IsWord
  · have left : m.IsWord := le.trans right
    rw [carried_of_word left, carried_of_word right]
    exact le
  · by_cases left : m.IsWord
    · have small := (carried_le_maxWord_iff m).mpr left
      have large := (carried_le_maxWord_iff n).not.mpr right
      omega
    · rw [carried_of_foreign left, carried_of_foreign right]
      exact rounded_mono le

/-- **Integers that are carried alike** are the same, or close to each other beyond the words. -/
theorem eq_or_near_of_carried_eq (same : m.carried = n.carried) :
    m.value = n.value ∨ ¬ m.IsWord ∧ ¬ n.IsWord ∧ |m.value - n.value| ≤ 2 ^ 11 := by
  have kinds : m.IsWord ↔ n.IsWord := by
    rw [← carried_le_maxWord_iff, ← carried_le_maxWord_iff, same]
  by_cases word : m.IsWord
  · rw [carried_of_word word, carried_of_word (kinds.mp word)] at same
    exact .inl same
  · have left := abs_le.mp (carried_near m)
    have right := abs_le.mp (carried_near n)
    exact .inr ⟨word, kinds.not.mp word, abs_le.mpr (by omega)⟩

/-! ## Conditions -/

/-- Literals are the same iff they carry the same. -/
theorem same_literal : m.literal.same n.literal = true ↔ m.carried = n.carried := by
  by_cases left : m.IsWord <;> by_cases right : n.IsWord
  · rw [literal_of_word left, literal_of_word right, carried_of_word left, carried_of_word right]
    exact beq_iff_eq
  · refine iff_of_false ?_ fun same => right ?_
    · rw [literal_of_word left, literal_of_foreign right]
      exact Bool.false_ne_true
    · rw [← carried_le_maxWord_iff, ← same, carried_le_maxWord_iff]
      exact left
  · refine iff_of_false ?_ fun same => left ?_
    · rw [literal_of_foreign left, literal_of_word right]
      exact Bool.false_ne_true
    · rw [← carried_le_maxWord_iff, same, carried_le_maxWord_iff]
      exact right
  · obtain ⟨x, nearest⟩ := exists_isNearest left
    obtain ⟨y, nearestToo⟩ := exists_isNearest right
    have scaled := nearest.scaled_eq
    have scaledToo := nearestToo.scaled_eq
    rw [literal_of_foreign left, literal_of_foreign right, carried_of_foreign left,
      carried_of_foreign right, Literal.same, nearest.converts, nearestToo.converts,
      Normal.beq_toFloat_iff nearest.positive nearestToo.positive]
    omega

/-- So are lists of them. -/
theorem sameLiterals_literal {items others : List Integer} :
    Condition.sameLiterals (items.map literal) (others.map literal) = true ↔
      items.map carried = others.map carried := by
  induction items generalizing others with
  | nil => cases others <;> simp [Condition.sameLiterals]
  | cons first rest ih =>
    cases others with
    | nil => simp [Condition.sameLiterals]
    | cons other others =>
      simp only [List.map_cons, Condition.sameLiterals, Bool.and_eq_true, same_literal, ih,
        List.cons.injEq]

/-- Conditions of comparison on integers are told apart by what the literals carry. -/
theorem same_compare {p q : Comparison} {c d : ColumnName} :
    (Condition.compare p c m.literal).same (.compare q d n.literal) = true ↔
      p = q ∧ c = d ∧ m.carried = n.carried := by
  rw [Condition.same, Bool.and_eq_true, Bool.and_eq_true, beq_iff_eq, beq_iff_eq, same_literal,
    and_assoc]

/-- So are conditions on lists of integers. -/
theorem same_isIn {c d : ColumnName} {items others : List Integer} :
    ((Condition.isIn c (items.map literal)).same (.isIn d (others.map literal)) = true ↔
        c = d ∧ items.map carried = others.map carried) ∧
      ((Condition.isNotIn c (items.map literal)).same (.isNotIn d (others.map literal)) = true ↔
        c = d ∧ items.map carried = others.map carried) := by
  simp only [Condition.same, Bool.and_eq_true, beq_iff_eq, sameLiterals_literal, and_self]

/-- How two integers are **told apart** by the conditions on them. -/
structure ToldApart (m n : Integer) : Prop where
  /-- Comparisons are the same if the literals carry the same. -/
  compares : ∀ (p q : Comparison) (c d : ColumnName),
    (Condition.compare p c m.literal).same (.compare q d n.literal) = true ↔
      p = q ∧ c = d ∧ m.carried = n.carried
  /-- Equality with the second integer is not added to equality with the first one if the literals
  carry the same, or it was there before. -/
  swallows : ∀ (query : Select) (column : String),
    (query.filterEq column m.toValue).filterEq column n.toValue =
        query.filterEq column m.toValue ↔
      m.carried = n.carried ∨
        query.hasCondition (.compare .eq (query.column column) n.literal) = true
  /-- The literals of different integers carry the same only close together, beyond the words. -/
  near : m.carried = n.carried →
    m.value = n.value ∨ ¬ m.IsWord ∧ ¬ n.IsWord ∧ |m.value - n.value| ≤ 2 ^ 11
  /-- Literals are in the order of integers. -/
  ordered : m.value ≤ n.value → m.carried ≤ n.carried

theorem toldApart (m n : Integer) : m.ToldApart n := by
  refine ⟨fun p q c d => same_compare, ?_, eq_or_near_of_carried_eq, carried_mono⟩
  intro query column
  -- The second condition is on the same table, whether or not the first one was added.
  have table : (query.filterEq column m.toValue).table = query.table :=
    (query.frame_satisfyingAll [.hasValue (query.column column) m.toValue]).1
  have second : (query.filterEq column m.toValue).filterEq column n.toValue =
      (query.filterEq column m.toValue).satisfying
        (.compare .eq (query.column column) n.literal) := by
    rw [Select.column, ← table]
    rfl
  rw [second]
  refine Select.satisfying_satisfying_eq_iff.trans (or_congr ?_ Iff.rfl)
  exact same_compare.trans ⟨fun same => same.2.2, fun same => ⟨rfl, rfl, same⟩⟩

/-! ## Where literals stand -/

section Statements

variable {S : Type}

/-- The statements that **write** an integer contain its literal. -/
structure IsWritten (site : Site S Select) (n : Integer) : Prop where
  /-- A new row is given it. -/
  inserted : ∀ (record : Guarded S Select) (trust : Trust) (statement : Insert),
    ((Guarded.insert site).startFrom record trust).1.1 = .ok (.ok statement) →
      ∀ field ∈ record.row.changed.keys, record.row.get? field = some n.toValue →
        statement.values.get? field = some n.literal
  /-- A stored row is given it. -/
  updated : ∀ (record : Guarded S Select) (trust : Trust) (statement : Update),
    ((Guarded.update site).startFrom record trust).1.1 = .ok (.ok statement) →
      ∀ field ∈ record.row.changed.keys, record.row.get? field = some n.toValue →
        statement.values.get? field = some n.literal
  /-- A row with such a key is changed by it. -/
  addressed : ∀ (record : Guarded S Select) (trust : Trust) (statement : Update),
    ((Guarded.update site).startFrom record trust).1.1 = .ok (.ok statement) →
      record.keyValue = some n.toValue → statement.conditions.head? =
        some (.compare .eq ⟨record.model.table.name, record.model.table.primaryKey⟩ n.literal)
  /-- A row with such a key is deleted by it. -/
  deleted : ∀ (record : Guarded S Select) (trust : Trust) (statement : Delete),
    ((Guarded.delete site).startFrom record trust).1.1 = .ok (.ok (some statement)) →
      record.keyValue = some n.toValue → statement.conditions.head? =
        some (.compare .eq ⟨record.model.table.name, record.model.table.primaryKey⟩ n.literal)

/-- The conditions that **ask for** an integer contain its literal. -/
structure IsAskedFor (n : Integer) : Prop where
  /-- A query asks for equality. -/
  equal : ∀ (query : Select) (column : String), query.filterEq column n.toValue =
    query.satisfying (.compare .eq (query.column column) n.literal)
  /-- A clause asks for a comparison. -/
  compared : ∀ (operator : Operator) (comparison : Comparison) (column : ColumnName),
    operator.comparison? = some comparison →
      operator.condition column n.toValue = .ok (.compare comparison column n.literal)
  /-- A query asks for one of several integers. -/
  listed : ∀ (query : Select) (column : String) (items : List Integer), n ∈ items →
    query.filterIn column (items.map toValue) =
      query.satisfying (.isIn (query.column column) (items.map literal))
  /-- So does a clause. -/
  among : ∀ (column : ColumnName) (items : List Integer), n ∈ items →
    Operator.isIn.condition column (.array (items.map toValue)) =
      .ok (.isIn column (items.map literal))
  /-- A clause asks for none of them. -/
  notAmong : ∀ (column : ColumnName) (items : List Integer), n ∈ items →
    Operator.isNotIn.condition column (.array (items.map toValue)) =
      .ok (.isNotIn column (items.map literal))

/-- The values of a statement that stores a new row are the pending changes. -/
theorem values_of_insert {site : Site S Select} {record : Guarded S Select} {trust : Trust}
    {statement : Insert}
    (written : ((Guarded.insert site).startFrom record trust).1.1 = .ok (.ok statement)) :
    statement.values = Guarded.pendingLiterals record.row := by
  -- The check leaves the row as it is.
  obtain ⟨verdict, left, checked, row⟩ : ∃ verdict left,
      (Guarded.validate site).startFrom record trust = ((verdict, left), trust) ∧
        left.row = record.row := ⟨_, _, Guarded.startFrom_validateWith _, rfl⟩
  unfold Guarded.insert at written
  rw [RunOn.startFrom_bind, checked] at written
  rcases verdict with panic | refusal | _
  · cases written
  · cases written
  · dsimp only at written
    rw [RunOn.startFrom_bind, RunOn.startFrom_object] at written
    dsimp only at written
    split at written
    · cases written
    · cases written
      rw [row]

theorem isWritten (site : Site S Select) (n : Integer) : n.IsWritten site := by
  refine ⟨?_, ?_, ?_, ?_⟩
  · intro record trust statement written field assigned value
    rw [values_of_insert written, Guarded.get?_pendingLiterals assigned, value]
    rfl
  · intro record trust statement written field assigned value
    rcases record.panics_or_confined site trust with ⟨panic, panicked, -⟩ | ⟨_, _, confined⟩
    · cases panicked.symm.trans written
    · rw [(confined.updates statement written).1.values_eq field assigned, value]
      rfl
  · intro record trust statement written keyed
    rcases record.panics_or_confined site trust with ⟨panic, panicked, -⟩ | ⟨_, _, confined⟩
    · cases panicked.symm.trans written
    · exact (confined.updates statement written).2.head?_eq keyed
  · intro record trust statement written keyed
    rcases record.panics_or_confined site trust with ⟨panic, -, panicked⟩ | ⟨_, _, confined⟩
    · cases panicked.symm.trans written
    · exact (confined.deletes statement written).head?_eq keyed

theorem isAskedFor (n : Integer) : n.IsAskedFor := by
  have literals (items : List Integer) :
      (items.map toValue).map Literal.ofValue = items.map literal := List.map_map
  refine ⟨fun query column => rfl, ?_, ?_, ?_, ?_⟩
  · intro operator comparison column compares
    cases operator <;> cases compares <;> rfl
  · intro query column items mem
    obtain ⟨first, rest, rfl⟩ := List.exists_cons_of_ne_nil (List.ne_nil_of_mem mem)
    rw [← literals]
    rfl
  · intro column items mem
    obtain ⟨first, rest, rfl⟩ := List.exists_cons_of_ne_nil (List.ne_nil_of_mem mem)
    rw [← literals]
    rfl
  · intro column items mem
    obtain ⟨first, rest, rfl⟩ := List.exists_cons_of_ne_nil (List.ne_nil_of_mem mem)
    rw [← literals]
    rfl

/-- **What literals carry.** The literal of an integer denotes the integer if it is a signed word or
a multiple of `2 ^ 11`, and otherwise a neighbour at most `2 ^ 10` away. In the text, integers
beyond the words end in three zeros. This literal is what statements write into rows, and what
conditions compare columns with. So two integers share conditions just where their literals carry
the same: equality with one of them is then not added to equality with the other. That happens only
to integers beyond the words that are at most `2 ^ 11` apart. -/
theorem literals_carry_nearest (site : Site S Select) (m n : Integer)
    (items others : List Integer) :
    n.literal.number? = some (n.carried : ℚ) ∧
      (n.carried = n.value ↔ n.IsWord ∨ 2 ^ 11 ∣ n.value) ∧ |n.carried - n.value| ≤ 2 ^ 10 ∧
      (∃ written : Int, n.literal.render = toString written ∧ (n.IsWord → written = n.value) ∧
        (¬ n.IsWord → 1000 ∣ written ∧ |written - n.carried| ≤ 2 ^ 11)) ∧
      n.IsWritten site ∧ n.IsAskedFor ∧ m.ToldApart n ∧
      ∀ c d, ((Condition.isIn c (items.map literal)).same (.isIn d (others.map literal)) = true ↔
          c = d ∧ items.map carried = others.map carried) ∧
        ((Condition.isNotIn c (items.map literal)).same (.isNotIn d (others.map literal)) = true ↔
          c = d ∧ items.map carried = others.map carried) :=
  ⟨number?_literal n, carried_eq_value_iff, carried_near n, render_literal n, isWritten site n,
    isAskedFor n, toldApart m n, fun _ _ => same_isIn⟩

/-- A note with a key beyond the words is stored under the binary64 nearest to the key. Conditions
on the last word and on the integer after it are both kept. -/
theorem literals_carry_nearest_stored :
    let site : Site Unit Select := Guarded.notes .create
    let record : Guarded Unit Select :=
      Guarded.wrap (Guarded.note Guarded.unstored).model
        (Row.new [("id", secondForeign.toValue), ("title", largestWord.toValue)])
    let query : Select := { table := "notes" }
    let asked := query.filterEq "id" largestWord.toValue
    (∃ statement, ((Guarded.insert site).startFrom record {}).1.1 = .ok (.ok statement) ∧
      statement.values.get? "id" = some secondForeign.literal ∧
      statement.values.get? "title" = some (.integer 9223372036854775807)) ∧
      secondForeign.literal.number? = some (firstForeign.value : ℚ) ∧
      asked.filterEq "id" firstForeign.toValue ≠ asked := by
  intro site record query asked
  obtain ⟨denotes, -, -, -, written, -, -, -⟩ :=
    literals_carry_nearest site firstForeign secondForeign [] []
  obtain ⟨-, -, -, -, writtenToo, -, -, -⟩ :=
    literals_carry_nearest site firstForeign largestWord [] []
  obtain ⟨-, -, -, -, -, -, apart, -⟩ :=
    literals_carry_nearest site largestWord firstForeign [] []
  have inserts : ((Guarded.insert site).startFrom record {}).1.1 =
      .ok (.ok ⟨record.model.table, Guarded.pendingLiterals record.row⟩) := rfl
  refine ⟨⟨_, inserts, ?_, ?_⟩, ?_, ?_⟩
  · exact written.inserted record {} _ inserts "id" (by decide) rfl
  · exact writtenToo.inserted record {} _ inserts "title" (by decide) rfl
  · rw [denotes, show secondForeign.carried = firstForeign.value by decide +kernel]
  · refine (apart.swallows query "id").not.mpr ?_
    rintro (same | known)
    · rcases apart.near same with equal | ⟨foreign, -⟩
      · cases equal
      · exact foreign (by decide)
    · cases known

/-- **Neighbours share a literal.** The two integers after the signed words are different, but the
literal of the second one denotes the first one, and a query for rows with the first one as their
key takes the same condition for the second one as a repetition. In the text the key is neither. -/
theorem neighbours_share_literal :
    let query : Select := { table := "notes" }
    let asked := query.filterEq "id" firstForeign.toValue
    firstForeign.value ≠ secondForeign.value ∧
      secondForeign.literal.number? = some (firstForeign.value : ℚ) ∧
      secondForeign.literal.render = "9223372036854776000" ∧
      asked.filterEq "id" secondForeign.toValue = asked ∧
      asked.render = "SELECT * FROM \"notes\" WHERE \"notes\".\"id\" = 9223372036854776000" := by
  intro query asked
  have carried : secondForeign.carried = firstForeign.value := by decide +kernel
  refine ⟨by decide, ?_, by decide +kernel, ?_, by decide +kernel⟩
  · rw [number?_literal, carried]
  · exact ((toldApart _ _).swallows query "id").mpr (.inl (by decide +kernel))

end Statements

end Integer

end Warden
