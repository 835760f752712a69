import Warden.Proofs.Sql.Columns
/-! # What a clause means
Which clauses are **acceptable** (`Clause.Acceptable`), and when a row satisfies one
(`Clause.Means`), is said here by recursion on the clause alone: the keys of a field map are joined
by "and", `$and` asks for all of its clauses, `$or` for any of them, and each operator for a single
test of its column. Nothing is said about how conditions are made or checked.

The compiler of clauses agrees with both. A clause has conditions iff it is acceptable wherever
columns are not listed (`Clause.exists_conditions_iff`), and the conditions then hold of a row iff
the row satisfies the clause (`Clause.means_of_conditions`). So a query accepts exactly the
acceptable clauses, and its rows are then those that satisfied it before and satisfy the clause
(`Select.filter_means`). -/

namespace Warden

namespace Sql

/-! ## Related lists -/

section Lists

variable {α β : Type} {related : α → β → Prop} {items : List α} {results : List β}
  {p : α → Prop} {q : β → Prop}

/-- All results have a property iff all items have one on which related ones agree. -/
theorem forall_mem_iff_of_related (each : List.Forall₂ related items results)
    (agree : ∀ item ∈ items, ∀ result, related item result → (q result ↔ p item)) :
    (∀ result ∈ results, q result) ↔ ∀ item ∈ items, p item := by
  induction each with
  | nil => simp
  | cons one _ ih =>
    rw [List.forall_mem_cons, List.forall_mem_cons]
    have first := agree _ List.mem_cons_self _ one
    exact and_congr first (ih fun item mem => agree item (List.mem_cons_of_mem _ mem))

/-- Some result has a property iff some item has one on which related ones agree. -/
theorem exists_mem_iff_of_related (each : List.Forall₂ related items results)
    (agree : ∀ item ∈ items, ∀ result, related item result → (q result ↔ p item)) :
    (∃ result ∈ results, q result) ↔ ∃ item ∈ items, p item := by
  have opposite := forall_mem_iff_of_related each fun item mem result one =>
    not_congr (agree item mem result one)
  rw [← not_iff_not]
  simpa only [not_exists, not_and] using opposite

end Lists

/-! ## Operators -/

/-- The operands that an operator **takes**. -/
def Operator.Takes : Operator → Value → Prop
  | .gt, operand | .gte, operand | .lt, operand | .lte, operand =>
    (∃ n, operand = .number n) ∨ ∃ text, operand = .string text
  | .isIn, operand | .isNotIn, operand => ∃ items, operand = .array items
  | .like, operand => ∃ pattern, operand = .string pattern
  | _, _ => True

/-- What an operator **means** for a row of which it is known which single tests it passes. Being
equal to null is being null. No row has one of no values, and every row has none of no values. A
test for null asks for the opposite if its operand is false. -/
def Operator.Means (passes : Condition → Prop) (column : ColumnName) : Operator → Value → Prop
  | .eq, .null => passes (.isNull column)
  | .eq, value => passes (.compare .eq column (.ofValue value))
  | .ne, .null => passes (.isNotNull column)
  | .ne, value => passes (.compare .ne column (.ofValue value))
  | .gt, value => passes (.compare .gt column (.ofValue value))
  | .gte, value => passes (.compare .gte column (.ofValue value))
  | .lt, value => passes (.compare .lt column (.ofValue value))
  | .lte, value => passes (.compare .lte column (.ofValue value))
  | .isIn, .array items => items ≠ [] ∧ passes (.isIn column (items.map Literal.ofValue))
  | .isNotIn, .array items => items = [] ∨ passes (.isNotIn column (items.map Literal.ofValue))
  | .like, .string pattern => passes (.like column pattern)
  | .isNull, .bool false => passes (.isNotNull column)
  | .isNull, _ => passes (.isNull column)
  | .isNotNull, .bool false => passes (.isNull column)
  | .isNotNull, _ => passes (.isNotNull column)
  | _, _ => False

namespace Clause

/-! ## Clauses -/

/-- Whether a key is a column that may be used; if none is listed, every one may. -/
def IsColumn (columns : List String) (key : String) : Prop :=
  isGroupKey key = false ∧ (columns = [] ∨ key ∈ columns)

mutual

/-- Whether a clause is **acceptable** where columns are listed. -/
def Acceptable (columns : List String) : List (String × Value) → Prop
  | [] => True
  | (key, value) :: rest => AcceptableEntry columns key value ∧ Acceptable columns rest

/-- Whether an entry is acceptable: a group of clauses, a column with operators, or a column with a
value. -/
def AcceptableEntry (columns : List String) (key : String) : Value → Prop
  | .array items => (key = "$and" ∨ key = "$or") ∧ AcceptableItems columns items
  | .object operators => IsColumn columns key ∧ ∀ entry ∈ operators,
      ∃ operator, Operator.ofName? entry.1 = some operator ∧ operator.Takes entry.2
  | _ => IsColumn columns key

/-- Whether all items are acceptable clauses. -/
def AcceptableItems (columns : List String) : List Value → Prop
  | [] => True
  | item :: rest => AcceptableItem columns item ∧ AcceptableItems columns rest

/-- Whether an item is an acceptable clause. -/
def AcceptableItem (columns : List String) : Value → Prop
  | .object inner => Acceptable columns inner
  | _ => False

end

section Meaning

variable (passes : Condition → Prop) (table : String)

mutual

/-- What a clause on a table **means** for a row: what all of its entries mean. -/
def Means : List (String × Value) → Prop
  | [] => True
  | (key, value) :: rest => EntryMeans key value ∧ Means rest

/-- What an entry means: any or all clauses of a group, or what is asked of a column. -/
def EntryMeans (key : String) : Value → Prop
  | .array items => if key = "$or" then AnyMeans items else AllMean items
  | .object operators => ∀ entry ∈ operators, ∀ operator,
      Operator.ofName? entry.1 = some operator →
      operator.Means passes ⟨table, key⟩ entry.2
  | value => Operator.eq.Means passes ⟨table, key⟩ value

/-- All clauses of a group. -/
def AllMean : List Value → Prop
  | [] => True
  | item :: rest => ItemMeans item ∧ AllMean rest

/-- Any clause of a group. -/
def AnyMeans : List Value → Prop
  | [] => False
  | item :: rest => ItemMeans item ∨ AnyMeans rest

/-- A clause of a group. -/
def ItemMeans : Value → Prop
  | .object inner => Means inner
  | _ => False

end

end Meaning

/-! ## Entries and items one by one -/

variable {columns : List String} {table key : String} {value : Value} {clause : Clause}
  {items : List Value} {passes : Condition → Prop}

/-- A clause is acceptable iff each of its entries is. -/
theorem acceptable_iff :
    Acceptable columns clause ↔ ∀ entry ∈ clause, AcceptableEntry columns entry.1 entry.2 := by
  induction clause with
  | nil => simp [Acceptable]
  | cons entry rest ih => rw [Acceptable, List.forall_mem_cons, ih]

/-- Items are acceptable iff each of them is. -/
theorem acceptableItems_iff :
    AcceptableItems columns items ↔ ∀ item ∈ items, AcceptableItem columns item := by
  induction items with
  | nil => simp [AcceptableItems]
  | cons item rest ih => rw [AcceptableItems, List.forall_mem_cons, ih]

/-- An item is acceptable iff it is a clause that is. -/
theorem acceptableItem_iff {item : Value} :
    AcceptableItem columns item ↔ ∃ inner, item = .object inner ∧ Acceptable columns inner := by
  cases item <;> simp [AcceptableItem]

/-- A clause means what each of its entries means. -/
theorem means_iff :
    Means passes table clause ↔ ∀ entry ∈ clause, EntryMeans passes table entry.1 entry.2 := by
  induction clause with
  | nil => simp [Means]
  | cons entry rest ih => rw [Means, List.forall_mem_cons, ih]

theorem allMean_iff : AllMean passes table items ↔ ∀ item ∈ items, ItemMeans passes table item := by
  induction items with
  | nil => simp [AllMean]
  | cons item rest ih => rw [AllMean, List.forall_mem_cons, ih]

theorem anyMeans_iff :
    AnyMeans passes table items ↔ ∃ item ∈ items, ItemMeans passes table item := by
  induction items with
  | nil => simp [AnyMeans]
  | cons item rest ih => rw [AnyMeans, List.exists_mem_cons_iff, ih]

/-- The key of a group is no column. -/
theorem isGroupKey_of_known (known : key = "$and" ∨ key = "$or") : isGroupKey key = true := by
  rcases known with rfl | rfl <;> decide

/-- A group has the shape of one iff its key is known and its items are clauses. -/
theorem checkGroupShape_eq_ok_iff :
    checkGroupShape key value = .ok () ↔ (key = "$and" ∨ key = "$or") ∧
      ∃ items, value = .array items ∧ ∀ item ∈ items, ∃ inner, item = .object inner := by
  constructor
  · intro shaped
    refine ⟨?_, items_of_shape shaped⟩
    by_contra unknown
    rw [not_or] at unknown
    unfold checkGroupShape at shaped
    rw [if_pos unknown] at shaped
    cases shaped
  · rintro ⟨known, items, rfl, objects⟩
    have all : (items.all fun item => item.fields?.isSome) = true := by
      rw [List.all_eq_true]
      intro item mem
      obtain ⟨inner, rfl⟩ := objects item mem
      rfl
    have unknown : ¬ (key ≠ "$and" ∧ key ≠ "$or") := by
      rw [← not_or, not_not]
      exact known
    rw [checkGroupShape, if_neg unknown]
    exact if_pos all

end Clause

/-! ## Conditions of operators -/

section Operators

variable {operator : Operator} {column : ColumnName} {operand : Value} {condition : Condition}
  {passes : Condition → Prop}

/-- An operator has a condition iff it takes the operand. -/
theorem Operator.exists_condition_iff :
    (∃ condition, operator.condition column operand = .ok condition) ↔ operator.Takes operand := by
  unfold Operator.condition
  cases operator with
  | eq => exact iff_of_true ⟨_, rfl⟩ trivial
  | ne =>
    refine iff_of_true ?_ trivial
    dsimp only
    split <;> exact ⟨_, rfl⟩
  | isNull | isNotNull =>
    refine iff_of_true ?_ trivial
    dsimp only
    split <;> exact ⟨_, rfl⟩
  | isNotIn =>
    rcases operand with _ | _ | _ | _ | (_ | ⟨first, rest⟩) | _ <;> simp [Takes]
  | _ => cases operand <;> simp [Takes, Value.isRangeable]

/-- A column has a value iff a row passes the test for null, or that of equality. -/
theorem Condition.holds_hasValue {value : Value} :
    (Condition.hasValue column value).Holds passes ↔ Operator.eq.Means passes column value := by
  cases value <;> exact Iff.rfl

/-- **The condition of an operator** holds iff the row satisfies what the operator means. -/
theorem Operator.holds_condition (stands : operator.condition column operand = .ok condition) :
    condition.Holds passes ↔ operator.Means passes column operand := by
  unfold Operator.condition at stands
  cases operator with
  | eq =>
    cases stands
    exact Condition.holds_hasValue
  | ne => cases operand <;> cases stands <;> exact Iff.rfl
  | isIn =>
    cases operand with
    | array items =>
      cases stands
      cases items with
      | nil => simp [Condition.hasAnyValue, Condition.Holds, Means]
      | cons first rest => simp [Condition.hasAnyValue, Condition.Holds, Means]
    | _ => cases stands
  | isNotIn =>
    cases operand with
    | array items =>
      cases items with
      | nil =>
        cases stands
        simp [Condition.Holds, Means]
      | cons first rest =>
        cases stands
        simp [Condition.Holds, Means]
    | _ => cases stands
  | like =>
    cases operand with
    | string pattern =>
      cases stands
      exact Iff.rfl
    | _ => cases stands
  | isNull | isNotNull =>
    cases operand with
    | bool b =>
      cases b <;> cases stands <;> exact Iff.rfl
    | _ =>
      cases stands
      exact Iff.rfl
  | _ => cases operand <;> cases stands <;> exact Iff.rfl

end Operators

namespace Clause

variable {columns : List String} {table key : String} {value : Value} {clause : Clause}
  {items : List Value} {operators : List (String × Value)} {column : ColumnName}
  {wanted part : List Condition} {passes : Condition → Prop}

/-! ## Conditions of columns -/

/-- Operators have conditions iff each has one. -/
theorem operatorConditions_eq_ok_iff :
    operatorConditions column operators = .ok wanted ↔
      List.Forall₂ (fun entry condition => ∃ operator, Operator.ofName? entry.1 = some operator ∧
        operator.condition column entry.2 = .ok condition) operators wanted := by
  induction operators generalizing wanted with
  | nil =>
    rw [operatorConditions, List.forall₂_nil_left_iff]
    exact ⟨fun same => (Except.ok.inj same).symm, congrArg Except.ok ∘ Eq.symm⟩
  | cons entry rest ih =>
    rw [operatorConditions, List.forall₂_cons_left_iff]
    cases named : Operator.ofName? entry.1 with
    | none => simp
    | some operator =>
      dsimp only
      rw [bind_eq_ok_iff]
      simp only [bind_eq_ok_iff, ih, pure, Except.pure, Except.ok.injEq, Option.some.injEq,
        exists_eq_left']
      constructor
      · rintro ⟨condition, stands, others, later, rfl⟩
        exact ⟨condition, others, stands, later, rfl⟩
      · rintro ⟨condition, others, stands, later, rfl⟩
        exact ⟨condition, stands, others, later, rfl⟩

/-- The conditions of operators hold iff a row satisfies what each of them means. -/
theorem holds_operatorConditions (given : operatorConditions column operators = .ok wanted) :
    (∀ condition ∈ wanted, condition.Holds passes) ↔ ∀ entry ∈ operators, ∀ operator,
      Operator.ofName? entry.1 = some operator → operator.Means passes column entry.2 := by
  refine forall_mem_iff_of_related (operatorConditions_eq_ok_iff.mp given) ?_
  rintro entry - condition ⟨operator, named, stands⟩
  simp only [named, Option.some.injEq, forall_eq', Operator.holds_condition stands]

/-- An entry that is no group has conditions iff it is acceptable as such. -/
theorem exists_columnConditions_iff (plain : isGroupKey key = false) :
    (∃ part, columnConditions ⟨table, key⟩ value = .ok part) ↔ AcceptableEntry [] key value := by
  have isColumn : IsColumn [] key := ⟨plain, .inl rfl⟩
  cases value with
  | array items =>
    refine iff_of_false (by simp [columnConditions]) ?_
    rintro ⟨known, -⟩
    rw [isGroupKey_of_known known] at plain
    cases plain
  | object operators =>
    simp only [columnConditions, operatorConditions_eq_ok_iff, exists_forall₂_iff,
      AcceptableEntry, isColumn, true_and]
    refine forall₂_congr fun entry _ => ?_
    rw [exists_comm]
    refine exists_congr fun operator => ?_
    rw [exists_and_left, Operator.exists_condition_iff]
  | _ => exact iff_of_true ⟨_, rfl⟩ isColumn

/-- Its conditions hold iff a row satisfies what the entry means. -/
theorem holds_columnConditions (given : columnConditions ⟨table, key⟩ value = .ok part) :
    (∀ condition ∈ part, condition.Holds passes) ↔ EntryMeans passes table key value := by
  cases value with
  | array items => cases given
  | object operators => exact holds_operatorConditions given
  | _ =>
    cases given
    rw [List.forall_mem_singleton]
    exact Condition.holds_hasValue

/-! ## Conditions of clauses -/

/-- The conditions of the clauses in a group are one for each. -/
theorem groupConditions_eq_ok_iff {groups : List Condition} :
    groupConditions table (.array items) = .ok groups ↔
      List.Forall₂ (fun item group => itemCondition table item = .ok group) items groups := by
  rw [groupConditions, itemConditions_eq, mapM_eq_ok_iff]

/-- All items of a group are clauses with conditions iff they are acceptable, if clauses in the
group have conditions iff they are acceptable. -/
theorem exists_groupConditions_iff
    (each : ∀ inner, Value.object inner ∈ items →
      ((∃ wanted, conditions table inner = .ok wanted) ↔ Acceptable [] inner)) :
    ((∀ item ∈ items, ∃ inner, item = .object inner) ∧
      ∃ groups, groupConditions table (.array items) = .ok groups) ↔ AcceptableItems [] items := by
  simp only [groupConditions_eq_ok_iff, exists_forall₂_iff, acceptableItems_iff,
    acceptableItem_iff]
  constructor
  · rintro ⟨objects, made⟩ item mem
    obtain ⟨inner, rfl⟩ := objects item mem
    obtain ⟨group, made⟩ := made _ mem
    obtain ⟨wanted, given, -⟩ := itemCondition_eq_ok_iff.mp made
    exact ⟨inner, rfl, (each inner mem).mp ⟨wanted, given⟩⟩
  · intro all
    refine ⟨fun item mem => ?_, fun item mem => ?_⟩
    · obtain ⟨inner, same, -⟩ := all item mem
      exact ⟨inner, same⟩
    · obtain ⟨inner, rfl, acceptable⟩ := all item mem
      obtain ⟨wanted, given⟩ := (each inner mem).mpr acceptable
      exact ⟨_, itemCondition_eq_ok_iff.mpr ⟨wanted, given, rfl⟩⟩

/-- **A clause has conditions** iff it is acceptable, whatever columns are listed. -/
theorem exists_conditions_iff :
    (∃ wanted, conditions table clause = .ok wanted) ↔ Acceptable [] clause := by
  -- By induction on groups: a group has a condition iff the clauses in it have conditions.
  induction clause using groupInduction with
  | step clause ih =>
    have entries : (∃ wanted, conditions table clause = .ok wanted) ↔
        ∀ entry ∈ clause, ∃ part, entryConditions table entry.1 entry.2 = .ok part := by
      simp only [conditions_eq_ok_iff]
      rw [← exists_forall₂_iff]
      constructor
      · rintro ⟨_, parts, each, -⟩
        exact ⟨parts, each⟩
      · rintro ⟨parts, each⟩
        exact ⟨_, parts, each, rfl⟩
    rw [entries, acceptable_iff]
    refine forall₂_congr fun ⟨key, value⟩ entry => ?_
    by_cases grouped : isGroupKey key = true
    · simp only [entryConditions_eq_ok_iff grouped, checkGroupShape_eq_ok_iff]
      cases value with
      | array items =>
        rw [AcceptableEntry, ← @exists_groupConditions_iff table items
          fun inner mem => ih key items inner entry mem]
        simp [and_assoc]
      -- The key of a group is no column.
      | _ => simp [AcceptableEntry, IsColumn, grouped]
    · rw [entryConditions, if_neg grouped]
      exact exists_columnConditions_iff (Bool.eq_false_iff.mpr grouped)

/-- The condition of a group holds iff those of all or any of its clauses do. -/
theorem holds_groupCondition {groups : List Condition} :
    (groupCondition key groups).Holds passes ↔
      if key = "$or" then ∃ group ∈ groups, group.Holds passes
      else ∀ group ∈ groups, group.Holds passes := by
  rw [groupCondition]
  split
  · exact Condition.holds_anyOf
  · exact Condition.holds_allOf

/-- The condition of a group holds iff a row satisfies what the group means, if those of the clauses
in it do. -/
theorem holds_of_entryConditions_group (grouped : isGroupKey key = true)
    (each : ∀ inner wanted, Value.object inner ∈ items → conditions table inner = .ok wanted →
      ((∀ condition ∈ wanted, condition.Holds passes) ↔ Means passes table inner))
    (made : entryConditions table key (.array items) = .ok part) :
    (∀ condition ∈ part, condition.Holds passes) ↔ EntryMeans passes table key (.array items) := by
  obtain ⟨shaped, groups, makes, rfl⟩ := (entryConditions_eq_ok_iff grouped).mp made
  obtain ⟨-, _, same, objects⟩ := checkGroupShape_eq_ok_iff.mp shaped
  cases same
  have makes := groupConditions_eq_ok_iff.mp makes
  have agree : ∀ item ∈ items, ∀ group, itemCondition table item = .ok group →
      (group.Holds passes ↔ ItemMeans passes table item) := by
    intro item mem group made
    obtain ⟨inner, rfl⟩ := objects item mem
    obtain ⟨wanted, given, rfl⟩ := itemCondition_eq_ok_iff.mp made
    rw [Condition.holds_allOf, ItemMeans]
    exact each inner wanted mem given
  rw [List.forall_mem_singleton, holds_groupCondition, EntryMeans, anyMeans_iff, allMean_iff,
    exists_mem_iff_of_related makes agree, forall_mem_iff_of_related makes agree]

/-- **The conditions of a clause** hold iff a row satisfies what the clause means. -/
theorem means_of_conditions (given : conditions table clause = .ok wanted) :
    (∀ condition ∈ wanted, condition.Holds passes) ↔ Means passes table clause := by
  -- By induction on groups: the condition of a group is made of those of its clauses.
  induction clause using groupInduction generalizing wanted with
  | step clause ih =>
    obtain ⟨parts, each, rfl⟩ := conditions_eq_ok_iff.mp given
    have entries : (∀ condition ∈ parts.flatten, condition.Holds passes) ↔
        ∀ part ∈ parts, ∀ condition ∈ part, condition.Holds passes := by
      simp only [List.mem_flatten, forall_exists_index, and_imp]
      exact ⟨fun all part mem condition inPart => all condition part mem inPart,
        fun all condition part mem inPart => all part mem condition inPart⟩
    rw [entries, means_iff]
    refine forall_mem_iff_of_related each ?_
    rintro ⟨key, value⟩ entry part made
    by_cases grouped : isGroupKey key = true
    · obtain ⟨shaped, -⟩ := (entryConditions_eq_ok_iff grouped).mp made
      obtain ⟨items, rfl, -⟩ := items_of_shape shaped
      exact holds_of_entryConditions_group grouped
        (fun inner wanted mem given => ih key items inner entry mem given) made
    · rw [entryConditions, if_neg grouped] at made
      exact holds_columnConditions made

/-! ## Columns that may be used -/

/-- An entry with a column is acceptable iff it is one whatever columns are listed, and its column
may be used. -/
theorem acceptableEntry_column_iff (plain : isGroupKey key = false) :
    AcceptableEntry columns key value ↔
      AcceptableEntry [] key value ∧ (columns = [] ∨ key ∈ columns) := by
  cases value with
  | array items =>
    have unknown : ¬ (key = "$and" ∨ key = "$or") := by
      intro known
      rw [isGroupKey_of_known known] at plain
      cases plain
    simp [AcceptableEntry, unknown]
  | object operators => simp [AcceptableEntry, IsColumn, plain, and_comm]
  | _ => simp [AcceptableEntry, IsColumn, plain]

/-- A group is acceptable iff its key is known and it consists of acceptable clauses. -/
theorem acceptableEntry_group_iff (grouped : isGroupKey key = true) :
    AcceptableEntry columns key value ↔ (key = "$and" ∨ key = "$or") ∧
      ∃ items, value = .array items ∧
        ∀ item ∈ items, ∃ inner, item = .object inner ∧ Acceptable columns inner := by
  cases value with
  | array items => simp [AcceptableEntry, acceptableItems_iff, acceptableItem_iff]
  -- The key of a group is no column.
  | _ => simp [AcceptableEntry, IsColumn, grouped]

/-- What is acceptable where columns are listed is so where none is. -/
theorem Acceptable.unlisted (acceptable : Acceptable columns clause) : Acceptable [] clause := by
  induction clause using groupInduction with
  | step clause ih =>
    rw [acceptable_iff] at acceptable ⊢
    rintro ⟨key, value⟩ entry
    have accepted := acceptable _ entry
    by_cases grouped : isGroupKey key = true
    · obtain ⟨known, items, rfl, all⟩ := (acceptableEntry_group_iff grouped).mp accepted
      refine (acceptableEntry_group_iff grouped).mpr ⟨known, items, rfl, fun item mem => ?_⟩
      obtain ⟨inner, rfl, accepted⟩ := all item mem
      exact ⟨inner, rfl, ih key items inner entry mem accepted⟩
    · exact ((acceptableEntry_column_iff (Bool.eq_false_iff.mpr grouped)).mp accepted).1

/-- What is acceptable where columns are listed names none but these. -/
theorem Acceptable.mem_of_names {name : String} (acceptable : Acceptable columns clause)
    (listed : columns ≠ []) (names : Names clause name) : name ∈ columns := by
  induction names with
  | column mem plain =>
    have accepted := acceptable_iff.mp acceptable _ mem
    exact ((acceptableEntry_column_iff plain).mp accepted).2.resolve_left listed
  | group mem grouped member _ ih =>
    have accepted := acceptable_iff.mp acceptable _ mem
    obtain ⟨-, items, same, all⟩ := (acceptableEntry_group_iff grouped).mp accepted
    cases same
    obtain ⟨inner, same, accepted⟩ := all _ member
    cases same
    exact ih accepted

/-- **Listing columns** restricts which columns a clause may name, and nothing else. -/
theorem acceptable_iff_names (listed : columns ≠ []) :
    Acceptable columns clause ↔
      Acceptable [] clause ∧ ∀ name, Names clause name → name ∈ columns := by
  refine ⟨fun acceptable => ⟨acceptable.unlisted,
    fun name names => acceptable.mem_of_names listed names⟩, ?_⟩
  rintro ⟨acceptable, all⟩
  induction clause using groupInduction with
  | step clause ih =>
    rw [acceptable_iff] at acceptable ⊢
    rintro ⟨key, value⟩ entry
    have accepted := acceptable _ entry
    by_cases grouped : isGroupKey key = true
    · obtain ⟨known, items, rfl, each⟩ := (acceptableEntry_group_iff grouped).mp accepted
      refine (acceptableEntry_group_iff grouped).mpr ⟨known, items, rfl, fun item mem => ?_⟩
      obtain ⟨inner, rfl, accepted⟩ := each item mem
      -- What a clause in the group names, the whole names.
      exact ⟨inner, rfl, ih key items inner entry mem accepted
        fun name names => all name (.group entry grouped mem names)⟩
    · have plain : isGroupKey key = false := Bool.eq_false_iff.mpr grouped
      exact (acceptableEntry_column_iff plain).mpr
        ⟨accepted, .inr (all key (.column entry plain))⟩

end Clause

namespace Select

variable {query result : Select} {clause : Clause} {passes : Condition → Prop}

/-- **A query accepts** exactly the acceptable clauses. -/
theorem exists_filter_iff :
    (∃ result, query.filter clause = .ok result) ↔ Clause.Acceptable query.columns clause := by
  rcases eq_or_ne query.columns [] with none | listed
  · -- Without listed columns nothing is checked before conditions are made.
    have unchecked : ¬ (!query.columns.isEmpty) = true := by simp [none]
    rw [none, ← @Clause.exists_conditions_iff query.table, filter, if_neg unchecked]
    constructor
    · rintro ⟨result, filters⟩
      obtain ⟨wanted, given, -⟩ := bind_eq_ok_iff.mp filters
      exact ⟨wanted, given⟩
    · rintro ⟨wanted, given⟩
      exact ⟨_, bind_eq_ok_iff.mpr ⟨wanted, given, rfl⟩⟩
  · rw [Clause.acceptable_iff_names listed, ← @Clause.exists_conditions_iff query.table]
    simp only [filter_eq_ok_iff listed]
    constructor
    · rintro ⟨_, all, wanted, given, -⟩
      exact ⟨⟨wanted, given⟩, all⟩
    · rintro ⟨⟨wanted, given⟩, all⟩
      exact ⟨_, all, wanted, given, rfl⟩

/-- Conditions are added to those that were there. -/
theorem holds_satisfyingAll (uniform : Condition.Uniform passes) (wanted : List Condition) :
    (∀ condition ∈ (query.satisfyingAll wanted).conditions, condition.Holds passes) ↔
      (∀ condition ∈ query.conditions, condition.Holds passes) ∧
        ∀ condition ∈ wanted, condition.Holds passes := by
  constructor
  · intro all
    refine ⟨fun condition mem => ?_, fun condition mem => ?_⟩
    · exact all condition ((query.prefix_satisfyingAll wanted).subset mem)
    · exact (query.demands_satisfyingAll mem).holds uniform all
  · rintro ⟨before, added⟩ condition mem
    rcases mem_satisfyingAll mem with known | new
    · exact before condition known
    · exact added condition new

/-- **What a query accepts, and what it makes of it.** A query accepts exactly the acceptable
clauses. Of a row of which it is known which single tests it passes, the conditions of the result
hold together iff those of the query did and the row satisfies what the clause means. -/
theorem filter_means (query : Select) (clause : Clause) :
    ((∃ result, query.filter clause = .ok result) ↔ Clause.Acceptable query.columns clause) ∧
      ∀ result, query.filter clause = .ok result →
        ∀ passes, Condition.Uniform passes →
          ((Condition.allOf result.conditions).Holds passes ↔
            (Condition.allOf query.conditions).Holds passes ∧
              Clause.Means passes query.table clause) := by
  refine ⟨exists_filter_iff, ?_⟩
  intro result filters passes uniform
  obtain ⟨wanted, given, rfl⟩ := filter_eq_ok filters
  rw [Condition.holds_allOf, Condition.holds_allOf, holds_satisfyingAll uniform,
    Clause.means_of_conditions given]

/-- A query for rows with keys accepts a clause with groups inside groups, some of them empty, and
with a condition that it has already. A row of which nothing is known but that it has a key
satisfies the clause. -/
theorem filter_means_nested :
    let hasKey : Condition := .isNotNull ⟨"notes", "id"⟩
    let query : Select := { table := "notes", columns := ["id", "title"], conditions := [hasKey] }
    let clause : Clause :=
      [("$or", .array [.object [("title", .object [("$in", .array [])])],
          .object [("$and", .array []), ("id", .object [("$notNull", .bool true)])]]),
       ("id", .object [("$ne", .null), ("$nin", .array [])])]
    Condition.Uniform (· = hasKey) ∧ ∃ result, query.filter clause = .ok result ∧
      Clause.Acceptable query.columns clause ∧
      (Condition.allOf result.conditions).Holds (· = hasKey) := by
  intro hasKey query clause
  have uniform : Condition.Uniform (· = hasKey) := by
    intro one other same
    constructor
    · rintro rfl
      cases other <;> simp_all [Condition.same, hasKey]
    · rintro rfl
      cases one <;> simp_all [Condition.same, hasKey]
  obtain ⟨accepts, means⟩ := filter_means query clause
  have succeeds : ∃ result, query.filter clause = .ok result := ⟨_, rfl⟩
  obtain ⟨result, filters⟩ := succeeds
  refine ⟨uniform, result, filters, accepts.mp ⟨result, filters⟩, ?_⟩
  refine (means result filters _ uniform).mpr ⟨rfl, ?_⟩
  simp [clause, Clause.Means, Clause.EntryMeans, Clause.AnyMeans, Clause.ItemMeans,
    Clause.AllMean, Operator.ofName?, Operator.Means, query, hasKey]

end Select

end Sql
end Warden
