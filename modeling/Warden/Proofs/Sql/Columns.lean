import Warden.Proofs.Sql.Confinement
/-! # Lists read readable columns
The caller of a list **names** columns in the clause of its parameters, at any depth
(`Clause.Names`), and in their order. Two recursions look at a clause: `Clause.check` compares the
columns with those that may be used, and `Clause.conditions` makes conditions. They agree on what a
column is: conditions mention named columns only (`Clause.exists_names_of_mem_columns`), and a
clause that has conditions passes the check iff all the columns that it names may be used
(`Clause.check_eq_ok_iff_of_conditions`).

So a list that is answered by a query **reads** (`Select.Reads`) the readable columns, and neither
its conditions nor its order concern any other column; naming another one is refused
(`Select.lists_listing`). -/

namespace Warden

namespace Sql

namespace Condition

/-- Conditions that are joined mention the columns that any of them mentions. -/
theorem mem_columns_foldl {join : Condition → Condition → Condition}
    (joins : ∀ left right, (join left right).columns = left.columns ++ right.columns)
    {first : Condition} {rest : List Condition} {column : ColumnName} :
    column ∈ (rest.foldl join first).columns ↔
      ∃ condition ∈ first :: rest, column ∈ condition.columns := by
  induction rest generalizing first with
  | nil => simp
  | cons second rest ih => simp [ih, joins, or_assoc]

/-- Conditions together mention the columns that any of them mentions. -/
theorem mem_columns_allOf {conditions : List Condition} {column : ColumnName} :
    column ∈ (allOf conditions).columns ↔
      ∃ condition ∈ conditions, column ∈ condition.columns := by
  cases conditions with
  | nil => simp [allOf, columns]
  | cons first rest => exact mem_columns_foldl fun _ _ => rfl

/-- Alternatives do, too. -/
theorem mem_columns_anyOf {conditions : List Condition} {column : ColumnName} :
    column ∈ (anyOf conditions).columns ↔
      ∃ condition ∈ conditions, column ∈ condition.columns := by
  cases conditions with
  | nil => simp [anyOf, columns]
  | cons first rest => exact mem_columns_foldl fun _ _ => rfl

/-- Whether a condition is **about** one column only. -/
def About (condition : Condition) (column : ColumnName) : Prop :=
  ∀ other ∈ condition.columns, other = column

variable {column : ColumnName}

@[simp] theorem about_always : always.About column := nofun

@[simp] theorem about_compare (comparison : Comparison) (literal : Literal) :
    (compare comparison column literal).About column := by simp [About, columns]

@[simp] theorem about_isNull : (isNull column).About column := by simp [About, columns]

@[simp] theorem about_isNotNull : (isNotNull column).About column := by simp [About, columns]

@[simp] theorem about_isNotIn (literals : List Literal) :
    (isNotIn column literals).About column := by simp [About, columns]

@[simp] theorem about_like (pattern : String) : (like column pattern).About column := by
  simp [About, columns]

@[simp] theorem about_hasValue (value : Value) : (hasValue column value).About column := by
  cases value <;> simp [hasValue]

@[simp] theorem about_hasAnyValue (values : List Value) :
    (hasAnyValue column values).About column := by
  cases values <;> simp [hasAnyValue, About, columns]

end Condition

/-- The condition of an operator is about the operator's column. -/
theorem Operator.about_condition {operator : Operator} {column : ColumnName} {operand : Value}
    {condition : Condition} (stands : operator.condition column operand = .ok condition) :
    condition.About column := by
  unfold Operator.condition at stands
  cases operator with
  | eq =>
    cases stands
    simp
  | like =>
    cases operand with
    | string pattern =>
      cases stands
      simp
    | _ => cases stands
  | isIn =>
    cases operand with
    | array items =>
      cases stands
      simp
    | _ => cases stands
  | isNotIn =>
    cases operand with
    | array items =>
      cases items <;>
      · cases stands
        simp
    | _ => cases stands
  | _ =>
    dsimp only at stands
    split at stands <;> cases stands <;> simp

namespace Clause

/-- A clause **names** a column by a key of its own, or of a clause in one of its groups, at any
depth. -/
inductive Names : Clause → String → Prop where
  /-- A key that is not the key of a group is a column. -/
  | column {clause : Clause} {key : String} {value : Value} (mem : (key, value) ∈ clause)
      (plain : isGroupKey key = false) : Names clause key
  /-- A group names what its clauses name. -/
  | group {clause inner : Clause} {key name : String} {items : List Value}
      (mem : (key, .array items) ∈ clause) (grouped : isGroupKey key = true)
      (member : .object inner ∈ items) (names : Names inner name) : Names clause name

variable {allowed : List String} {table key : String} {value : Value} {clause : Clause}

/-! ## Checking columns -/

/-- Whether an entry of a clause passes the check of columns. -/
def Passes (allowed : List String) (key : String) (value : Value) : Prop :=
  if isGroupKey key then checkGroupShape key value = .ok () ∧ checkGroup allowed value = .ok ()
  else key ∈ allowed

/-- A clause passes the check iff each of its entries does. -/
theorem check_eq_ok_iff :
    check allowed clause = .ok () ↔ ∀ entry ∈ clause, Passes allowed entry.1 entry.2 := by
  induction clause with
  | nil => simp [check]
  | cons entry rest ih =>
    obtain ⟨key, value⟩ := entry
    rw [check, List.forall_mem_cons, ← ih, Passes]
    dsimp only
    split
    · rw [andThen_eq_ok_iff, andThen_eq_ok_iff, and_assoc]
    · -- An unknown column ends the check, so that the rest does not matter.
      by_cases known : key ∈ allowed
      · simp [known]
      · simp only [List.contains_eq_mem, known, decide_false, Bool.not_false, if_true, false_and,
          iff_false]
        rintro ⟨⟩

/-- Items pass the check iff each of them does. -/
theorem checkItems_eq_ok_iff {items : List Value} :
    checkItems allowed items = .ok () ↔ ∀ item ∈ items, checkItem allowed item = .ok () := by
  induction items with
  | nil => simp [checkItems]
  | cons item rest ih => rw [checkItems, andThen_eq_ok_iff, List.forall_mem_cons, ih]

/-- **What passes the check** names allowed columns only. -/
theorem mem_of_names {name : String} (checked : check allowed clause = .ok ())
    (names : Names clause name) : name ∈ allowed := by
  induction names with
  | column mem plain =>
    have passes := check_eq_ok_iff.mp checked _ mem
    rwa [Passes, plain] at passes
  | group mem grouped member _ ih =>
    have passes := check_eq_ok_iff.mp checked _ mem
    rw [Passes, if_pos grouped] at passes
    exact ih (checkItems_eq_ok_iff.mp passes.2 _ member)

/-! ## Making conditions -/

/-- The conditions of an entry of a clause. -/
def entryConditions (table key : String) (value : Value) : Except ClauseError (List Condition) :=
  if isGroupKey key then do
    checkGroupShape key value
    let groups ← groupConditions table value
    return [groupCondition key groups]
  else columnConditions ⟨table, key⟩ value

/-- The conditions of a clause are those of its entries, one after the other. -/
theorem conditions_eq (table : String) (clause : Clause) :
    conditions table clause =
      List.flatten <$> clause.mapM fun entry => entryConditions table entry.1 entry.2 := by
  induction clause with
  | nil => rfl
  | cons entry rest ih =>
    rw [conditions, ih, List.mapM_cons, entryConditions]
    dsimp only
    split <;> simp

/-- The conditions of items are one for each. -/
theorem itemConditions_eq (table : String) (items : List Value) :
    itemConditions table items = items.mapM (itemCondition table) := by
  induction items with
  | nil => rfl
  | cons item rest ih => rw [itemConditions, ih, List.mapM_cons]

/-- A clause has conditions iff each entry has. -/
theorem conditions_eq_ok_iff {wanted : List Condition} :
    conditions table clause = .ok wanted ↔
      ∃ parts, List.Forall₂ (fun entry part => entryConditions table entry.1 entry.2 = .ok part)
        clause parts ∧ parts.flatten = wanted := by
  rw [conditions_eq, map_eq_pure_bind, bind_eq_ok_iff]
  simp only [mapM_eq_ok_iff, pure, Except.pure, Except.ok.injEq]

/-- The conditions of several operators are about their column. -/
theorem about_operatorConditions {column : ColumnName} {operators : List (String × Value)}
    {wanted : List Condition} (given : operatorConditions column operators = .ok wanted) :
    ∀ condition ∈ wanted, condition.About column := by
  induction operators generalizing wanted with
  | nil =>
    cases given
    exact nofun
  | cons entry rest ih =>
    rw [operatorConditions] at given
    cases named : Operator.ofName? entry.1 with
    | none =>
      rw [named] at given
      cases given
    | some operator =>
      rw [named] at given
      obtain ⟨condition, stands, given⟩ := bind_eq_ok_iff.mp given
      obtain ⟨others, later, same⟩ := bind_eq_ok_iff.mp given
      cases same
      exact List.forall_mem_cons.mpr ⟨Operator.about_condition stands, ih later⟩

/-- **Induction on groups**: what is so of a clause if it is so of all clauses in its groups, is so
of every clause. -/
@[elab_as_elim]
theorem groupInduction {motive : Clause → Prop}
    (step : ∀ clause : Clause, (∀ key items inner, (key, Value.array items) ∈ clause →
      Value.object inner ∈ items → motive inner) → motive clause)
    (clause : Clause) : motive clause := by
  -- A clause in a group is a part of the whole.
  have smaller (key : String) (items : List Value) (inner : Clause)
      (mem : (key, Value.array items) ∈ clause) (member : Value.object inner ∈ items) :
      sizeOf inner < sizeOf clause := by
    have outer := List.sizeOf_lt_of_mem mem
    have within := List.sizeOf_lt_of_mem member
    simp only [Prod.mk.sizeOf_spec, Value.array.sizeOf_spec, Value.object.sizeOf_spec] at outer within
    omega
  exact step clause fun key items inner mem member => groupInduction step inner
termination_by sizeOf clause
decreasing_by exact smaller _ _ _ mem member

/-- Every item of a group is a clause. -/
theorem items_of_shape (shaped : checkGroupShape key value = .ok ()) :
    ∃ items, value = .array items ∧ ∀ item ∈ items, ∃ inner, item = .object inner := by
  unfold checkGroupShape at shaped
  split at shaped
  · cases shaped
  · cases value with
    | array items =>
      refine ⟨items, rfl, fun item mem => ?_⟩
      dsimp only at shaped
      split at shaped
      · next all =>
        have isObject := List.all_eq_true.mp all item mem
        cases item with
        | object inner => exact ⟨inner, rfl⟩
        | _ => cases isObject
      · cases shaped
    | _ => cases shaped

/-- A group has one condition, made of those of its clauses. -/
theorem entryConditions_eq_ok_iff (grouped : isGroupKey key = true) {part : List Condition} :
    entryConditions table key value = .ok part ↔
      checkGroupShape key value = .ok () ∧ ∃ groups, groupConditions table value = .ok groups ∧
        part = [groupCondition key groups] := by
  rw [entryConditions, if_pos grouped, andThen_eq_ok_iff, bind_eq_ok_iff]
  simp only [pure, Except.pure, Except.ok.injEq, eq_comm]

/-- A clause in a group has a condition iff it has conditions. -/
theorem itemCondition_eq_ok_iff {inner : Clause} {condition : Condition} :
    itemCondition table (.object inner) = .ok condition ↔
      ∃ wanted, conditions table inner = .ok wanted ∧ condition = .allOf wanted := by
  rw [itemCondition, bind_eq_ok_iff]
  simp only [pure, Except.pure, Except.ok.injEq, eq_comm]

/-- The condition of a group mentions what those of its clauses mention. -/
theorem mem_columns_groupCondition {groups : List Condition} {column : ColumnName} :
    column ∈ (groupCondition key groups).columns ↔ ∃ group ∈ groups, column ∈ group.columns := by
  rw [groupCondition]
  split
  · exact Condition.mem_columns_anyOf
  · exact Condition.mem_columns_allOf

/-- The conditions of a column are about it. -/
theorem about_columnConditions {column : ColumnName} {wanted : List Condition}
    (given : columnConditions column value = .ok wanted) :
    ∀ condition ∈ wanted, condition.About column := by
  cases value with
  | object operators => exact about_operatorConditions given
  | array items => cases given
  | _ =>
    cases given
    simp

/-- **Conditions mention named columns only**, those of the table. -/
theorem exists_names_of_mem_columns {wanted : List Condition} {condition : Condition}
    {column : ColumnName} (given : conditions table clause = .ok wanted)
    (mem : condition ∈ wanted) (mentioned : column ∈ condition.columns) :
    ∃ name, Names clause name ∧ column = ⟨table, name⟩ := by
  induction clause using groupInduction generalizing wanted condition with
  | step clause ih =>
    obtain ⟨parts, each, rfl⟩ := conditions_eq_ok_iff.mp given
    obtain ⟨part, ofPart, inPart⟩ := List.mem_flatten.mp mem
    obtain ⟨⟨key, value⟩, entry, made⟩ := exists_of_mem_right each ofPart
    by_cases grouped : isGroupKey key = true
    · obtain ⟨shaped, groups, makes, rfl⟩ := (entryConditions_eq_ok_iff grouped).mp made
      obtain ⟨items, same, objects⟩ := items_of_shape shaped
      cases same
      -- The column stems from the condition of a clause in the group.
      cases List.mem_singleton.mp inPart
      obtain ⟨group, ofGroup, mentioned⟩ := mem_columns_groupCondition.mp mentioned
      rw [groupConditions, itemConditions_eq, mapM_eq_ok_iff] at makes
      obtain ⟨item, member, made⟩ := exists_of_mem_right makes ofGroup
      obtain ⟨inner, rfl⟩ := objects item member
      obtain ⟨others, givenInner, rfl⟩ := itemCondition_eq_ok_iff.mp made
      obtain ⟨condition, mem, mentioned⟩ := Condition.mem_columns_allOf.mp mentioned
      obtain ⟨name, names, same⟩ := ih key items inner entry member givenInner mem mentioned
      exact ⟨name, .group entry grouped member names, same⟩
    · have plain : isGroupKey key = false := Bool.eq_false_iff.mpr grouped
      rw [entryConditions, if_neg grouped] at made
      exact ⟨key, .column entry plain, about_columnConditions made condition inPart column mentioned⟩

/-- **A clause that has conditions** passes the check of columns iff it names allowed ones only. -/
theorem check_eq_ok_iff_of_conditions (given : ∃ wanted, conditions table clause = .ok wanted) :
    check allowed clause = .ok () ↔ ∀ name, Names clause name → name ∈ allowed := by
  refine ⟨fun checked name names => mem_of_names checked names, fun all => ?_⟩
  -- By induction on groups: the clauses in the groups have conditions, too, and name no more.
  induction clause using groupInduction with
  | step clause ih =>
    obtain ⟨wanted, given⟩ := given
    obtain ⟨parts, each, -⟩ := conditions_eq_ok_iff.mp given
    have made : ∀ entry ∈ clause, ∃ part, entryConditions table entry.1 entry.2 = .ok part :=
      exists_forall₂_iff.mp ⟨parts, each⟩
    refine check_eq_ok_iff.mpr fun ⟨key, value⟩ entry => ?_
    obtain ⟨part, made⟩ := made _ entry
    rw [Passes]
    split
    · next grouped =>
      obtain ⟨shaped, groups, makes, -⟩ := (entryConditions_eq_ok_iff grouped).mp made
      obtain ⟨items, same, objects⟩ := items_of_shape shaped
      cases same
      refine ⟨shaped, checkItems_eq_ok_iff.mpr fun item member => ?_⟩
      rw [groupConditions, itemConditions_eq, mapM_eq_ok_iff] at makes
      obtain ⟨group, made⟩ := exists_forall₂_iff.mp ⟨groups, makes⟩ item member
      obtain ⟨inner, rfl⟩ := objects item member
      obtain ⟨others, givenInner, -⟩ := itemCondition_eq_ok_iff.mp made
      exact ih key items inner entry member ⟨others, givenInner⟩
        fun name names => all name (.group entry grouped member names)
    · next plain =>
      exact all key (.column entry (Bool.eq_false_iff.mpr plain))

end Clause

/-! ## Parameters -/

/-- Parameters **name** a column in their clause, at any depth, or in their order. -/
def ListParams.Names (params : ListParams) (name : String) : Prop :=
  (∃ clause, params.clause = some clause ∧ Clause.Names clause name) ∨
    name ∈ (params.order.getD []).keys

namespace Select

variable {query own result : Select} {columns : List String} {params : ListParams}
  {wanted : List Condition}

/-- A query with the order, the limit and the offset that parameters ask for. -/
def arranged (query : Select) (params : ListParams) : Select :=
  let sorted := { query with order := query.order ++ params.order.getD [] }
  let limited := sorted.withinLimit params.limit
  { limited with offset := params.offset.or limited.offset }

/-- Arranging rows concerns neither the table nor columns and conditions, and sorts further. -/
theorem frame_arranged (query : Select) (params : ListParams) :
    (query.arranged params).table = query.table ∧
      (query.arranged params).columns = query.columns ∧
      (query.arranged params).conditions = query.conditions ∧
      (query.arranged params).order = query.order ++ params.order.getD [] := by
  unfold arranged
  cases params.limit <;> exact ⟨rfl, rfl, rfl, rfl⟩

/-- Adding conditions does not change the order. -/
theorem order_satisfyingAll (query : Select) (conditions : List Condition) :
    (query.satisfyingAll conditions).order = query.order := by
  induction conditions generalizing query with
  | nil => rfl
  | cons first rest ih =>
    have same : (query.satisfying first).order = query.order := by
      rw [satisfying]
      split <;> rfl
    exact (ih _).trans same

/-- A clause filters a query that lists columns iff it has conditions and names listed columns
only. -/
theorem filter_eq_ok_iff {clause : Clause} (listed : query.columns ≠ []) :
    query.filter clause = .ok result ↔
      (∀ name, Clause.Names clause name → name ∈ query.columns) ∧
        ∃ wanted, Clause.conditions query.table clause = .ok wanted ∧
          query.satisfyingAll wanted = result := by
  have checks : (!query.columns.isEmpty) = true := by simpa using listed
  rw [filter, if_pos checks, andThen_eq_ok_iff, bind_eq_ok_iff]
  simp only [pure, Except.pure, Except.ok.injEq]
  constructor
  · rintro ⟨checked, wanted, given, same⟩
    exact ⟨fun name names => Clause.mem_of_names checked names, wanted, given, same⟩
  · rintro ⟨all, wanted, given, same⟩
    exact ⟨(Clause.check_eq_ok_iff_of_conditions ⟨wanted, given⟩).mpr all, wanted, given, same⟩

/-- Parameters apply to a query that lists columns iff their clause has conditions and names listed
columns only. -/
theorem apply_eq_ok_iff (listed : query.columns ≠ []) :
    query.apply params = .ok result ↔
      (∀ clause, params.clause = some clause →
        ∀ name, Clause.Names clause name → name ∈ query.columns) ∧
      ∃ wanted, Permissions.asked? params query.table = .ok wanted ∧
        (query.satisfyingAll wanted).arranged params = result := by
  rw [Permissions.asked?]
  unfold apply
  cases params.clause with
  | none =>
    constructor
    · intro applied
      cases applied
      exact ⟨by rintro _ ⟨⟩, [], rfl, rfl⟩
    · rintro ⟨-, _, same, rfl⟩
      cases same
      rfl
  | some clause =>
    have steps : ((query.filter clause).bind fun filtered => .ok (filtered.arranged params)) =
        .ok result ↔ _ := bind_eq_ok_iff
    refine steps.trans ?_
    simp only [filter_eq_ok_iff listed, Option.some.injEq, forall_eq']
    constructor
    · rintro ⟨_, ⟨all, wanted, given, rfl⟩, arranged⟩
      cases arranged
      exact ⟨all, wanted, given, rfl⟩
    · rintro ⟨all, wanted, given, rfl⟩
      exact ⟨_, ⟨all, wanted, given, rfl⟩, rfl⟩

/-- No column of an order is foreign iff all are given. -/
theorem foreignOrder?_eq_none {order : Option (Fields SortOrder)} :
    Relation.foreignOrder? columns order = .none ↔ ∀ name ∈ (order.getD []).keys, name ∈ columns := by
  simp [Relation.foreignOrder?]

/-- **There is a query** iff the clause has conditions and no column but the given ones is named. -/
theorem listing_eq_ok_iff (listed : columns ≠ []) :
    query.listing columns params = .ok result ↔
      (∀ name, params.Names name → name ∈ columns) ∧
      ∃ wanted, Permissions.asked? params query.table = .ok wanted ∧
        ((query.withColumns columns).satisfyingAll wanted).arranged params = result := by
  have applies : ∀ {result}, (query.withColumns columns).apply params = .ok result ↔ _ :=
    apply_eq_ok_iff listed
  have named : (∀ name, params.Names name → name ∈ columns) ↔
      (∀ clause, params.clause = some clause → ∀ name, Clause.Names clause name → name ∈ columns) ∧
        ∀ name ∈ (params.order.getD []).keys, name ∈ columns := by
    constructor
    · exact fun all => ⟨fun clause given name names => all name (.inl ⟨clause, given, names⟩),
        fun name mem => all name (.inr mem)⟩
    · rintro ⟨inClause, inOrder⟩ name (⟨clause, given, names⟩ | mem)
      · exact inClause clause given name names
      · exact inOrder name mem
  rw [named, ← foreignOrder?_eq_none]
  unfold listing
  cases applied : (query.withColumns columns).apply params with
  | error e =>
    -- The clause was refused, which it would not have been with listed columns only.
    refine ⟨nofun, ?_⟩
    rintro ⟨⟨inClause, -⟩, wanted, asked, -⟩
    cases applied.symm.trans (applies.mpr ⟨inClause, wanted, asked, rfl⟩)
  | ok other =>
    obtain ⟨inClause, wanted, asked, rfl⟩ := applies.mp applied
    -- The order is compared with the columns that the query has by then, which are the same.
    have columnsEq : (((query.withColumns columns).satisfyingAll wanted).arranged params).columns =
        columns := (frame_arranged _ params).2.1.trans (frame_satisfyingAll _ wanted).2.1
    dsimp only [Except.mapError]
    rw [columnsEq]
    cases Relation.foreignOrder? columns params.order with
    | none =>
      constructor
      · intro same
        cases same
        exact ⟨⟨inClause, rfl⟩, wanted, asked, rfl⟩
      · rintro ⟨-, other, askedToo, rfl⟩
        cases askedToo.symm.trans asked
        rfl
    | some column => exact ⟨nofun, fun both => nomatch both.1.2⟩

/-- A query **reads** columns on behalf of parameters. -/
structure Reads (query own : Select) (columns : List String) (params : ListParams) : Prop where
  /-- These columns are read, in this order. -/
  columns_eq : query.columns = columns
  /-- The text of the query lists them one by one. -/
  columnText_eq : query.columnText =
    ", ".intercalate (columns.map fun name => (query.column name).render)
  /-- What parameters add to the conditions mentions none but these columns. -/
  conditions_eq : ∃ wanted, Permissions.asked? params own.table = .ok wanted ∧
    query.conditions = (own.satisfyingAll wanted).conditions ∧
    (∀ condition ∈ query.conditions, condition ∈ own.conditions ∨ condition ∈ wanted) ∧
    ∀ condition ∈ wanted, ∀ column ∈ condition.columns, ∃ name ∈ columns, column = query.column name
  /-- Parameters add their order. -/
  order_eq : query.order = own.order ++ params.order.getD []
  /-- It sorts by none but these columns. -/
  sorts : ∀ name ∈ (params.order.getD []).keys, name ∈ columns

/-- An answer **lists** columns of the rows of a query as parameters ask for. -/
structure Lists (answer : Except Error Select) (own : Select) (columns : List String)
    (params : ListParams) : Prop where
  /-- There is a query iff the clause has conditions and no other column is named. -/
  succeeds_iff : (∃ query, answer = .ok query) ↔
    (∃ wanted, Permissions.asked? params own.table = .ok wanted) ∧
      ∀ name, params.Names name → name ∈ columns
  /-- Naming another column is an error. -/
  refuses : ∀ name, params.Names name → name ∉ columns → ∃ e, answer = .error e
  /-- The query reads the columns. -/
  reads : ∀ query, answer = .ok query → query.Reads own columns params

/-- Conditions that parameters ask for mention columns that their clause names. -/
theorem exists_clause_of_asked {table : String} {condition : Condition} {column : ColumnName}
    (asked : Permissions.asked? params table = .ok wanted) (mem : condition ∈ wanted)
    (mentioned : column ∈ condition.columns) :
    ∃ clause, params.clause = some clause ∧ ∃ name, Clause.Names clause name ∧
      column = ⟨table, name⟩ := by
  rw [Permissions.asked?] at asked
  cases given : params.clause with
  | none =>
    rw [given] at asked
    cases asked
    cases mem
  | some clause =>
    rw [given] at asked
    exact ⟨clause, rfl, Clause.exists_names_of_mem_columns asked mem mentioned⟩

/-- **The query of a list reads the given columns.** -/
theorem reads_of_listing (listed : columns ≠ [])
    (lists : query.listing columns params = .ok result) : result.Reads query columns params := by
  obtain ⟨all, wanted, asked, rfl⟩ := (listing_eq_ok_iff listed).mp lists
  obtain ⟨table, columnsEq, conditions, order⟩ :=
    frame_arranged ((query.withColumns columns).satisfyingAll wanted) params
  obtain ⟨tableKept, columnsKept, -⟩ := frame_satisfyingAll (query.withColumns columns) wanted
  have columnsEq := columnsEq.trans columnsKept
  have conditions := conditions.trans (congrArg Select.conditions
    (query.satisfyingAll_withColumns columns wanted))
  refine ⟨columnsEq, ?_, ⟨wanted, asked, conditions, ?_, ?_⟩, ?_, fun name mem => all name (.inr mem)⟩
  · -- The text would be `*` only if there were no column.
    have some : ¬ columns.isEmpty = true := by simpa using listed
    rw [columnText, columnsEq]
    exact if_neg some
  · intro condition mem
    rw [conditions] at mem
    exact mem_satisfyingAll mem
  · intro condition mem column mentioned
    obtain ⟨clause, given, name, names, rfl⟩ := exists_clause_of_asked asked mem mentioned
    refine ⟨name, all name (.inl ⟨clause, given, names⟩), ?_⟩
    rw [column, table, tableKept]
    rfl
  · rw [order, order_satisfyingAll]
    rfl

/-- **A list** of given columns is answered by a query, or refused, as it should be. -/
theorem lists_listing (listed : columns ≠ []) :
    Lists (query.listing columns params) query columns params := by
  refine ⟨?_, ?_, fun result lists => reads_of_listing listed lists⟩
  · constructor
    · rintro ⟨result, lists⟩
      obtain ⟨all, wanted, asked, -⟩ := (listing_eq_ok_iff listed).mp lists
      exact ⟨⟨wanted, asked⟩, all⟩
    · rintro ⟨⟨wanted, asked⟩, all⟩
      exact ⟨_, (listing_eq_ok_iff listed).mpr ⟨all, wanted, asked, rfl⟩⟩
  · intro name names foreign
    cases answer : query.listing columns params with
    | error e => exact ⟨e, rfl⟩
    | ok result => exact absurd (((listing_eq_ok_iff listed).mp answer).1 name names) foreign

end Select

end Sql

open Sql

/-- The primary key may always be read, so that there are columns to be read. -/
theorem Permissions.columnsOf_ne_nil (perms : Permissions Select) (table : Table) :
    perms.columnsOf table ≠ [] := by
  have key : table.primaryKey ∈ perms.columnsOf table :=
    List.mem_filter.mpr ⟨List.mem_cons_self, by simp [Table.isPrimaryKey]⟩
  exact List.ne_nil_of_mem key

namespace Relation

variable {S : Type} {site : Site S Select} {model : Model} {subject : S} {trust : Trust}
  {rel : Relation S Select} {params : ListParams}

/-- A panic of a bound relation is one of the rules of its subject. -/
theorem BoundTo.evaluate_of_panic {panic : Panic} {left : Relation S Select} {after : Trust}
    (bound : rel.BoundTo site model subject) (untrusted : trust.isActive = false)
    (panicked : (Relation.enforced site).startFrom rel trust = ((.error panic, left), after)) :
    ((site.evaluate model subject none).startFrom trust).1 = .error panic := by
  have inForce := Restriction.isEnforced_of_bound bound.restriction_eq untrusted
  rw [startFrom_enforced, Binding.startFrom_enforced inForce] at panicked
  have asked : ((Binding.permissions fun subject => site.evaluate rel.model subject none).startFrom
      rel.binding trust).1.1 = .error panic := by
    have mapped := congrArg (fun run => run.1.1) panicked
    dsimp only at mapped
    revert mapped
    cases ((Binding.permissions _).startFrom rel.binding trust).1.1 with
    | error other => exact fun same => congrArg Except.error (Except.error.inj same)
    | ok answer => exact nofun
  have evaluated := Binding.evaluate_of_panic bound.restriction_eq asked
  rwa [bound.model_eq] at evaluated

/-- What may be read where nothing is enforced: all fields. -/
theorem readableColumns_of_not_inForce
    (free : rel.binding.restriction.isEnforced trust = false) :
    (readableColumns site).startFrom rel trust =
      ((.ok rel.model.table.fieldNames, rel), trust) := by
  unfold readableColumns
  rw [RunOn.startFrom_bind, RunOn.startFrom_object]
  dsimp only
  rw [RunOn.startFrom_bind, enforced_of_not_inForce free]
  rfl

/-- What is listed where nothing is enforced: the rows of the relation's own query, with all
fields. -/
theorem select_of_not_inForce (free : rel.binding.restriction.isEnforced trust = false) :
    (select site params).startFrom rel trust =
      ((.ok (rel.query.listing rel.model.table.fieldNames params), rel), trust) :=
  startFrom_select (readableColumns_of_not_inForce free) (restrictedQuery_of_not_inForce free)

/-- **Lists read readable columns.** Outside trusted execution, the list of a bound relation, however
that was derived and used, reads exactly those fields of the table that are the primary key or
granted for reading, unless a rule panics. The conditions and the order that parameters ask for
concern no other column, at whatever depth their clause names it: naming another one is an error.
Where nothing is enforced the same holds with all fields of the table. -/
theorem select_readable (site : Site S Select) (rel : Relation S Select) (params : ListParams)
    (trust : Trust) :
    (∀ model subject, rel.BoundTo site model subject → trust.isActive = false →
      (∃ panic, ((site.evaluate model subject none).startFrom trust).1 = .error panic ∧
        ((select site params).startFrom rel trust).1.1 = .error panic) ∨
      ∃ perms answer, site.Gives model subject perms ∧
        ((select site params).startFrom rel trust).1.1 = .ok answer ∧
        Select.Lists answer (perms.confine rel.query)
          (model.table.fieldNames.filter fun field =>
            model.table.isPrimaryKey field || perms.isReadable field) params) ∧
    (rel.binding.restriction = .unbound ∨ trust.isActive = true →
      ∃ answer, ((select site params).startFrom rel trust).1.1 = .ok answer ∧
        Select.Lists answer rel.query rel.model.table.fieldNames params) := by
  constructor
  · intro model subject bound untrusted
    rcases bound.enforced untrusted with
      ⟨panic, left, panicked⟩ | ⟨perms, binding, gives, known, again⟩
    · exact .inl ⟨panic, bound.evaluate_of_panic untrusted panicked, select_of_panic panicked⟩
    · refine .inr ⟨perms, _, gives, by rw [select_of_enforced known again rfl], ?_⟩
      rw [bound.model_eq]
      exact Select.lists_listing (perms.columnsOf_ne_nil model.table)
  · intro free
    refine ⟨_, by rw [select_of_not_inForce (Restriction.isEnforced_of_free free)], ?_⟩
    exact Select.lists_listing (List.cons_ne_nil _ _)

/-- Where only titles are granted, a list reads titles and keys. It may ask for titles inside groups
and sort by them. It may not ask for secrets inside groups, which a list that is bound to nobody
may. -/
theorem select_readable_titles :
    let site : Site Unit Select :=
      { book := RuleBook.empty.create.1.register 0 (.plain (.grant .read [.field "title"])) }
    let model : Model := { table := Table.withFields "notes" ["title", "secret"], rules := 0 }
    let rel := moved site model () [.map fun query => query.filterEq "secret" .null, .clone]
    let asking (column : String) : ListParams :=
      { clause := some [("$and", .array
          [.object [("$or", .array [.object [(column, .string "x")], .object [("id", .int 1)]])]])]
        order := some [("title", .descending)] }
    let listed (query : Select) : Prop := ∃ perms, site.Gives model () perms ∧
      query.Reads (perms.confine rel.query) ["id", "title"] (asking "title")
    ({} : Trust).isActive = false ∧
      (∃ query, ((select site (asking "title")).startFrom rel {}).1.1 = .ok (.ok query) ∧
        listed query) ∧
      (∃ e, ((select site (asking "secret")).startFrom rel {}).1.1 = .ok (.error e)) ∧
      (all model : Relation Unit Select).binding.restriction = .unbound ∧
      ∃ query, ((select site (asking "secret")).startFrom (all model) {}).1.1 = .ok (.ok query) ∧
        query.Reads (Query.base model.table) ["id", "title", "secret"] (asking "secret") := by
  intro site model rel asking listed
  have bound : rel.BoundTo site model () := boundTo_moved site model () _
  let group (column : String) : Condition :=
    .either (.hasValue ⟨"notes", column⟩ (.string "x")) (.hasValue ⟨"notes", "id"⟩ (.int 1))
  refine ⟨rfl, ?_, ?_, rfl, ?_⟩
  · let query : Select :=
      { table := "notes", columns := ["id", "title"], order := [("title", .descending)]
        conditions := [.isNull ⟨"notes", "secret"⟩, group "title"] }
    have selects : ((select site (asking "title")).startFrom rel {}).1.1 = .ok (.ok query) := by cbv
    refine ⟨query, selects, ?_⟩
    rcases (select_readable site rel (asking "title") {}).1 model () bound rfl with
      ⟨panic, -, panicked⟩ | ⟨perms, answer, gives, answered, lists⟩
    · cases selects.symm.trans panicked
    · cases selects.symm.trans answered
      have reads := lists.reads query rfl
      rw [← reads.columns_eq] at reads
      exact ⟨perms, gives, reads⟩
  · -- Only whether the answer is an error matters, not its text.
    have fails : ((select site (asking "secret")).startFrom rel {}).1.1.toOption.map Except.isOk
        = some false := by decide +kernel
    rcases outcome : ((select site (asking "secret")).startFrom rel {}).1.1 with panic | e | query
    · rw [outcome] at fails
      cases fails
    · exact ⟨e, rfl⟩
    · rw [outcome] at fails
      cases fails
  · let query : Select :=
      { table := "notes", columns := ["id", "title", "secret"]
        order := [("title", .descending)], conditions := [group "secret"] }
    have selects : ((select site (asking "secret")).startFrom (all model) {}).1.1
        = .ok (.ok query) := by cbv
    obtain ⟨answer, answered, lists⟩ :=
      (select_readable site (all model) (asking "secret") {}).2 (.inl rfl)
    cases selects.symm.trans answered
    exact ⟨query, selects, lists.reads query rfl⟩

end Relation

end Warden
