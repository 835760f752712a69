import Warden.Proofs.Sql.Sameness
/-! # Merging SELECT queries
Merging adds the conditions of the second query to the first one, unless they are there already.
All its laws follow from one fact about adding conditions: it makes no difference whether a
condition is added before or after merging (`Sql.Select.satisfyingAll_satisfying`), since equality
of form passes from one condition to the next. So merging is associative
(`Sql.Select.merge_assoc`), and narrowing the second query narrows both together
(`Sql.Select.merge_apply`). Merging the same query again changes nothing if its conditions are
proper (`Sql.Select.merge_of_merged`), as those of queries made from documents are
(`Sql.Select.Built.isProper`). No operation gives up a condition, so that a query which means no row
keeps meaning none (`Sql.Select.isNone_of_performed`). -/

namespace Warden

namespace Sql

namespace Select

variable {query other : Select} {condition : Condition} {conditions : List Condition}

/-! ## Known conditions -/

/-- A condition that is known is not added. -/
theorem satisfying_of_known (known : query.hasCondition condition = true) :
    query.satisfying condition = query := if_pos known

/-- Nor are several. -/
theorem satisfyingAll_of_known
    (known : ∀ condition ∈ conditions, query.hasCondition condition = true) :
    query.satisfyingAll conditions = query := by
  induction conditions with
  | nil => rfl
  | cons first rest ih =>
    obtain ⟨one, others⟩ := List.forall_mem_cons.mp known
    rw [satisfyingAll, List.foldl_cons, satisfying_of_known one]
    exact ih others

/-- A proper condition that is demanded is known. -/
theorem Demands.known (demands : query.Demands condition) (proper : condition.IsProper) :
    query.hasCondition condition = true := by
  rcases demands with mem | known
  · exact List.any_eq_true.mpr ⟨condition, mem, proper⟩
  · exact known

/-- Where a condition is demanded, every condition that it has the form of is known. -/
theorem Demands.known_of_same (demands : query.Demands condition) {later : Condition}
    (same : condition.same later = true) : query.hasCondition later = true := by
  rcases demands with mem | known
  · exact List.any_eq_true.mpr ⟨condition, mem, same⟩
  · obtain ⟨one, mem, sameOne⟩ := List.any_eq_true.mp known
    exact List.any_eq_true.mpr ⟨one, mem, Condition.same_trans sameOne same⟩

/-- A condition is not added just where it is known. -/
theorem satisfying_eq_self_iff : query.satisfying condition = query ↔
    query.hasCondition condition = true := by
  refine ⟨fun same => ?_, satisfying_of_known⟩
  by_contra unknown
  have longer := congrArg (fun query => query.conditions.length) same
  rw [conditions_satisfying, if_neg unknown, List.length_append, List.length_singleton] at longer
  omega

/-- Of two conditions the second one is not added iff the first one is of the same form, or the
second was known before. -/
theorem satisfying_satisfying_eq_iff {first second : Condition} :
    (query.satisfying first).satisfying second = query.satisfying first ↔
      first.same second = true ∨ query.hasCondition second = true := by
  rw [satisfying_eq_self_iff]
  constructor
  · intro known
    rw [hasCondition, conditions_satisfying, List.any_append, Bool.or_eq_true] at known
    rcases known with before | added
    · exact .inr before
    · split at added
      · cases added
      · rw [List.any_cons, List.any_nil, Bool.or_false] at added
        exact .inl added
  · rintro (same | known)
    · exact (query.demands_satisfying first).known_of_same same
    · rw [hasCondition, conditions_satisfying, List.any_append, Bool.or_eq_true]
      exact .inl known

/-- **Before or after**: adding the conditions of a query with one more condition is adding those of
the query, and then the one. -/
theorem satisfyingAll_satisfying (query other : Select) (condition : Condition) :
    query.satisfyingAll (other.satisfying condition).conditions =
      (query.satisfyingAll other.conditions).satisfying condition := by
  cases known : other.hasCondition condition with
  | true =>
    -- What makes the condition known to `other` makes it known afterwards.
    obtain ⟨one, mem, same⟩ := List.any_eq_true.mp known
    have after := (query.demands_satisfyingAll mem).known_of_same same
    rw [satisfying_of_known known, satisfying_of_known after]
  | false =>
    rw [conditions_satisfying, known, if_neg Bool.false_ne_true, satisfyingAll, List.foldl_append]
    rfl

/-- So it is with several conditions. -/
theorem satisfyingAll_satisfyingAll (query other : Select) (conditions : List Condition) :
    query.satisfyingAll (other.satisfyingAll conditions).conditions =
      (query.satisfyingAll other.conditions).satisfyingAll conditions := by
  induction conditions generalizing other with
  | nil => rfl
  | cons first rest ih =>
    show query.satisfyingAll ((other.satisfying first).satisfyingAll rest).conditions = _
    rw [ih, satisfyingAll_satisfying]
    rfl

/-! ## Merging -/

/-- What a list of conditions becomes if others are added. -/
def joined (known conditions : List Condition) : List Condition :=
  (Select.satisfyingAll { table := "", conditions := known } conditions).conditions

/-- Adding conditions looks at the conditions only, and changes nothing else. -/
theorem satisfyingAll_eq (query : Select) (conditions : List Condition) :
    query.satisfyingAll conditions =
      { query with conditions := joined query.conditions conditions } := by
  induction conditions generalizing query with
  | nil => rfl
  | cons first rest ih =>
    have both : joined query.conditions (first :: rest) =
        joined (query.satisfying first).conditions rest := by
      rw [conditions_satisfying]
      show (Select.satisfyingAll (Select.satisfying _ first) rest).conditions = _
      rw [ih, conditions_satisfying]
      rfl
    show (query.satisfying first).satisfyingAll rest = _
    rw [ih, both, satisfying]
    split <;> rfl

/-- It does not matter which conditions are joined first. -/
theorem joined_joined (first second third : List Condition) :
    joined first (joined second third) = joined (joined first second) third := by
  show (Select.satisfyingAll { table := "", conditions := first }
    (Select.satisfyingAll { table := "", conditions := second } third).conditions).conditions = _
  rw [satisfyingAll_satisfyingAll, satisfyingAll_eq _ second]
  rfl

/-- Taking a limit over changes the limit only. -/
theorem withinLimit_eq (query : Select) (limit : Option Nat) :
    query.withinLimit limit = { query with limit := query.limit.merge min limit } := by
  cases limit with
  | none =>
    rw [Option.merge_none_right]
    rfl
  | some limit =>
    show query.atMost limit = _
    rw [atMost]
    cases query.limit <;> rfl

/-- **What merging comes to**: conditions are joined, the smaller limit holds, and the first offset
is kept. -/
theorem merge_eq (query other : Select) :
    query.merge other =
      { query with
        conditions := joined query.conditions other.conditions
        limit := query.limit.merge min other.limit
        offset := query.offset.or other.offset } := by
  rw [merge, withinLimit_eq, satisfyingAll_eq]

/-- **Merging is associative.** -/
theorem merge_assoc (query other third : Select) :
    (query.merge other).merge third = query.merge (other.merge third) := by
  simp only [merge_eq, joined_joined, Option.or_assoc,
    (Option.associative_merge min).assoc query.limit other.limit third.limit]

/-- A query whose conditions and limits are known changes nothing. -/
theorem merge_of_known
    (known : ∀ condition ∈ other.conditions, query.hasCondition condition = true)
    (limited : query.limit.merge min other.limit = query.limit)
    (passed : query.offset.or other.offset = query.offset) : query.merge other = query := by
  have same : joined query.conditions other.conditions = query.conditions := by
    have unchanged := congrArg Select.conditions (satisfyingAll_of_known known)
    rw [satisfyingAll_eq] at unchanged
    exact unchanged
  rw [merge_eq, limited, passed, same]

/-- A limit does not get smaller if it is taken over twice. -/
theorem merge_min_self (limit : Option Nat) : limit.merge min limit = limit := by
  cases limit with
  | none => rfl
  | some limit => exact congrArg some (min_self limit)

/-- **Merging a query with itself** changes nothing. -/
theorem merge_self (proper : ∀ condition ∈ query.conditions, condition.IsProper) :
    query.merge query = query := by
  refine merge_of_known (fun condition mem => ?_) (merge_min_self _) Option.or_self
  exact Demands.known (.inl mem) (proper condition mem)

/-- Merging adds the conditions of the second query. -/
theorem conditions_merge (query other : Select) :
    (query.merge other).conditions = (query.satisfyingAll other.conditions).conditions :=
  conditions_withinLimit _ _

/-- The conditions of both queries are demanded. -/
theorem demands_merge (query other : Select) :
    query.conditions <+: (query.merge other).conditions ∧
      ∀ condition ∈ other.conditions, (query.merge other).Demands condition := by
  have merged := query.conditions_merge other
  refine ⟨merged ▸ query.prefix_satisfyingAll _, fun condition mem => ?_⟩
  exact (query.demands_satisfyingAll mem).mono (merged ▸ List.prefix_rfl)

/-- No other conditions are. -/
theorem mem_merge (mem : condition ∈ (query.merge other).conditions) :
    condition ∈ query.conditions ∨ condition ∈ other.conditions :=
  mem_satisfyingAll (query.conditions_merge other ▸ mem)

/-- **Merging a query again** changes nothing. -/
theorem merge_of_merged (proper : ∀ condition ∈ other.conditions, condition.IsProper) :
    (query.merge other).merge other = query.merge other := by
  refine merge_of_known (fun condition mem => ?_) ?_ ?_
  · exact ((query.demands_merge other).2 condition mem).known (proper condition mem)
  · rw [merge_eq, (Option.associative_merge min).assoc, merge_min_self]
  · rw [merge_eq, Option.or_assoc, Option.or_self]

/-- **Narrowing the second query** narrows both together. -/
theorem merge_apply (sameTable : query.table = other.table) (narrowing : Narrowing) :
    query.merge (narrowing.apply other) = narrowing.apply (query.merge other) := by
  simp only [Narrowing.apply_eq, withinLimit_eq, satisfyingAll_eq, merge_eq, joined_joined,
    sameTable, (Option.associative_merge min).assoc query.limit other.limit]

/-- Merging with all rows of a table changes nothing. -/
theorem merge_base (query : Select) (table : Table) : query.merge (Query.base table) = query :=
  merge_of_known nofun Option.merge_none_right (Option.or_none)

/-! ## Operations -/

/-- One way to make a query from another one. -/
inductive Operation where
  /-- Only rows in which a column has a value. -/
  | filterEq (column : String) (value : Value)
  /-- Only rows in which a column has one of several values. -/
  | filterIn (column : String) (values : List Value)
  /-- Only rows that satisfy a clause. -/
  | filter (clause : Clause)
  /-- Sort by one more column. -/
  | orderBy (column : String) (order : SortOrder)
  /-- At most so many rows. -/
  | atMost (limit : Nat)
  /-- Pass over so many rows. -/
  | skipping (offset : Nat)
  /-- Only what parameters ask for. -/
  | apply (params : ListParams)
  /-- No row at all. -/
  | nothing
  /-- Merge another query into this one. -/
  | merge (other : Select)
  /-- Merge this query into another one. -/
  | mergeInto (other : Select)

namespace Operation

/-- Perform an operation; a clause may be refused. -/
def perform (query : Select) : Operation → Except ClauseError Select
  | .filterEq column value => .ok (query.filterEq column value)
  | .filterIn column values => .ok (query.filterIn column values)
  | .filter clause => query.filter clause
  | .orderBy column order => .ok (query.orderBy column order)
  | .atMost limit => .ok (query.atMost limit)
  | .skipping offset => .ok (query.skipping offset)
  | .apply params => query.apply params
  | .nothing => .ok query.none
  | .merge other => .ok (query.merge other)
  | .mergeInto other => .ok (other.merge query)

/-- Whether documents can hold all values that an operation mentions. -/
def IsJson : Operation → Prop
  | .filterEq _ value => value.IsJson
  | .filterIn _ values => ∀ value ∈ values, value.IsJson
  | .filter clause => clause.IsJson
  | .apply params => ∀ clause, params.clause = some clause → clause.IsJson
  | _ => True

/-- The other query that an operation needs. -/
def partner? : Operation → Option Select
  | .merge other | .mergeInto other => some other
  | _ => .none

variable {result : Select} {operation : Operation}

/-- **One operation** gives up no condition. -/
theorem demands_perform (performed : operation.perform query = .ok result)
    (mem : condition ∈ query.conditions) : result.Demands condition := by
  have kept {other : Select} (all : query.conditions <+: other.conditions) :
      other.Demands condition := .inl (all.subset mem)
  have one (added : Condition) : query.conditions <+: (query.satisfying added).conditions :=
    query.prefix_satisfyingAll [added]
  cases operation with
  | filterEq column value =>
    cases performed
    exact kept (one _)
  | filterIn column values =>
    cases performed
    exact kept (one _)
  | filter clause =>
    obtain ⟨conditions, -, rfl⟩ := filter_eq_ok performed
    exact kept (query.prefix_satisfyingAll conditions)
  | apply params =>
    obtain ⟨wanted, -, conditions, -⟩ := apply_eq_ok performed
    exact kept (conditions ▸ query.prefix_satisfyingAll wanted)
  | nothing =>
    cases performed
    exact kept (one _)
  | merge other =>
    cases performed
    exact kept (query.demands_merge other).1
  | mergeInto other =>
    cases performed
    exact (other.demands_merge query).2 condition mem
  | _ =>
    cases performed
    exact .inl mem

end Operation

/-! ## No row -/

/-- A query means no row if it has the condition without rows. -/
theorem isNone_iff : query.isNone = true ↔ .never ∈ query.conditions :=
  ⟨fun known => never_mem (.inr known), fun mem => List.any_eq_true.mpr ⟨.never, mem, rfl⟩⟩

/-- Such a query has no rows, whichever tests a row passes. -/
theorem not_holds_of_isNone (known : query.isNone = true) (passes : Condition → Prop) :
    ¬ (Condition.allOf query.conditions).Holds passes :=
  fun holds => Condition.holds_allOf.mp holds .never (isNone_iff.mp known)

/-- **No operations** bring rows back. -/
theorem isNone_of_performed {operations : List Operation} {later : Select}
    (known : query.isNone = true)
    (performed : operations.foldlM Operation.perform query = .ok later) :
    later.isNone = true := by
  induction operations generalizing query with
  | nil =>
    cases performed
    exact known
  | cons operation rest ih =>
    rw [List.foldlM_cons] at performed
    obtain ⟨between, first, others⟩ := bind_eq_ok_iff.mp performed
    have demanded := operation.demands_perform first (isNone_iff.mp known)
    exact ih (isNone_iff.mpr (never_mem demanded)) others

/-! ## Queries of documents -/

/-- A query is **built** from documents: it starts with all rows of a table, and every operation
takes its values from a document and is given built queries only. -/
inductive Built : Select → Prop where
  /-- All rows of a table. -/
  | all (table : String) (columns : List String) : Built { table, columns }
  /-- One more operation. -/
  | performed {query result : Select} {operation : Operation} (built : Built query)
    (json : operation.IsJson) (partners : ∀ other, operation.partner? = some other → Built other)
    (performs : operation.perform query = .ok result) : Built result

/-- Built queries have proper conditions. -/
theorem Built.isProper (built : query.Built) :
    ∀ condition ∈ query.conditions, condition.IsProper := by
  -- By induction on how the query was built, and then by cases on the last operation.
  induction built with
  | all table columns =>
    intro condition mem
    cases mem
  | @performed query result operation built json partners performs ih ihPartners =>
    -- What an operation adds is proper if all that it adds is.
    have adds {conditions : List Condition}
        (proper : ∀ condition ∈ conditions, condition.IsProper) :
        ∀ condition ∈ (query.satisfyingAll conditions).conditions, condition.IsProper :=
      fun condition mem => (mem_satisfyingAll mem).elim (ih condition) (proper condition)
    have one {added : Condition} (proper : added.IsProper) :=
      adds (List.forall_mem_singleton.mpr proper)
    cases operation with
    | filterEq column value =>
      cases performs
      exact one (Condition.isProper_hasValue json)
    | filterIn column values =>
      cases performs
      exact one (Condition.isProper_hasAnyValue json)
    | filter clause =>
      obtain ⟨conditions, given, rfl⟩ := filter_eq_ok performs
      exact adds (Clause.isProper_of_conditions json given)
    | apply params =>
      obtain ⟨wanted, given, conditions, -⟩ := apply_eq_ok performs
      rw [conditions]
      refine adds ?_
      rw [Permissions.asked?] at given
      cases asked : params.clause with
      | none =>
        rw [asked] at given
        cases given
        intro condition mem
        cases mem
      | some clause =>
        rw [asked] at given
        exact Clause.isProper_of_conditions (json clause asked) given
    | nothing =>
      cases performs
      exact one rfl
    | merge other =>
      cases performs
      intro condition mem
      exact (mem_merge mem).elim (ih condition) (ihPartners other rfl condition)
    | mergeInto other =>
      cases performs
      intro condition mem
      exact (mem_merge mem).elim (ihPartners other rfl condition) (ih condition)
    | _ =>
      cases performs
      exact ih

end Select

end Sql

end Warden
