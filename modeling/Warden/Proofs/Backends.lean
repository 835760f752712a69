import Mathlib
import Warden.Proofs.Equality
import Warden.Proofs.Merging
/-! # What queries of both kinds mean
Scopes and associations put queries together without knowing of which kind they are. Such a
**recipe** (`Recipe`) builds a query over rows in memory as well as one in SQL. Whether a row in
memory is admitted is known (`MemoryQuery.admits`); what SQL makes of a row follows the standard
(`Sql.Condition.truth`): comparing with null is neither true nor false, and only a condition that is
true keeps the row.

For values of the usual kinds of columns, the row is in the result of the SQL query iff it is
admitted in memory, unless it has null in a field and a recipe asks for null among several values
(`Recipe.holds_iff_admits`). In memory null is one of those values, in SQL it is not
(`Recipe.null_among_values`). Asked for alone, null is found on either side. -/

namespace Warden

namespace Sql

/-! ## Three truth values -/

/-- Both of two statements, one or both of which may be unknown. -/
def bothTrue : Option Bool → Option Bool → Option Bool
  | some false, _ | _, some false => some false
  | some true, some true => some true
  | _, _ => none

/-- One of two statements. -/
def eitherTrue : Option Bool → Option Bool → Option Bool
  | some true, _ | _, some true => some true
  | some false, some false => some false
  | _, _ => none

theorem eitherTrue_eq_true {a b : Option Bool} :
    eitherTrue a b = some true ↔ a = some true ∨ b = some true := by
  rcases a with _ | _ | _ <;> rcases b with _ | _ | _ <;> decide

namespace Literal

/-- Whether two literals are equal, which is unknown of null. -/
def equals (a b : Literal) : Option Bool :=
  if a = .null ∨ b = .null then none else some (a.same b)

/-- Whether a literal is equal to one of several. -/
def among (a : Literal) : List Literal → Option Bool
  | [] => some false
  | b :: rest => eitherTrue (a.equals b) (a.among rest)

theorem among_eq_true {a : Literal} {literals : List Literal} :
    a.among literals = some true ↔ ∃ b ∈ literals, a.equals b = some true := by
  induction literals with
  | nil => simp [among]
  | cons b rest ih => rw [among, eitherTrue_eq_true, ih, List.exists_mem_cons_iff]

/-- Whether literals of the same form as this one are equal to it. -/
def Discrete (literal : Literal) : Prop := ∀ x, literal ≠ .double x

theorem eq_of_same {a b : Literal} (discrete : b.Discrete) (same : a.same b = true) : a = b := by
  cases a with
  | double x =>
    cases b with
    | double y => exact absurd rfl (discrete y)
    | _ => cases same
  | _ => cases b <;> simp_all [Literal.same]

end Literal

namespace Condition

/-- Whether a condition is **true** of a row with given cells, by the standard. Order and patterns
depend on the database, and are left to a further reading. -/
def truth (cell : ColumnName → Literal) (further : Condition → Option Bool) :
    Condition → Option Bool
  | .never => some false
  | .always => some true
  | .compare .eq column literal => (cell column).equals literal
  | .compare .ne column literal => ((cell column).equals literal).map not
  | .isNull column => some (decide (cell column = .null))
  | .isNotNull column => some (decide (cell column ≠ .null))
  | .isIn column literals => (cell column).among literals
  | .isNotIn column literals => ((cell column).among literals).map not
  | .both a b => bothTrue (a.truth cell further) (b.truth cell further)
  | .either a b => eitherTrue (a.truth cell further) (b.truth cell further)
  | test => further test

/-- Whether conditions of the same form as this one are equal to it. -/
def Discrete : Condition → Prop
  | .never | .isNull _ => True
  | .compare .eq _ literal => literal.Discrete
  | .isIn _ literals => ∀ literal ∈ literals, literal.Discrete
  | _ => False

theorem eq_of_sameLiterals {as bs : List Literal} (discrete : ∀ b ∈ bs, b.Discrete)
    (same : sameLiterals as bs = true) : as = bs := by
  induction as generalizing bs with
  | nil =>
    cases bs with
    | nil => rfl
    | cons b bs => cases same
  | cons a as ih =>
    cases bs with
    | nil => cases same
    | cons b bs =>
      rw [sameLiterals, Bool.and_eq_true] at same
      rw [List.forall_mem_cons] at discrete
      rw [Literal.eq_of_same discrete.1 same.1, ih discrete.2 same.2]

theorem eq_of_same {one other : Condition} (discrete : other.Discrete)
    (same : one.same other = true) : one = other := by
  cases other with
  | never => exact same_never same
  | isNull column =>
    cases one with
    | isNull c => simp_all [Condition.same]
    | _ => cases same
  | compare comparison column literal =>
    cases one with
    | compare p c a =>
      cases comparison with
      | eq =>
        simp only [Condition.same, Bool.and_eq_true, beq_iff_eq] at same
        rw [same.1.1, same.1.2, Literal.eq_of_same discrete same.2]
      | _ => exact discrete.elim
    | _ => cases same
  | isIn column literals =>
    cases one with
    | isIn c as =>
      simp only [Condition.same, Bool.and_eq_true, beq_iff_eq] at same
      rw [same.1, eq_of_sameLiterals discrete same.2]
    | _ => cases same
  | _ => exact discrete.elim

end Condition

/-- A discrete condition that is demanded is there. -/
theorem Select.Demands.mem {query : Select} {condition : Condition}
    (demands : query.Demands condition) (discrete : condition.Discrete) :
    condition ∈ query.conditions := by
  rcases demands with mem | known
  · exact mem
  · obtain ⟨one, mem, same⟩ := List.any_eq_true.mp known
    exact Condition.eq_of_same discrete same ▸ mem

/-- Discrete conditions are added to those that are there. -/
theorem Select.mem_satisfyingAll_iff {query : Select} {conditions : List Condition}
    {condition : Condition} (discrete : ∀ condition ∈ conditions, condition.Discrete) :
    condition ∈ (query.satisfyingAll conditions).conditions ↔
      condition ∈ query.conditions ∨ condition ∈ conditions := by
  refine ⟨mem_satisfyingAll, ?_⟩
  rintro (before | added)
  · exact (query.prefix_satisfyingAll conditions).subset before
  · exact (query.demands_satisfyingAll added).mem (discrete condition added)

end Sql

open Sql

/-! ## Columns with one kind of values -/

/-- A kind of values that a column holds. -/
inductive FieldKind where
  /-- Texts. -/
  | text
  /-- Signed words. -/
  | word
  /-- Truth values. -/
  | truth
  deriving DecidableEq, Repr

/-- Whether a value is null or of a kind. -/
def FieldKind.Has : FieldKind → Value → Prop
  | _, .null => True
  | .text, .string _ => True
  | .word, .number n => n.word?.isSome = true
  | .truth, .bool _ => True
  | _, _ => False

namespace FieldKind

variable {kind : FieldKind} {stored value : Value}

/-- The literal of a value of a kind is discrete. -/
theorem discrete_ofValue (has : kind.Has value) : (Literal.ofValue value).Discrete := by
  intro x same
  cases value with
  | number n =>
    cases kind with
    | word =>
      obtain ⟨m, isWord⟩ := Option.isSome_iff_exists.mp has
      rw [Literal.ofValue, isWord] at same
      cases same
    | _ => exact has.elim
  | _ => cases same

/-- Of two values of a kind, the literals are equal iff the values are and are not null. -/
theorem equals_ofValue (hasStored : kind.Has stored) (hasValue : kind.Has value) :
    (Literal.ofValue stored).equals (.ofValue value) = some true ↔
      stored ≠ .null ∧ stored.equal value = true := by
  cases stored with
  | null => simp [Literal.ofValue, Literal.equals]
  | string text =>
    cases value with
    | null => simp [Literal.ofValue, Literal.equals, Value.equal, Value.same]
    | string other => simp [Literal.ofValue, Literal.equals, Value.equal, Value.same, Literal.same]
    | _ => cases kind <;> first | exact hasStored.elim | exact hasValue.elim
  | bool b =>
    cases value with
    | null => simp [Literal.ofValue, Literal.equals, Value.equal, Value.same]
    | bool c => simp [Literal.ofValue, Literal.equals, Value.equal, Value.same, Literal.same]
    | _ => cases kind <;> first | exact hasStored.elim | exact hasValue.elim
  | number m =>
    cases kind with
    | word =>
      obtain ⟨a, isWord⟩ := Option.isSome_iff_exists.mp hasStored
      cases value with
      | null =>
        simp [Literal.ofValue, isWord, Literal.equals, Value.equal, Value.same]
      | number n =>
        -- Signed words are compared exactly on both sides.
        obtain ⟨b, isOther⟩ := Option.isSome_iff_exists.mp hasValue
        simp [Literal.ofValue, isWord, isOther, Literal.equals, Literal.same, Value.equal,
          Number.compare?]
      | _ => exact hasValue.elim
    | _ => exact hasStored.elim
  | _ => cases kind <;> exact hasStored.elim

/-- A value of a kind is null iff its literal is. -/
theorem ofValue_eq_null (has : kind.Has stored) :
    Literal.ofValue stored = .null ↔ stored = .null := by
  cases stored with
  | number n =>
    cases kind with
    | word =>
      obtain ⟨m, isWord⟩ := Option.isSome_iff_exists.mp has
      simp [Literal.ofValue, isWord]
    | _ => exact has.elim
  | _ => simp [Literal.ofValue]

end FieldKind

/-- A value is equal to null iff it is null. -/
theorem Value.equal_null {value : Value} : value.equal .null = true ↔ value = .null := by
  cases value <;> simp [equal, same]

namespace Sql.Condition

variable {kind : FieldKind} {stored value : Value} {values : List Value}
  {cell : ColumnName → Literal} {further : Condition → Option Bool} {column : ColumnName}

/-- Having a value is a comparison unless the value is null. -/
theorem hasValue_of_ne_null (some : value ≠ .null) :
    Condition.hasValue column value = .compare .eq column (.ofValue value) := by
  cases value with
  | null => exact absurd rfl some
  | _ => rfl

/-- Having a value is true iff the values are equal, null included. -/
theorem truth_hasValue (reads : cell column = .ofValue stored) (hasStored : kind.Has stored)
    (hasValue : kind.Has value) :
    (Condition.hasValue column value).truth cell further = some true ↔
      stored.equal value = true := by
  by_cases null : value = .null
  · rw [null, Condition.hasValue, truth, reads, Value.equal_null,
      ← kind.ofValue_eq_null hasStored, Option.some.injEq, decide_eq_true_eq]
  · have some : stored.equal value = true → stored ≠ .null := by
      rintro equal rfl
      rw [Value.equal_comm, Value.equal_null] at equal
      exact null equal
    rw [hasValue_of_ne_null null, truth, reads, kind.equals_ofValue hasStored hasValue]
    exact ⟨And.right, fun equal => ⟨some equal, equal⟩⟩

/-- Having one of several values is true iff one of them is equal and the value is not null. -/
theorem truth_hasAnyValue (reads : cell column = .ofValue stored) (hasStored : kind.Has stored)
    (hasValues : ∀ value ∈ values, kind.Has value) :
    (Condition.hasAnyValue column values).truth cell further = some true ↔
      values.any (stored.equal ·) = true ∧ (.null ∈ values → stored ≠ .null) := by
  have among : (Literal.ofValue stored).among (values.map Literal.ofValue) = some true ↔
      ∃ value ∈ values, stored ≠ .null ∧ stored.equal value = true := by
    rw [Literal.among_eq_true]
    constructor
    · rintro ⟨_, listed, equals⟩
      obtain ⟨value, mem, rfl⟩ := List.mem_map.mp listed
      exact ⟨value, mem, (kind.equals_ofValue hasStored (hasValues value mem)).mp equals⟩
    · rintro ⟨value, mem, both⟩
      exact ⟨_, List.mem_map_of_mem mem,
        (kind.equals_ofValue hasStored (hasValues value mem)).mpr both⟩
  have truthEq : (Condition.hasAnyValue column values).truth cell further =
      (cell column).among (values.map Literal.ofValue) := by
    cases values <;> rfl
  rw [truthEq, reads, among, List.any_eq_true]
  constructor
  · rintro ⟨value, mem, some, equal⟩
    exact ⟨⟨value, mem, equal⟩, fun _ => some⟩
  · rintro ⟨⟨value, mem, equal⟩, some⟩
    refine ⟨value, mem, ?_, equal⟩
    -- A value that is null is equal to null only, which then is among the values.
    rintro rfl
    rw [Value.equal_comm, Value.equal_null] at equal
    exact some (equal ▸ mem) rfl

/-- The conditions that are made for values of a kind are discrete. -/
theorem discrete_hasValue (has : kind.Has value) : (Condition.hasValue column value).Discrete := by
  by_cases null : value = .null
  · rw [null]
    trivial
  · rw [hasValue_of_ne_null null]
    exact kind.discrete_ofValue has

theorem discrete_hasAnyValue (has : ∀ value ∈ values, kind.Has value) :
    (Condition.hasAnyValue column values).Discrete := by
  cases values with
  | nil => trivial
  | cons first rest =>
    intro literal listed
    obtain ⟨value, mem, rfl⟩ := List.mem_map.mp listed
    exact kind.discrete_ofValue (has value mem)

end Sql.Condition

/-! ## Recipes -/

/-- A **recipe** for a query of any kind, beginning with all rows of a table. -/
inductive Recipe where
  /-- All rows. -/
  | base
  /-- Only rows in which a field has a value. -/
  | filterEq (recipe : Recipe) (field : String) (value : Value)
  /-- Only rows in which a field has one of several values. -/
  | filterIn (recipe : Recipe) (field : String) (values : List Value)
  /-- No row. -/
  | none (recipe : Recipe)
  /-- What both recipes describe. -/
  | merge (recipe other : Recipe)

namespace Recipe

/-- The query that a recipe describes. -/
def build {Q : Type} [Query Q] (table : Table) : Recipe → Q
  | .base => Query.base table
  | .filterEq recipe field value => Query.filterEq (recipe.build table) field value
  | .filterIn recipe field values => Query.filterIn (recipe.build table) field values
  | .none recipe => Query.none (recipe.build table)
  | .merge recipe other => Query.merge (recipe.build table) (other.build table)

/-- The fields of which one of several values is asked, with the values. -/
def lists : Recipe → List (String × List Value)
  | .base => []
  | .filterEq recipe _ _ => recipe.lists
  | .filterIn recipe field values => (field, values) :: recipe.lists
  | .none recipe => recipe.lists
  | .merge recipe other => recipe.lists ++ other.lists

/-- Whether a recipe asks for fields of a table, and for values of their kinds. -/
def Fits (table : Table) (kinds : String → FieldKind) : Recipe → Prop
  | .base => True
  | .filterEq recipe field value =>
    recipe.Fits table kinds ∧ field ∈ table.fieldNames ∧ (kinds field).Has value
  | .filterIn recipe field values => recipe.Fits table kinds ∧ field ∈ table.fieldNames ∧
      ∀ value ∈ values, (kinds field).Has value
  | .none recipe => recipe.Fits table kinds
  | .merge recipe other => recipe.Fits table kinds ∧ other.Fits table kinds

variable {table : Table} {kinds : String → FieldKind} {recipe : Recipe} {row : Row}
  {further : Condition → Option Bool}

/-- The SQL query is one of the table. -/
theorem table_build (table : Table) (recipe : Recipe) :
    (recipe.build table : Select).table = table.name := by
  induction recipe with
  | base => rfl
  | filterEq recipe field value ih =>
    exact ((recipe.build table : Select).frame_satisfyingAll [_]).1.trans ih
  | filterIn recipe field values ih =>
    exact ((recipe.build table : Select).frame_satisfyingAll [_]).1.trans ih
  | none recipe ih => exact ((recipe.build table : Select).frame_satisfyingAll [_]).1.trans ih
  | merge recipe other ih _ =>
    refine Eq.trans (Select.table_withinLimit _ _) ?_
    exact ((recipe.build table : Select).frame_satisfyingAll _).1.trans ih

/-- The conditions of a recipe, in no particular order. -/
def conditions (table : Table) : Recipe → List Condition
  | .base => []
  | .filterEq recipe field value =>
    .hasValue ⟨table.name, field⟩ value :: recipe.conditions table
  | .filterIn recipe field values =>
    .hasAnyValue ⟨table.name, field⟩ values :: recipe.conditions table
  | .none recipe => .never :: recipe.conditions table
  | .merge recipe other => recipe.conditions table ++ other.conditions table

/-- The conditions of a recipe that fits are discrete. -/
theorem discrete_conditions (fits : recipe.Fits table kinds) :
    ∀ condition ∈ recipe.conditions table, condition.Discrete := by
  induction recipe with
  | base => exact nofun
  | filterEq recipe field value ih =>
    exact List.forall_mem_cons.mpr ⟨Condition.discrete_hasValue fits.2.2, ih fits.1⟩
  | filterIn recipe field values ih =>
    exact List.forall_mem_cons.mpr ⟨Condition.discrete_hasAnyValue fits.2.2, ih fits.1⟩
  | none recipe ih => exact List.forall_mem_cons.mpr ⟨trivial, ih fits⟩
  | merge recipe other ih ihOther =>
    exact List.forall_mem_append.mpr ⟨ih fits.1, ihOther fits.2⟩

/-- **The SQL query has the conditions of the recipe**, though none of them twice. -/
theorem mem_conditions_build (fits : recipe.Fits table kinds) {condition : Condition} :
    condition ∈ (recipe.build table : Select).conditions ↔
      condition ∈ recipe.conditions table := by
  -- One more condition is added to those of the query before.
  have one {query : Select} {condition added : Condition} {before : List Condition}
      (discrete : added.Discrete)
      (same : condition ∈ query.conditions ↔ condition ∈ before) :
      condition ∈ (query.satisfying added).conditions ↔ condition ∈ added :: before := by
    have all := @Select.mem_satisfyingAll_iff query [added] condition
      (List.forall_mem_singleton.mpr discrete)
    rw [List.mem_singleton] at all
    rw [List.mem_cons, or_comm]
    exact all.trans (or_congr_left same)
  induction recipe generalizing condition with
  | base => exact Iff.rfl
  | filterEq recipe field value ih =>
    have column : (recipe.build table : Select).column field = ⟨table.name, field⟩ := by
      rw [Select.column, table_build]
    show condition ∈ (Select.filterEq _ field value).conditions ↔ _
    rw [Select.filterEq, column]
    exact one (Condition.discrete_hasValue fits.2.2) (ih fits.1)
  | filterIn recipe field values ih =>
    have column : (recipe.build table : Select).column field = ⟨table.name, field⟩ := by
      rw [Select.column, table_build]
    show condition ∈ (Select.filterIn _ field values).conditions ↔ _
    rw [Select.filterIn, column]
    exact one (Condition.discrete_hasAnyValue fits.2.2) (ih fits.1)
  | none recipe ih =>
    have discrete : Condition.never.Discrete := trivial
    exact one discrete (ih fits)
  | merge recipe other ih ihOther =>
    have discrete : ∀ condition ∈ (other.build table : Select).conditions, condition.Discrete :=
      fun condition mem => discrete_conditions fits.2 condition ((ihOther fits.2).mp mem)
    show condition ∈ (Select.withinLimit _ _).conditions ↔ _
    rw [Select.conditions_withinLimit]
    refine (Select.mem_satisfyingAll_iff discrete).trans ?_
    rw [conditions, List.mem_append]
    exact or_congr (ih fits.1) (ihOther fits.2)

/-- What a row has in a column of a table. -/
def cell (table : Table) (row : Row) (column : ColumnName) : Literal :=
  if column.table = table.name then .ofValue ((row.get? column.column).getD .null) else .null

/-- Whether a row has a value of its kind, or null, in each field of a table. -/
def RowFits (table : Table) (kinds : String → FieldKind) (row : Row) : Prop :=
  ∀ field ∈ table.fieldNames, ∃ value, row.get? field = some value ∧ (kinds field).Has value

/-- **In SQL and in memory.** The conditions of the SQL query are all true of a row iff the row is
admitted in memory and does not have null in a field of which null was asked among other values. -/
theorem holds_iff_admits (fits : recipe.Fits table kinds) (rowFits : RowFits table kinds row) :
    (∀ condition ∈ recipe.conditions table,
        condition.truth (cell table row) further = some true) ↔
      (recipe.build table : MemoryQuery).admits row = true ∧
        ∀ entry ∈ recipe.lists, .null ∈ entry.2 → row.get? entry.1 ≠ some .null := by
  -- What a row has in a field of the table.
  have reads {field : String} (known : field ∈ table.fieldNames) :
      ∃ value, row.get? field = some value ∧ (kinds field).Has value ∧
        cell table row ⟨table.name, field⟩ = .ofValue value := by
    obtain ⟨value, stored, has⟩ := rowFits field known
    refine ⟨value, stored, has, ?_⟩
    rw [cell, if_pos rfl, stored]
    rfl
  induction recipe with
  | base => exact iff_of_true nofun ⟨rfl, nofun⟩
  | filterEq recipe field value ih =>
    obtain ⟨stored, found, has, same⟩ := reads fits.2.1
    have passes : MemoryQuery.hasValue field value row = stored.equal value := by
      rw [MemoryQuery.hasValue, found]
    have admits := MemoryQuery.admits_apply (recipe.build table) (.hasValue field value) row
    rw [Narrowing.admits, passes] at admits
    rw [conditions, List.forall_mem_cons, Condition.truth_hasValue same has fits.2.2]
    refine (and_congr_right' (ih fits.1)).trans ?_
    show _ ↔ (Narrowing.apply _ (.hasValue field value)).admits row = true ∧ _
    rw [admits, Bool.and_eq_true, lists]
    tauto
  | filterIn recipe field values ih =>
    obtain ⟨stored, found, has, same⟩ := reads fits.2.1
    have passes : MemoryQuery.hasAnyValue field values row = values.any (stored.equal ·) := by
      rw [MemoryQuery.hasAnyValue, found]
    have admits := MemoryQuery.admits_apply (recipe.build table) (.hasAnyValue field values) row
    rw [Narrowing.admits, passes] at admits
    have hidden : row.get? field ≠ some .null ↔ stored ≠ .null := by
      rw [found, ne_eq, Option.some.injEq]
    rw [conditions, List.forall_mem_cons, Condition.truth_hasAnyValue same has fits.2.2]
    refine (and_congr_right' (ih fits.1)).trans ?_
    show _ ↔ (Narrowing.apply _ (.hasAnyValue field values)).admits row = true ∧ _
    rw [admits, Bool.and_eq_true, lists, List.forall_mem_cons, hidden]
    tauto
  | none recipe ih =>
    have never : ((Recipe.none recipe).build table : MemoryQuery).admits row = false := rfl
    rw [conditions, List.forall_mem_cons, never, Condition.truth]
    simp
  | merge recipe other ih ihOther =>
    have admits := MemoryQuery.admits_merge (recipe.build table) (other.build table) row
    rw [conditions, List.forall_mem_append]
    refine (and_congr (ih fits.1) (ihOther fits.2)).trans ?_
    show _ ↔ (MemoryQuery.merge _ _).admits row = true ∧ _
    rw [admits, Bool.and_eq_true, lists, List.forall_mem_append]
    tauto

/-- **Queries of both kinds.** Of a row, all conditions of the SQL query are true iff the row is
admitted in memory and does not have null in a field of which null was asked among other values. So
both agree unless null is asked among other values. -/
theorem backends_agree (fits : recipe.Fits table kinds) (rowFits : RowFits table kinds row)
    (further : Condition → Option Bool) :
    ((∀ condition ∈ (recipe.build table : Select).conditions,
        condition.truth (cell table row) further = some true) ↔
      (recipe.build table : MemoryQuery).admits row = true ∧
        ∀ entry ∈ recipe.lists, .null ∈ entry.2 → row.get? entry.1 ≠ some .null) ∧
    ((∀ entry ∈ recipe.lists, .null ∉ entry.2) →
      ((∀ condition ∈ (recipe.build table : Select).conditions,
          condition.truth (cell table row) further = some true) ↔
        (recipe.build table : MemoryQuery).admits row = true)) := by
  have both := @holds_iff_admits table kinds recipe row further fits rowFits
  have same : (∀ condition ∈ (recipe.build table : Select).conditions,
      condition.truth (cell table row) further = some true) ↔
      ∀ condition ∈ recipe.conditions table,
        condition.truth (cell table row) further = some true :=
    forall_congr' fun condition => imp_congr_left (mem_conditions_build fits)
  refine ⟨same.trans both, fun plain => (same.trans both).trans (and_iff_left ?_)⟩
  exact fun entry mem asked => absurd asked (plain entry mem)

/-- Notes have a key, a title, and a rank. -/
def notes : Table := Table.withFields "notes" ["title", "rank"]

/-- Titles are texts, keys and ranks are numbers. -/
def kindOf (field : String) : FieldKind := if field = "title" then .text else .word

/-- A note without a title. -/
def untitled : Row := .stored [("id", .int 7), ("rank", .int 2), ("title", .null)]

theorem untitled_fits : RowFits notes kindOf untitled := by
  have fields : notes.fieldNames = ["id", "title", "rank"] := by decide
  intro field known
  rw [fields] at known
  simp only [List.mem_cons, List.not_mem_nil, or_false] at known
  rcases known with rfl | rfl | rfl
  · exact ⟨.int 7, rfl, rfl⟩
  · exact ⟨.null, rfl, trivial⟩
  · exact ⟨.int 2, rfl, rfl⟩

/-- A note without a title is found where null is the title and the rank is one of several, in the
queries of both kinds. -/
theorem backends_agree_untitled :
    let recipe : Recipe :=
      .merge (.filterEq .base "title" .null) (.filterIn .base "rank" [.int 1, .int 2])
    recipe.Fits notes kindOf ∧ RowFits notes kindOf untitled ∧
      (∀ entry ∈ recipe.lists, .null ∉ entry.2) ∧
      (recipe.build notes : MemoryQuery).admits untitled = true ∧
      ∀ condition ∈ (recipe.build notes : Select).conditions,
        condition.truth (cell notes untitled) (fun _ => .none) = some true := by
  intro recipe
  have fits : recipe.Fits notes kindOf := by
    refine ⟨⟨trivial, by decide, trivial⟩, trivial, by decide, ?_⟩
    intro value mem
    simp only [List.mem_cons, List.not_mem_nil, or_false] at mem
    rcases mem with rfl | rfl <;> exact rfl
  have plain : ∀ entry ∈ recipe.lists, .null ∉ entry.2 := by
    simp [recipe, lists, Value.int]
  have admitted : (recipe.build notes : MemoryQuery).admits untitled = true := by decide +kernel
  have agree := (backends_agree fits untitled_fits fun _ => .none).2 plain
  exact ⟨fits, untitled_fits, plain, admitted, agree.mpr admitted⟩

/-- **Null among several values** is found in memory and not in SQL: a note without a title is
admitted where null is asked among titles, but no condition on it is true. -/
theorem null_among_values :
    let recipe : Recipe := .filterIn .base "title" [.null]
    recipe.Fits notes kindOf ∧ RowFits notes kindOf untitled ∧
      (recipe.build notes : MemoryQuery).admits untitled = true ∧
      ∃ condition ∈ (recipe.build notes : Select).conditions, ∀ further,
        condition.truth (cell notes untitled) further = .none := by
  intro recipe
  have fits : recipe.Fits notes kindOf := ⟨trivial, by decide, by simp [FieldKind.Has]⟩
  refine ⟨fits, untitled_fits, by decide +kernel, _, List.mem_singleton.mpr rfl, ?_⟩
  intro further
  rfl

end Recipe

end Warden
