import Warden.Memory
/-! # Narrowings of rows in memory
A query over rows in memory is put together from **narrowings**: a field has a value, a row passes
a test, there are at most so many rows, or no row is meant at all. This module says what a sequence
of narrowings means, without any query: a row is admitted if every narrowing admits it, and what
was admitted is cut at the smallest limit (`Narrowing.results`). The query that a sequence builds
up selects just that (`Memory.select_narrowBy`), and merging it into another query is narrowing
that one further (`MemoryQuery.merge_narrowBy`). -/

namespace Warden

/-- One way to narrow a query over rows in memory. -/
inductive Narrowing where
  /-- A field has a value. -/
  | hasValue (field : String) (value : Value)
  /-- A field has one of several values. -/
  | hasAnyValue (field : String) (values : List Value)
  /-- A row passes a test. -/
  | passing (keep : Row → Bool)
  /-- There are at most so many rows. -/
  | atMost (limit : Nat)
  /-- No row is meant. -/
  | nothing

namespace Narrowing

/-- Narrow a query. -/
def apply (query : MemoryQuery) : Narrowing → MemoryQuery
  | .hasValue field value => Query.filterEq query field value
  | .hasAnyValue field values => Query.filterIn query field values
  | .passing keep => query.filter keep
  | .atMost limit => query.atMost limit
  | .nothing => Query.none query

/-- Whether a row may be in the result. -/
def admits (row : Row) : Narrowing → Bool
  | .hasValue field value => MemoryQuery.hasValue field value row
  | .hasAnyValue field values => MemoryQuery.hasAnyValue field values row
  | .passing keep => keep row
  | .atMost _ => true
  | .nothing => false

/-- The number of rows that a narrowing allows, if it limits it. -/
def limit? : Narrowing → Option Nat
  | .atMost limit => some limit
  | _ => none

/-- The smallest of the limits, if there are any. -/
def smallest? : List Narrowing → Option Nat
  | [] => none
  | narrowing :: rest => narrowing.limit?.merge min (smallest? rest)

/-- Rows up to a limit, if there is one. -/
def cut (rows : List Row) : Option Nat → List Row
  | none => rows
  | some limit => rows.take limit

/-- What a sequence of narrowings leaves of stored rows. -/
def results (narrowings : List Narrowing) (stored : List Row) : List Row :=
  cut (stored.filter fun row => narrowings.all (admits row)) (smallest? narrowings)

/-! ## What is left of stored rows -/

theorem sublist_cut (rows : List Row) (limit : Option Nat) : (cut rows limit).Sublist rows := by
  cases limit with
  | none => exact List.Sublist.refl rows
  | some limit => exact List.take_sublist limit rows

section Results

variable {narrowings : List Narrowing} {stored : List Row}

/-- The results are stored rows, in their order. -/
theorem sublist_results : (results narrowings stored).Sublist stored :=
  (sublist_cut _ _).trans List.filter_sublist

/-- Every result passes every narrowing. -/
theorem admits_of_mem_results {row : Row} (result : row ∈ results narrowings stored)
    {narrowing : Narrowing} (mem : narrowing ∈ narrowings) : narrowing.admits row = true := by
  have kept : row ∈ stored.filter fun row => narrowings.all (admits row) :=
    (sublist_cut _ _).subset result
  exact List.all_eq_true.mp (List.mem_filter.mp kept).2 narrowing mem

/-- A limit bounds the smallest one. -/
theorem smallest?_le {limit : Nat} (limited : .atMost limit ∈ narrowings) :
    ∃ least ≤ limit, smallest? narrowings = some least := by
  induction narrowings with
  | nil => cases limited
  | cons first rest ih =>
    rw [smallest?]
    rcases List.mem_cons.mp limited with rfl | later
    · rw [limit?]
      cases smallest? rest with
      | none => exact ⟨limit, Nat.le_refl limit, rfl⟩
      | some least => exact ⟨min limit least, Nat.min_le_left limit least, rfl⟩
    · obtain ⟨least, le, found⟩ := ih later
      rw [found]
      cases first.limit? with
      | none => exact ⟨least, le, rfl⟩
      | some other => exact ⟨min other least, Nat.le_trans (Nat.min_le_right other least) le, rfl⟩

/-- No limit, no smallest one. -/
theorem smallest?_eq_none (unlimited : ∀ limit, .atMost limit ∉ narrowings) :
    smallest? narrowings = none := by
  induction narrowings with
  | nil => rfl
  | cons first rest ih =>
    have free : first.limit? = none := by
      cases first with
      | atMost limit => exact absurd List.mem_cons_self (unlimited limit)
      | _ => rfl
    rw [smallest?, free, ih fun limit later => unlimited limit (List.mem_cons_of_mem first later)]
    rfl

/-- Narrowings that do not limit the number of rows are no limits. -/
theorem unlimited_of_free (free : ∀ narrowing ∈ narrowings, narrowing.limit? = none) (limit : Nat) :
    .atMost limit ∉ narrowings :=
  fun limited => nomatch free _ limited

/-- There are never more results than a limit allows. -/
theorem length_results_le {limit : Nat} (limited : .atMost limit ∈ narrowings) :
    (results narrowings stored).length ≤ limit := by
  obtain ⟨least, le, found⟩ := smallest?_le limited
  rw [results, found]
  exact Nat.le_trans (List.length_take_le _ _) le

/-- Where no row is meant there are no results. -/
theorem results_of_nothing (hidden : .nothing ∈ narrowings) : results narrowings stored = [] := by
  refine List.eq_nil_iff_forall_not_mem.mpr fun row result => ?_
  cases admits_of_mem_results result hidden

/-- Without a limit, everything that passes is a result. -/
theorem results_of_unlimited (unlimited : ∀ limit, .atMost limit ∉ narrowings) :
    results narrowings stored = stored.filter fun row => narrowings.all (admits row) := by
  rw [results, smallest?_eq_none unlimited, cut]

end Results

end Narrowing

/-! ## Queries built up from narrowings -/

namespace MemoryQuery

/-- A row has a value in a field iff the value stored there equals it. -/
theorem hasValue_iff {field : String} {value : Value} {row : Row} :
    hasValue field value row = true ↔
      ∃ stored, row.get? field = some stored ∧ stored.equal value = true := by
  rw [hasValue]
  cases row.get? field with
  | none => exact ⟨nofun, fun ⟨_, missing, _⟩ => nomatch missing⟩
  | some stored =>
    refine ⟨fun equal => ⟨stored, rfl, equal⟩, ?_⟩
    rintro ⟨_, same, equal⟩
    cases same
    exact equal

/-- Narrow a query by each narrowing in turn. -/
def narrowBy (query : MemoryQuery) (narrowings : List Narrowing) : MemoryQuery :=
  narrowings.foldl Narrowing.apply query

@[simp] theorem narrowBy_nil (query : MemoryQuery) : query.narrowBy [] = query := rfl

@[simp] theorem narrowBy_cons (query : MemoryQuery) (first : Narrowing) (rest : List Narrowing) :
    query.narrowBy (first :: rest) = (first.apply query).narrowBy rest := rfl

theorem narrowBy_append (query : MemoryQuery) (first second : List Narrowing) :
    query.narrowBy (first ++ second) = (query.narrowBy first).narrowBy second :=
  List.foldl_append

@[simp] theorem table_apply (query : MemoryQuery) (narrowing : Narrowing) :
    (narrowing.apply query).table = query.table := by
  cases narrowing <;> rfl

@[simp] theorem admits_apply (query : MemoryQuery) (narrowing : Narrowing) (row : Row) :
    (narrowing.apply query).admits row = (query.admits row && narrowing.admits row) := by
  cases narrowing with
  | nothing => exact (Bool.and_false _).symm
  | atMost limit => exact (Bool.and_true _).symm
  | _ =>
    show (!query.empty && (query.filters ++ [_]).all _) = _
    rw [List.all_append, List.all_cons, List.all_nil, Bool.and_true, ← Bool.and_assoc]
    rfl

@[simp] theorem limit_apply (query : MemoryQuery) (narrowing : Narrowing) :
    (narrowing.apply query).limit = query.limit.merge min narrowing.limit? := by
  cases narrowing with
  | atMost limit =>
    show some _ = _
    cases query.limit <;> rfl
  | _ => exact Option.merge_none_right.symm

@[simp] theorem table_narrowBy (query : MemoryQuery) (narrowings : List Narrowing) :
    (query.narrowBy narrowings).table = query.table := by
  induction narrowings generalizing query with
  | nil => rfl
  | cons first rest ih => rw [narrowBy_cons, ih, table_apply]

/-- A narrowed query admits what the query and all the narrowings admit. -/
theorem admits_narrowBy (query : MemoryQuery) (narrowings : List Narrowing) (row : Row) :
    (query.narrowBy narrowings).admits row
      = (query.admits row && narrowings.all (Narrowing.admits row)) := by
  induction narrowings generalizing query with
  | nil => exact (Bool.and_true _).symm
  | cons first rest ih => rw [narrowBy_cons, ih, admits_apply, List.all_cons, Bool.and_assoc]

/-- A narrowed query has the smallest of all limits. -/
theorem limit_narrowBy (query : MemoryQuery) (narrowings : List Narrowing) :
    (query.narrowBy narrowings).limit = query.limit.merge min (Narrowing.smallest? narrowings) := by
  induction narrowings generalizing query with
  | nil => exact Option.merge_none_right.symm
  | cons first rest ih =>
    rw [narrowBy_cons, ih, limit_apply, Narrowing.smallest?]
    exact (Option.associative_merge min).assoc _ _ _

/-- Merging with all rows of a table changes nothing. -/
theorem merge_base (query : MemoryQuery) (table : Table) :
    query.merge (Query.base table) = query := by
  show MemoryQuery.mk query.table (query.filters ++ []) query.limit (query.empty || false) = query
  rw [List.append_nil, Bool.or_false]

/-- A narrowing of the second query is a narrowing of both together. -/
theorem merge_apply (query other : MemoryQuery) (narrowing : Narrowing) :
    query.merge (narrowing.apply other) = narrowing.apply (query.merge other) := by
  obtain ⟨table, filters, limit, empty⟩ := query
  obtain ⟨table', filters', limit', empty'⟩ := other
  cases narrowing with
  | atMost bound =>
    -- The bound meets the limit of `other` on one side and the smaller of both on the other.
    cases limit <;> cases limit' <;>
      simp [Narrowing.apply, merge, withinLimit, atMost, Nat.min_assoc]
  | nothing =>
    cases limit' <;> simp [Narrowing.apply, merge, withinLimit, atMost, Query.none]
  | _ =>
    cases limit' <;>
      simp [Narrowing.apply, merge, withinLimit, atMost, filter, Query.filterEq, Query.filterIn,
        filterEq, filterIn]

/-- **Merging is narrowing further.** -/
theorem merge_narrowBy (query other : MemoryQuery) (narrowings : List Narrowing) :
    query.merge (other.narrowBy narrowings) = (query.merge other).narrowBy narrowings := by
  induction narrowings generalizing other with
  | nil => rfl
  | cons first rest ih => rw [narrowBy_cons, ih, merge_apply, narrowBy_cons]

end MemoryQuery

/-! ## Selecting -/

namespace Memory

/-- Selecting cuts what is admitted at the limit, also for a query known to mean no row. -/
theorem select_eq (memory : Memory) (query : MemoryQuery) :
    memory.select query =
      Narrowing.cut ((memory.rows query.table).filter query.admits) query.limit := by
  rw [select]
  cases known : query.empty with
  | true =>
    -- Such a query is answered without looking at rows, and it admits none of them.
    have refused : (memory.rows query.table).filter query.admits = [] :=
      List.filter_eq_nil_iff.mpr fun row _ => by
        rw [MemoryQuery.admits, known]
        exact Bool.false_ne_true
    rw [refused]
    cases query.limit with
    | none => rfl
    | some limit => exact List.take_nil.symm
  | false =>
    rw [if_neg Bool.false_ne_true]
    cases query.limit <;> rfl

/-- **What narrowings select** from all rows of a table. -/
theorem select_narrowBy (memory : Memory) (table : Table) (narrowings : List Narrowing) :
    memory.select ((Query.base table : MemoryQuery).narrowBy narrowings) =
      Narrowing.results narrowings (memory.rows table.name) := by
  rw [select_eq, MemoryQuery.table_narrowBy, MemoryQuery.limit_narrowBy]
  have admitted : MemoryQuery.admits ((Query.base table : MemoryQuery).narrowBy narrowings) =
      fun row => narrowings.all (Narrowing.admits row) := by
    funext row
    rw [MemoryQuery.admits_narrowBy]
    exact Bool.true_and _
  rw [admitted]
  exact congrArg _ Option.merge_none_left

/-- The count of a query, none counting as zero, is the number of its rows. -/
theorem getD_count (memory : Memory) (query : MemoryQuery) :
    (memory.count query).getD 0 = (memory.select query).length := by
  rw [count, select]
  cases query.empty <;> rfl

end Memory

end Warden
