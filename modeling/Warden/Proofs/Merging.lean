import Warden.Proofs.Memory.Narrowing
import Warden.Proofs.Questions
import Warden.Proofs.Sql.Merging
/-! # Merging and narrowing
There are two ways to narrow a query by the scopes of a subject. Relations **merge** the query of
all rows in scope into it, and associations let every scope narrow it **in place**. Both come to the
same (`Query.ScopesInPlace`) as long as scopes are made of narrowings, because a narrowing of the
second query is a narrowing of both together.

Merging itself behaves as a conjunction (`Query.Conjoins`): it is associative, and what has been
merged already makes no difference. Queries of a database are equal then, and queries of memory
select the same rows. No operation brings back rows of a query that means none. -/

namespace Warden

open Sql (Select)

/-! ## Scopes in place -/

section Scopes

variable {Q N : Type} [Query Q]

/-- Scopes are **narrowings** if each of them narrows a query by several narrowings in turn. -/
def Permissions.NarrowsBy (perms : Permissions Q) (narrow : Q → N → Q) : Prop :=
  ∃ scopes : List (List N), perms.scopes = scopes.map fun scope query => scope.foldl narrow query

/-- Merging the query of all rows in scope is the same as narrowing **in place**, where scopes are
narrowings and a query is over the table that the permissions are about. -/
structure Query.ScopesInPlace (Q : Type) [Query Q] (narrow : Q → N → Q) (tableOf : Q → String) :
    Prop where
  /-- Where rows are confined, merging the scope is applying the permissions. -/
  confined : ∀ (perms : Permissions Q) (query : Q), perms.NarrowsBy narrow →
    tableOf query = perms.table.name → perms.isScoped = true →
    ∃ scope, perms.relation = some scope ∧ Query.merge query scope = perms.applyTo query
  /-- Elsewhere there is nothing to merge, and nothing to apply. -/
  free : ∀ (perms : Permissions Q) (query : Q), perms.isScoped = false →
    perms.relation = .none ∧ perms.applyTo query = query
  /-- So a relation of a subject carries out the query that is narrowed for the subject elsewhere,
  and panics where working out the scopes does. -/
  paths : ∀ {S : Type} (site : Site S Q) (rel : Relation S Q) (subject : S) (trust : Trust),
    rel.binding = .fresh (.bound subject) → trust.isActive = false →
    tableOf rel.query = rel.model.table.name →
    (∀ perms, ((site.evaluate rel.model subject .none).startFrom trust).1 = .ok perms →
      perms.NarrowsBy narrow) →
    ((Relation.restrictedQuery site).startFrom rel trust).1.1 =
      ((site.scopeFor rel.model subject rel.query).startFrom trust).1

/-- What narrowings have to do with merging. -/
structure Query.MergesNarrowings (Q : Type) [Query Q] (narrow : Q → N → Q) (tableOf : Q → String) :
    Prop where
  /-- All rows of a table are in the table. -/
  table_base : ∀ table : Table, tableOf (Query.base table) = table.name
  /-- A narrowing keeps the table. -/
  table_narrow : ∀ (query : Q) (narrowing : N), tableOf (narrow query narrowing) = tableOf query
  /-- Merging all rows changes nothing. -/
  merge_base : ∀ (query : Q) (table : Table), Query.merge query (Query.base table) = query
  /-- A narrowing of the second query is a narrowing of both together. -/
  merge_narrow : ∀ (query other : Q) (narrowing : N), tableOf query = tableOf other →
    Query.merge query (narrow other narrowing) = narrow (Query.merge query other) narrowing
  /-- No row at all is a narrowing. -/
  nothing : ∃ narrowing : N, ∀ query : Q, narrow query narrowing = Query.none query

namespace Query.MergesNarrowings

variable {narrow : Q → N → Q} {tableOf : Q → String} {perms : Permissions Q}

/-- Several narrowings of the second query are narrowings of both together. -/
theorem merge_foldl (merges : MergesNarrowings Q narrow tableOf) {query other : Q}
    (sameTable : tableOf query = tableOf other) (narrowings : List N) :
    Query.merge query (narrowings.foldl narrow other) =
      narrowings.foldl narrow (Query.merge query other) := by
  induction narrowings generalizing other with
  | nil => rfl
  | cons first rest ih =>
    have kept := merges.table_narrow other first
    rw [List.foldl_cons, ih (sameTable.trans kept.symm), merges.merge_narrow _ _ _ sameTable]
    rfl

/-- Scopes that are narrowings narrow a query by some narrowings, those in force. -/
theorem exists_applyTo (merges : MergesNarrowings Q narrow tableOf)
    (narrows : perms.NarrowsBy narrow) :
    ∃ narrowings : List N, ∀ query, perms.applyTo query = narrowings.foldl narrow query := by
  obtain ⟨scopes, registered⟩ := narrows
  by_cases hidden : (perms.scopes.isEmpty && perms.paranoid) = true
  -- Without scopes all rows are hidden, which is a narrowing as well.
  · obtain ⟨narrowing, nothing⟩ := merges.nothing
    refine ⟨[narrowing], fun query => ?_⟩
    rw [Permissions.applyTo, Permissions.narrowings, if_pos hidden]
    exact (nothing query).symm
  · refine ⟨scopes.flatten, fun query => ?_⟩
    rw [Permissions.applyTo, Permissions.narrowings, if_neg hidden, registered, List.foldl_map,
      List.foldl_flatten]

/-- **Merging is narrowing in place**: permissions may be applied to all rows first. -/
theorem merge_applyTo (merges : MergesNarrowings Q narrow tableOf)
    (narrows : perms.NarrowsBy narrow) {query : Q} (ofTable : tableOf query = perms.table.name) :
    Query.merge query (perms.applyTo (Query.base perms.table)) = perms.applyTo query := by
  obtain ⟨narrowings, applies⟩ := merges.exists_applyTo narrows
  rw [applies, applies, merges.merge_foldl (ofTable.trans (merges.table_base _).symm),
    merges.merge_base]

/-- Without scopes in force there is nothing to apply. -/
theorem applyTo_of_free (free : perms.isScoped = false) (query : Q) :
    perms.applyTo query = query := by
  obtain ⟨visible, unscoped⟩ := Bool.or_eq_false_iff.mp free
  have empty : perms.scopes = [] := List.isEmpty_iff.mp (by simpa using unscoped)
  rw [Permissions.applyTo, Permissions.narrowings, empty, visible]
  rfl

/-- **Merging is narrowing in place**, whether or not rows are confined. -/
theorem confine_eq_applyTo (merges : MergesNarrowings Q narrow tableOf)
    (narrows : perms.NarrowsBy narrow) {query : Q} (ofTable : tableOf query = perms.table.name) :
    perms.confine query = perms.applyTo query := by
  rw [Permissions.confine, Permissions.relation]
  cases confines : perms.isScoped with
  | true => exact merges.merge_applyTo narrows ofTable
  | false => exact (applyTo_of_free confines query).symm

/-- **Scopes are applied in place** wherever narrowings can be merged. -/
theorem scopesInPlace (merges : MergesNarrowings Q narrow tableOf) :
    ScopesInPlace Q narrow tableOf where
  confined perms query narrows ofTable confines := by
    refine ⟨_, ?_, merges.merge_applyTo narrows ofTable⟩
    rw [Permissions.relation, if_pos confines]
  free perms query free := by
    refine ⟨?_, applyTo_of_free free query⟩
    rw [Permissions.relation, free]
    rfl
  paths site rel subject trust fresh untrusted ofTable narrows := by
    -- Either way the permissions are worked out once, and the state is left as it was.
    have steady := site.steady_evaluate rel.model subject .none
    rw [Site.scopeFor, steady.startFrom_bind, Relation.startFrom_restrictedQuery, Relation.outcome]
    dsimp only [Relation.found]
    cases evaluated : ((site.evaluate rel.model subject .none).startFrom trust).1 with
    | error panic =>
      rw [Binding.found_of_panic fresh (.inr untrusted) evaluated]
      rfl
    | ok perms =>
      have frame : perms.table = rel.model.table :=
        congrArg (fun frame => frame.2.1) (Site.frame_of_evaluate evaluated)
      rw [Binding.found_of_evaluated fresh (.inr untrusted) evaluated]
      exact congrArg Except.ok
        (merges.confine_eq_applyTo (narrows perms evaluated) (ofTable.trans (by rw [frame])))

end Query.MergesNarrowings

end Scopes

/-- Narrowings of rows in memory can be merged. -/
theorem MemoryQuery.mergesNarrowings :
    Query.MergesNarrowings MemoryQuery Narrowing.apply MemoryQuery.table where
  table_base _ := rfl
  table_narrow := table_apply
  merge_base := merge_base
  merge_narrow query other narrowing _ := merge_apply query other narrowing
  nothing := ⟨.nothing, fun _ => rfl⟩

/-- So can those of SELECT queries of one table. -/
theorem Sql.Select.mergesNarrowings :
    Query.MergesNarrowings Select Select.Narrowing.apply Select.table where
  table_base _ := rfl
  table_narrow query narrowing := (query.kept_apply narrowing).1
  merge_base := merge_base
  merge_narrow _ _ narrowing sameTable := merge_apply sameTable narrowing
  nothing := ⟨.nothing, fun _ => rfl⟩

/-- **Merging the scope is narrowing in place**, in memory and in a database: for all permissions
whose scopes are made of narrowings, and for every query of their table. -/
theorem Query.scopes_in_place :
    Query.ScopesInPlace MemoryQuery Narrowing.apply MemoryQuery.table ∧
      Query.ScopesInPlace Select Select.Narrowing.apply Select.table :=
  ⟨MemoryQuery.mergesNarrowings.scopesInPlace, Sql.Select.mergesNarrowings.scopesInPlace⟩

/-! ## Conjunctions -/

/-- Merging **conjoins** proper queries: it is associative, and what is merged already makes no
difference. Queries are compared by what is seen of them. -/
structure Query.Conjoins {Q V : Type} [Query Q] (proper : Q → Prop) (view : Q → V) : Prop where
  /-- It does not matter which queries are merged first. -/
  assoc : ∀ one other third : Q, proper one → proper other → proper third →
    view (Query.merge (Query.merge one other) third) =
      view (Query.merge one (Query.merge other third))
  /-- A query merged with itself is the query. -/
  self : ∀ one : Q, proper one → view (Query.merge one one) = view one
  /-- A query merged twice is merged once. -/
  again : ∀ one other : Q, proper one → proper other →
    view (Query.merge (Query.merge one other) other) = view (Query.merge one other)

namespace MemoryQuery

variable {query other third : MemoryQuery}

/-- What merging comes to: filters are put together, and the smaller limit holds. -/
theorem merge_eq (query other : MemoryQuery) :
    query.merge other =
      { query with
        filters := query.filters ++ other.filters
        limit := query.limit.merge min other.limit
        empty := query.empty || other.empty } := by
  rw [merge]
  cases other.limit with
  | none =>
    rw [Option.merge_none_right]
    rfl
  | some limit =>
    dsimp only [withinLimit, atMost]
    cases query.limit <;> rfl

/-- It does not matter which queries are merged first. -/
theorem merge_assoc (query other third : MemoryQuery) :
    (query.merge other).merge third = query.merge (other.merge third) := by
  simp only [merge_eq, List.append_assoc, Bool.or_assoc,
    (Option.associative_merge min).assoc query.limit other.limit third.limit]

/-- A row passes both queries together if it passes each. -/
theorem admits_merge (query other : MemoryQuery) (row : Row) :
    (query.merge other).admits row = (query.admits row && other.admits row) := by
  rw [merge_eq, admits, admits, admits, List.all_append]
  cases query.empty <;> cases other.empty <;> simp

/-- A query that admits no more and has no smaller limit is merged already. -/
theorem select_merge_of_implied (memory : Memory)
    (implied : ∀ row, query.admits row = true → other.admits row = true)
    (limited : query.limit.merge min other.limit = query.limit) :
    memory.select (query.merge other) = memory.select query := by
  have admitted : (query.merge other).admits = query.admits := by
    funext row
    rw [admits_merge, Bool.and_eq_left_iff_imp]
    exact implied row
  rw [Memory.select_eq, Memory.select_eq, admitted, merge_eq, limited]

/-- One way to make a query of rows in memory from another one. -/
inductive Operation where
  /-- Narrow it, by a filter or a limit or to no row at all. -/
  | narrow (narrowing : Narrowing)
  /-- Merge another query into this one. -/
  | merge (other : MemoryQuery)
  /-- Merge this query into another one. -/
  | mergeInto (other : MemoryQuery)

/-- Perform an operation. -/
def Operation.perform (query : MemoryQuery) : Operation → MemoryQuery
  | .narrow narrowing => narrowing.apply query
  | .merge other => query.merge other
  | .mergeInto other => other.merge query

/-- No operations bring rows back. -/
theorem empty_of_performed (known : query.empty = true) (operations : List Operation) :
    (operations.foldl Operation.perform query).empty = true := by
  induction operations generalizing query with
  | nil => exact known
  | cons operation rest ih =>
    refine ih ?_
    cases operation with
    | narrow narrowing => cases narrowing <;> first | exact known | rfl
    | merge other =>
      rw [Operation.perform, merge_eq, known]
      rfl
    | mergeInto other =>
      rw [Operation.perform, merge_eq, known]
      exact Bool.or_true _

end MemoryQuery

/-- Merging conjoins queries of rows in memory, as to the rows that they select from any memory. -/
theorem MemoryQuery.conjoins :
    Query.Conjoins (fun _ : MemoryQuery => True) (fun query memory => Memory.select memory query)
    where
  assoc one other third _ _ _ :=
    congrArg (fun query memory => Memory.select memory query) (one.merge_assoc other third)
  self one _ := by
    funext memory
    exact select_merge_of_implied memory (fun _ admitted => admitted) (Select.merge_min_self _)
  again one other _ _ := by
    funext memory
    refine select_merge_of_implied memory (fun row admitted => ?_) ?_
    · change (one.merge other).admits row = true at admitted
      rw [admits_merge] at admitted
      exact (Bool.and_eq_true_iff.mp admitted).2
    · show (one.merge other).limit.merge min other.limit = (one.merge other).limit
      rw [merge_eq, (Option.associative_merge min).assoc, Select.merge_min_self]

/-- Merging conjoins SELECT queries that are built from documents. -/
theorem Sql.Select.conjoins : Query.Conjoins Select.Built fun query => query where
  assoc one other third _ _ _ := one.merge_assoc other third
  self _ built := merge_self built.isProper
  again _ _ _ built := merge_of_merged built.isProper

/-- **Merging is a conjunction**, of SELECT queries that are built from documents and of queries of
rows in memory. Both merged queries keep all their conditions, up to conditions of the same form,
and the smaller limit holds. A query that means no row never means any again, whatever is done with
it, and merging in either position is among what may be done. -/
theorem Query.merge_conjoins :
    Conjoins Select.Built (fun query => query) ∧
      Conjoins (fun _ : MemoryQuery => True) (fun query memory => Memory.select memory query) ∧
      (∀ one other : Select, one.conditions <+: (merge one other).conditions ∧
        (∀ condition ∈ other.conditions, (merge one other).Demands condition) ∧
        (merge one other).limit = one.limit.merge min other.limit) ∧
      (∀ one other : MemoryQuery, (merge one other).filters = one.filters ++ other.filters ∧
        (merge one other).limit = one.limit.merge min other.limit) ∧
      (∀ (query later : Select) (operations : List Select.Operation), query.isNone = true →
        operations.foldlM Select.Operation.perform query = .ok later →
        later.isNone = true ∧
          ∀ passes, ¬ (Sql.Condition.allOf later.conditions).Holds passes) ∧
      ∀ (query : MemoryQuery) (operations : List MemoryQuery.Operation), query.empty = true →
        let later := operations.foldl MemoryQuery.Operation.perform query
        later.empty = true ∧
          ∀ memory : Memory, memory.select later = [] ∧ memory.count later = .none := by
  refine ⟨Sql.Select.conjoins, MemoryQuery.conjoins, fun one other => ?_, fun one other => ?_, ?_,
    ?_⟩
  · obtain ⟨kept, demanded⟩ := one.demands_merge other
    exact ⟨kept, demanded, congrArg Select.limit (one.merge_eq other)⟩
  · exact ⟨congrArg MemoryQuery.filters (one.merge_eq other),
      congrArg MemoryQuery.limit (one.merge_eq other)⟩
  · intro query later operations known performed
    have still := Select.isNone_of_performed known performed
    exact ⟨still, Select.not_holds_of_isNone still⟩
  · intro query operations known later
    have still : later.empty = true := MemoryQuery.empty_of_performed known operations
    refine ⟨still, fun memory => ⟨?_, ?_⟩⟩
    · rw [Memory.select, if_pos still]
    · rw [Memory.count, if_pos still]

/-- A condition of both queries is kept once, the smaller limit holds, and an offset stays. -/
example :
    let notes : Select := { table := "notes" }
    let own := ((notes.filterEq "title" (.string "x")).atMost 10).skipping 3
    let scope := ((notes.filterEq "owner" (.string "ada")).filterEq "title" (.string "x")).atMost 5
    own.merge scope = (own.filterEq "owner" (.string "ada")).atMost 5 := rfl

end Warden
