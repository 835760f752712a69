import Mathlib
import Warden.Proofs.Enforcement
import Warden.Proofs.Sql.Demands
import Warden.Sql.Statement
/-! # Lists stay within the scope
The query of a list is put together from three sides: the relation's own query, the scope of the
subject, and the parameters of the caller. Outside trusted execution the result is **confined**
(`Permissions.Confined`): it demands every condition of all three sides and has no others, the
conditions of the first two stand in front whatever the parameters are, and no limit of any side is
exceeded. So a row is listed only if it meets the scope, also where the caller asks for the same
conditions, or for alternatives to them.

The relation may have been derived and used in any way (`Relation.Move`): every **move** keeps the
subject, and what is known of the subject's permissions has been worked out for the model
(`Relation.BoundTo`). -/

namespace Warden

open Sql

/-! ## Derived and used relations -/

/-- What a subject's permissions for a model come to, at some depth of trusted execution. -/
def Site.Gives {S Q : Type} [Query Q] (site : Site S Q) (model : Model) (subject : S)
    (perms : Permissions Q) : Prop :=
  ∃ trust, ((site.evaluate model subject none).startFrom trust).1 = .ok perms

namespace Relation

/-- A **move** derives a relation from another one, or is what its use leaves of it. -/
inductive Move (Q : Type) where
  /-- Change the query in any way. -/
  | map (change : Q → Q)
  /-- Start again from all rows. -/
  | unscoped
  /-- Load an association along. -/
  | including (assoc : Association)
  /-- Make a copy. -/
  | clone
  /-- Ask for the permissions of the subject, at a depth of trusted execution. -/
  | asked (trust : Trust)

variable {S Q : Type} [Query Q] {site : Site S Q} {model : Model} {subject : S}
  {rel : Relation S Q} {trust : Trust}

/-- Make a move. -/
def Move.apply (site : Site S Q) (rel : Relation S Q) : Move Q → Relation S Q
  | .map change => rel.map change
  | .unscoped => rel.unscoped
  | .including assoc => rel.including assoc
  | .clone => rel.clone
  | .asked trust => ((permissions site).startFrom rel trust).1.2

/-- Make several moves, beginning with all rows of a model as a subject sees them. -/
def moved (site : Site S Q) (model : Model) (subject : S) (moves : List (Move Q)) : Relation S Q :=
  moves.foldl (Move.apply site) (ofSubject model subject)

/-- A relation is **bound to** a subject of a model if it knows no permissions but theirs. -/
structure BoundTo (site : Site S Q) (model : Model) (subject : S) (rel : Relation S Q) : Prop where
  /-- The relation is over the model. -/
  model_eq : rel.model = model
  /-- The subject is remembered. -/
  restriction_eq : rel.binding.restriction = .bound subject
  /-- What is known has been worked out. -/
  known : ∀ perms, rel.binding.memo = some perms → site.Gives model subject perms

theorem boundTo_ofSubject (site : Site S Q) (model : Model) (subject : S) :
    (ofSubject model subject).BoundTo site model subject :=
  ⟨rfl, rfl, nofun⟩

/-- **One move** keeps a relation bound. -/
theorem BoundTo.apply (bound : rel.BoundTo site model subject) (move : Move Q) :
    (move.apply site rel).BoundTo site model subject := by
  cases move with
  | map change => exact ⟨bound.model_eq, bound.restriction_eq, bound.known⟩
  | unscoped => exact ⟨bound.model_eq, bound.restriction_eq, bound.known⟩
  | including assoc => exact ⟨bound.model_eq, bound.restriction_eq, bound.known⟩
  | clone => exact ⟨bound.model_eq, bound.restriction_eq, nofun⟩
  | asked trust =>
    rw [Move.apply, startFrom_permissions]
    refine ⟨bound.model_eq, Binding.restriction_permissions.trans bound.restriction_eq, ?_⟩
    intro perms known
    rcases Binding.memo_permissions bound.restriction_eq known with before | evaluated
    · exact bound.known perms before
    · exact ⟨trust, bound.model_eq ▸ evaluated⟩

/-- **Every sequence of moves** does. -/
theorem boundTo_moved (site : Site S Q) (model : Model) (subject : S) (moves : List (Move Q)) :
    (moved site model subject moves).BoundTo site model subject := by
  -- By induction on the moves, for every relation from which they begin.
  suffices ∀ rel : Relation S Q, rel.BoundTo site model subject →
      (moves.foldl (Move.apply site) rel).BoundTo site model subject from
    this _ (boundTo_ofSubject site model subject)
  induction moves with
  | nil => exact fun _ bound => bound
  | cons move rest ih => exact fun rel bound => ih _ (bound.apply move)

/-- Outside trusted execution a bound relation enforces permissions of its subject, or panics. -/
theorem BoundTo.enforced (bound : rel.BoundTo site model subject)
    (untrusted : trust.isActive = false) :
    (∃ panic left, (enforced site).startFrom rel trust = ((.error panic, left), trust)) ∨
      ∃ perms binding, site.Gives model subject perms ∧
        (Relation.enforced site).startFrom rel trust
          = ((.ok (some perms), { rel with binding }), trust) ∧
        (Relation.enforced site).startFrom { rel with binding } trust =
          ((.ok (some perms), { rel with binding }), trust) := by
  have inForce := Restriction.isEnforced_of_bound bound.restriction_eq untrusted
  rcases enforced_of_inForce site inForce with panicked | ⟨perms, binding, found, both⟩
  · exact .inl panicked
  · -- Finding them is a move, too: afterwards they are known, and so have been worked out.
    have after := bound.apply (.asked trust)
    rw [Move.apply, found] at after
    have known : binding.memo = some perms := (Binding.known_of_found (binding_permissions found)).2
    exact .inr ⟨perms, binding, after.known perms known, both⟩

end Relation

/-! ## Queries from three sides -/

/-- The query of a list that reads given columns, made of one without parameters. -/
def Sql.Select.listing (query : Select) (columns : List String) (params : ListParams) :
    Except Error Select :=
  match ((query.withColumns columns).apply params).mapError ClauseError.toError with
  | .error e => .error e
  | .ok result =>
    match Relation.foreignOrder? result.columns params.order with
    | some column => .error (ClauseError.toError (.unknownColumn column))
    | .none => .ok result

namespace Permissions

variable {perms : Permissions Select} {own query : Select} {params : ListParams}

/-- The columns of a table that may be read, the primary key among them. -/
def columnsOf (perms : Permissions Select) (table : Table) : List String :=
  table.fieldNames.filter fun field => table.isPrimaryKey field || perms.isReadable field

/-- The query of a list, given the permissions that are enforced. -/
def listQuery (perms : Permissions Select) (table : Table) (own : Select) (params : ListParams) :
    Except Error Select :=
  match (((perms.confine own).withColumns (perms.columnsOf table)).apply params).mapError
      ClauseError.toError with
  | .error e => .error e
  | .ok query =>
    match Relation.foreignOrder? query.columns params.order with
    | some column => .error (ClauseError.toError (.unknownColumn column))
    | .none => .ok query

/-- The conditions that parameters ask for, on a table of a name. -/
def asked? (params : ListParams) (table : String) : Except ClauseError (List Condition) :=
  match params.clause with
  | .none => .ok []
  | some clause => Clause.conditions table clause

/-- A query is **confined** by permissions to a relation's own query, with further conditions wanted
and up to a limit. -/
structure Confined (perms : Permissions Select) (own query : Select) (wanted : List Condition)
    (atMost : Option Nat) : Prop where
  /-- What is demanded without parameters stays as it is, in front. -/
  kept : (perms.confine own).conditions <+: query.conditions
  /-- The relation's own conditions stay as they are, in front of all. -/
  relation : own.conditions <+: query.conditions
  /-- The conditions of the scope are demanded. -/
  scope : ∀ scope, perms.relation = some scope →
    ∀ condition ∈ scope.conditions, query.Demands condition
  /-- Where rows are hidden without a scope, and there is none, no row is meant. -/
  hidden : perms.paranoid = true → perms.scopes = [] → .never ∈ query.conditions
  /-- What is wanted is demanded. -/
  params : ∀ condition ∈ wanted, query.Demands condition
  /-- Nothing else is demanded. -/
  only : ∀ condition ∈ query.conditions, condition ∈ own.conditions ∨
    (∃ scope, perms.relation = some scope ∧ condition ∈ scope.conditions) ∨ condition ∈ wanted
  /-- No limit is exceeded. -/
  limit : ∀ bound, own.limit = some bound ∨
      (∃ scope, perms.relation = some scope ∧ scope.limit = some bound) ∨ atMost = some bound →
    ∃ least ≤ bound, query.limit = some least

/-- Confining a query adds the conditions of the scope. -/
theorem conditions_confine (perms : Permissions Select) (own : Select) :
    (perms.confine own).conditions =
      (own.satisfyingAll ((perms.relation.map Select.conditions).getD [])).conditions := by
  rw [confine]
  cases perms.relation with
  | none => rfl
  | some scope => exact Select.conditions_withinLimit _ _

/-- Confining a query keeps its table. -/
theorem table_confine (perms : Permissions Select) (own : Select) :
    (perms.confine own).table = own.table := by
  rw [confine]
  cases perms.relation with
  | none => rfl
  | some scope =>
    exact (Select.table_withinLimit _ _).trans (Select.frame_satisfyingAll _ _).1

/-- Confining a query takes over the limit of the scope. -/
theorem limit_confine (perms : Permissions Select) (own : Select) :
    (perms.confine own).limit = own.limit.merge min (perms.relation.bind Select.limit) := by
  rw [confine]
  cases perms.relation with
  | none => exact Option.merge_none_right.symm
  | some scope =>
    show ((own.satisfyingAll scope.conditions).withinLimit scope.limit).limit = _
    rw [Select.limit_withinLimit, (Select.frame_satisfyingAll _ _).2.2]
    rfl

end Permissions

namespace Sql.Select

variable {query result : Select} {params : ListParams}

/-- Filtering by a clause adds its conditions. -/
theorem filter_eq_ok {clause : Clause} (succeeds : query.filter clause = .ok result) :
    ∃ conditions, Clause.conditions query.table clause = .ok conditions ∧
      result = query.satisfyingAll conditions := by
  -- Where columns are listed the clause is checked first; what is added is the same.
  have adds : (do return query.satisfyingAll (← Clause.conditions query.table clause)) =
      (.ok result : Except ClauseError Select) := by
    unfold filter at succeeds
    split at succeeds
    · obtain ⟨_, -, succeeds⟩ := bind_eq_ok_iff.mp succeeds
      exact succeeds
    · exact succeeds
  obtain ⟨conditions, given, same⟩ := bind_eq_ok_iff.mp adds
  cases same
  exact ⟨conditions, given, rfl⟩

/-- What parameters make of a query: they add the conditions that they ask for and take over their
limit. -/
theorem apply_eq_ok (succeeds : query.apply params = .ok result) :
    ∃ wanted, Permissions.asked? params query.table = .ok wanted ∧
      result.conditions = (query.satisfyingAll wanted).conditions ∧
      result.limit = query.limit.merge min params.limit := by
  -- Order and offset concern neither the conditions nor the limit.
  unfold apply at succeeds
  rw [Permissions.asked?]
  cases given : params.clause with
  | none =>
    rw [given] at succeeds
    cases succeeds
    refine ⟨[], rfl, ?_, ?_⟩
    · exact conditions_withinLimit _ _
    · exact limit_withinLimit _ _
  | some clause =>
    rw [given] at succeeds
    obtain ⟨filtered, filters, same⟩ := bind_eq_ok_iff.mp succeeds
    obtain ⟨conditions, asked, rfl⟩ := filter_eq_ok filters
    cases same
    refine ⟨conditions, asked, ?_, ?_⟩
    · exact conditions_withinLimit _ _
    · exact (limit_withinLimit _ _).trans
        (congrArg (fun limit => limit.merge min params.limit) (frame_satisfyingAll _ _).2.2)

/-- The text of the conditions joins the texts of each by `AND`. -/
theorem whereText_eq {conditions : List Condition} (demanding : conditions ≠ []) :
    whereText conditions = " WHERE " ++ " AND ".intercalate (Condition.conjuncts conditions) := by
  rw [← Condition.render_allOf demanding]
  cases conditions with
  | nil => exact absurd rfl demanding
  | cons first rest => rfl

end Sql.Select

namespace Permissions

variable {perms : Permissions Select} {own query : Select} {params : ListParams}
  {wanted : List Condition}

/-- Without a scope, a table that hides its rows is confined to no row. -/
theorem relation_of_hidden (paranoid : perms.paranoid = true) (empty : perms.scopes = []) :
    perms.relation = some (Select.none (Query.base perms.table)) := by
  have confines : perms.isScoped = true := by
    rw [isScoped, paranoid]
    rfl
  have never : perms.narrowings = [Query.none] := by
    rw [narrowings, empty, paranoid]
    rfl
  rw [relation, if_pos confines, applyTo, never]
  rfl

/-- What is listed is what parameters make of the confined query. -/
theorem applies_of_listQuery {table : Table}
    (lists : perms.listQuery table own params = .ok query) :
    ((perms.confine own).withColumns (perms.columnsOf table)).apply params = .ok query := by
  unfold listQuery at lists
  cases applied : ((perms.confine own).withColumns (perms.columnsOf table)).apply params with
  | error e =>
    rw [applied] at lists
    cases lists
  | ok result =>
    rw [applied] at lists
    dsimp only [Except.mapError] at lists
    split at lists
    · cases lists
    · cases lists
      rfl

/-- **What is listed is confined**, whatever parameters ask for. -/
theorem confined_of_listQuery {table : Table}
    (lists : perms.listQuery table own params = .ok query) :
    ∃ wanted, asked? params own.table = .ok wanted ∧
      perms.Confined own query wanted params.limit := by
  obtain ⟨wanted, asked, conditions, limit⟩ := Select.apply_eq_ok (applies_of_listQuery lists)
  -- The readable columns decide whether there is a query, not what it demands.
  let confined := perms.confine own
  have conditions : query.conditions = (confined.satisfyingAll wanted).conditions := by
    rw [conditions, Select.satisfyingAll_withColumns]
    rfl
  have limit : query.limit = confined.limit.merge min params.limit := limit
  have scopes := perms.conditions_confine own
  have kept : confined.conditions <+: query.conditions :=
    conditions ▸ confined.prefix_satisfyingAll wanted
  have ofScope : ∀ scope, perms.relation = some scope →
      ∀ condition ∈ scope.conditions, query.Demands condition := by
    intro scope given condition mem
    rw [given] at scopes
    have demanded := own.demands_satisfyingAll mem
    exact demanded.mono (scopes ▸ kept)
  refine ⟨wanted, perms.table_confine own ▸ asked, kept, ?_, ofScope, ?_, ?_, ?_, ?_⟩
  · rw [scopes] at kept
    exact (own.prefix_satisfyingAll _).trans kept
  · intro paranoid empty
    exact Select.never_mem (ofScope _ (relation_of_hidden paranoid empty) .never
      List.mem_cons_self)
  · intro condition mem
    exact (confined.demands_satisfyingAll mem).mono (conditions ▸ List.prefix_rfl)
  · intro condition mem
    rw [conditions] at mem
    rcases Select.mem_satisfyingAll mem with before | asked
    · rw [scopes] at before
      refine (Select.mem_satisfyingAll before).imp id fun added => .inl ?_
      cases given : perms.relation with
      | none =>
        rw [given] at added
        cases added
      | some scope =>
        rw [given] at added
        exact ⟨scope, rfl, added⟩
    · exact .inr (.inr asked)
  · intro bound limited
    rw [limit, limit_confine]
    -- The limits of the relation and of the scope meet first, and the smaller one then meets that
    -- of the parameters.
    have unasked (given : own.limit = some bound ∨ perms.relation.bind Select.limit = some bound) :
        ∃ least ≤ bound, (own.limit.merge min (perms.relation.bind Select.limit)).merge min
          params.limit = some least := by
      obtain ⟨between, le, merged⟩ := Select.merge_min_le given
      obtain ⟨least, le', limited⟩ := Select.merge_min_le (.inl merged)
      exact ⟨least, le'.trans le, limited⟩
    rcases limited with given | ⟨scope, given, limited⟩ | given
    · exact unasked (.inl given)
    · exact unasked (.inr (by rw [given]; exact limited))
    · exact Select.merge_min_le (.inr given)

/-- **The rows of a confined query** are those that meet the relation's own conditions, those of the
scope and those that are wanted. -/
theorem Confined.holds_iff {limit : Option Nat} (confined : perms.Confined own query wanted limit)
    {passes : Condition → Prop} (uniform : Condition.Uniform passes) :
    (Condition.allOf query.conditions).Holds passes ↔
      (∀ condition ∈ own.conditions, condition.Holds passes) ∧
        (∀ scope, perms.relation = some scope →
          ∀ condition ∈ scope.conditions, condition.Holds passes) ∧
        ∀ condition ∈ wanted, condition.Holds passes := by
  rw [Condition.holds_allOf]
  constructor
  · intro all
    refine ⟨fun condition mem => all condition (confined.relation.subset mem), ?_, ?_⟩
    · intro scope given condition mem
      exact (confined.scope scope given condition mem).holds uniform all
    · intro condition mem
      exact (confined.params condition mem).holds uniform all
  · rintro ⟨ofRelation, ofScope, ofParams⟩ condition mem
    rcases confined.only condition mem with own | ⟨scope, given, inScope⟩ | asked
    · exact ofRelation condition own
    · exact ofScope scope given condition inScope
    · exact ofParams condition asked

/-- Scopes that are registered as narrowings narrow one query one after another. -/
theorem foldl_narrowBy (scopes : List (List Select.Narrowing)) (query : Select) :
    (scopes.map fun scope (query : Select) => query.narrowBy scope).foldl
      (fun query narrow => narrow query) query = query.narrowBy scopes.flatten := by
  rw [List.foldl_map, Select.narrowBy, List.foldl_flatten]
  rfl

/-- **Every registered narrowing is in the scope**: the scope demands its condition and does not
exceed its limit. -/
theorem demands_relation {scopes : List (List Select.Narrowing)}
    (registered : perms.scopes = scopes.map fun scope query => query.narrowBy scope)
    {narrowing : Select.Narrowing} (mem : narrowing ∈ scopes.flatten) :
    ∃ scope, perms.relation = some scope ∧
      (∀ condition, narrowing.condition? perms.table.name = some condition →
        scope.Demands condition) ∧
      ∀ bound, narrowing.limit? = some bound → ∃ least ≤ bound, scope.limit = some least := by
  cases scopes with
  | nil => cases mem
  | cons first rest =>
    have inForce : perms.narrowings =
        (first :: rest).map fun scope (query : Select) => query.narrowBy scope := by
      rw [narrowings, registered]
      rfl
    have confines : perms.isScoped = true := by
      rw [isScoped, registered]
      exact Bool.or_true _
    have scope : perms.relation =
        some ((Query.base perms.table : Select).narrowBy (first :: rest).flatten) := by
      rw [relation, if_pos confines, applyTo, inForce, foldl_narrowBy]
    exact ⟨_, scope, (Query.base perms.table : Select).demands_narrowBy mem⟩

end Permissions

/-! ## Lists -/

namespace Relation

variable {S : Type} {site : Site S Select} {model : Model} {subject : S} {trust : Trust}
  {rel left : Relation S Select} {perms : Permissions Select} {query : Select}
  {params : ListParams}

/-- A list takes the columns and the query that it finds, one after the other. -/
theorem startFrom_permittedQuery {between : Relation S Select} {columns : List String}
    {own : Select}
    (reads : (readableColumns site).startFrom rel trust = ((.ok columns, between), trust))
    (restricted : (restrictedQuery site).startFrom between trust = ((.ok own, left), trust)) :
    (permittedQuery site params).startFrom rel trust =
      ((.ok (((own.withColumns columns).apply params).mapError ClauseError.toError), left),
        trust) := by
  unfold permittedQuery
  rw [RunOn.startFrom_bind, reads]
  dsimp only
  rw [RunOn.startFrom_bind, restricted]
  rfl

/-- The order is compared with the columns afterwards. -/
theorem startFrom_select {between : Relation S Select} {columns : List String} {own : Select}
    (reads : (readableColumns site).startFrom rel trust = ((.ok columns, between), trust))
    (restricted : (restrictedQuery site).startFrom between trust = ((.ok own, left), trust)) :
    (select site params).startFrom rel trust =
      ((.ok (own.listing columns params), left), trust) := by
  unfold select Select.listing
  rw [RunOn.startFrom_bind, startFrom_permittedQuery reads restricted]
  generalize ((own.withColumns columns).apply params).mapError _ = outcome
  cases outcome with
  | error e => rfl
  | ok query =>
    dsimp only
    cases foreignOrder? query.columns params.order <;> rfl

/-- What may be read where permissions are enforced. -/
theorem readableColumns_of_enforced
    (known : (enforced site).startFrom rel trust = ((.ok (some perms), left), trust)) :
    (readableColumns site).startFrom rel trust =
      ((.ok (perms.columnsOf rel.model.table), left), trust) := by
  unfold readableColumns
  rw [RunOn.startFrom_bind, RunOn.startFrom_object]
  dsimp only
  rw [RunOn.startFrom_bind, known]
  rfl

/-- What is listed where permissions are enforced. -/
theorem select_of_enforced
    (known : (enforced site).startFrom rel trust = ((.ok (some perms), left), trust))
    (again : (enforced site).startFrom left trust = ((.ok (some perms), left), trust))
    (sameQuery : left.query = rel.query) :
    (select site params).startFrom rel trust =
      ((.ok (perms.listQuery rel.model.table rel.query params), left), trust) := by
  rw [startFrom_select (readableColumns_of_enforced known) (restrictedQuery_of_enforced again),
    sameQuery]
  rfl

/-- A panic while permissions are worked out ends the making of a query. -/
theorem permittedQuery_of_panic {panic : Panic}
    (panicked : (enforced site).startFrom rel trust = ((.error panic, left), trust)) :
    (permittedQuery site params).startFrom rel trust = ((.error panic, left), trust) := by
  have columns : (readableColumns site).startFrom rel trust = ((.error panic, left), trust) := by
    unfold readableColumns
    rw [RunOn.startFrom_bind, RunOn.startFrom_object]
    dsimp only
    rw [RunOn.startFrom_bind, panicked]
  unfold permittedQuery
  rw [RunOn.startFrom_bind, columns]

/-- It ends the listing, too. -/
theorem select_of_panic {panic : Panic}
    (panicked : (enforced site).startFrom rel trust = ((.error panic, left), trust)) :
    ((select site params).startFrom rel trust).1.1 = .error panic := by
  unfold select
  rw [RunOn.startFrom_bind, permittedQuery_of_panic panicked]

/-- **Lists stay within the scope.** Outside trusted execution, the query of a list is confined by
permissions of the subject to the query of the relation, however that was derived and used, and with
the conditions that the parameters ask for. What the parameters ask for can remove, replace or
weaken no condition of the relation or the scope: the rows of the query are those that meet all
three, and in its text the conditions stand between the `AND`s of the outermost level. Scopes that
were registered as narrowings are all part of the scope. -/
theorem select_confined (moves : List (Move Select)) (untrusted : trust.isActive = false)
    (selects : ((select site params).startFrom (moved site model subject moves) trust).1.1
      = .ok (.ok query)) :
    let own := (moved site model subject moves).query
    ∃ perms wanted, site.Gives model subject perms ∧
      perms.paranoid = model.isParanoid site.config ∧
      Permissions.asked? params own.table = .ok wanted ∧
      perms.Confined own query wanted params.limit ∧
      (∀ passes, Condition.Uniform passes →
        ((Condition.allOf query.conditions).Holds passes ↔
          (∀ condition ∈ own.conditions, condition.Holds passes) ∧
            (∀ scope, perms.relation = some scope →
              ∀ condition ∈ scope.conditions, condition.Holds passes) ∧
            ∀ condition ∈ wanted, condition.Holds passes)) ∧
      (query.conditions ≠ [] → Select.whereText query.conditions =
        " WHERE " ++ " AND ".intercalate (Condition.conjuncts query.conditions)) ∧
      ∀ scopes : List (List Select.Narrowing),
        perms.scopes = scopes.map (fun scope query => query.narrowBy scope) →
        ∀ narrowing ∈ scopes.flatten, ∃ scope, perms.relation = some scope ∧
          (∀ condition, narrowing.condition? model.name = some condition →
            scope.Demands condition) ∧
          ∀ bound, narrowing.limit? = some bound → ∃ least ≤ bound, scope.limit = some least := by
  intro own
  have bound := boundTo_moved site model subject moves
  rcases bound.enforced untrusted with
    ⟨panic, left, panicked⟩ | ⟨perms, binding, gives, known, again⟩
  · rw [select_of_panic panicked] at selects
    cases selects
  · rw [select_of_enforced known again rfl] at selects
    have lists : perms.listQuery (moved site model subject moves).model.table own params
        = .ok query := Except.ok.inj selects
    obtain ⟨wanted, asked, confined⟩ := Permissions.confined_of_listQuery lists
    obtain ⟨earlier, evaluated⟩ := gives
    have frame := Site.frame_of_evaluate evaluated
    have table : perms.table = model.table := congrArg (fun frame => frame.2.1) frame
    refine ⟨perms, wanted, ⟨earlier, evaluated⟩, congrArg (fun frame => frame.2.2) frame, asked,
      confined, fun passes uniform => confined.holds_iff uniform, Select.whereText_eq, ?_⟩
    intro scopes registered narrowing mem
    rw [Model.name, ← table]
    exact Permissions.demands_relation registered mem

/-- Ada's list of the notes with one title asks for Bob's notes as an alternative. The alternative
is one more condition beside the scope, and the limit of the scope counts, which is the smaller
one. -/
theorem select_confined_alternative :
    let scope : List Select.Narrowing := [.hasValue "owner" (.string "ada"), .atMost 5]
    let site : Site Unit Select :=
      { book := RuleBook.empty.create.1.register 0
          (.plain (.can .read [] (.narrow fun query => query.narrowBy scope))) }
    let model : Model := { table := Table.withFields "notes" ["title", "owner"], rules := 0 }
    let moves : List (Move Select) :=
      [.map fun query => query.filterEq "title" (.string "x"), .clone]
    let params : ListParams :=
      { clause := some [("$or", .array
          [.object [("owner", .string "bob")], .object [("title", .string "x")]])]
        limit := some 10 }
    let rel := moved site model () moves
    let equals (column text : String) : Condition := .hasValue ⟨"notes", column⟩ (.string text)
    ({} : Trust).isActive = false ∧ ∃ query perms wanted,
      ((select site params).startFrom rel {}).1.1 = .ok (.ok query) ∧
      site.Gives model () perms ∧ Permissions.asked? params rel.query.table = .ok wanted ∧
      perms.Confined rel.query query wanted params.limit ∧
      query.conditions = [equals "title" "x", equals "owner" "ada",
        .either (equals "owner" "bob") (equals "title" "x")] ∧
      query.limit = some 5 := by
  intro scope site model moves params rel equals
  have untrusted : ({} : Trust).isActive = false := rfl
  let query : Select :=
    { table := "notes", columns := ["id", "title", "owner"], limit := some 5
      conditions := [equals "title" "x", equals "owner" "ada",
        .either (equals "owner" "bob") (equals "title" "x")] }
  have selects : ((select site params).startFrom rel {}).1.1 = .ok (.ok query) := by cbv
  obtain ⟨perms, wanted, gives, -, asked, confined, -⟩ := select_confined moves untrusted selects
  exact ⟨untrusted, query, perms, wanted, selects, gives, asked, confined, rfl, rfl⟩

end Relation

end Warden
