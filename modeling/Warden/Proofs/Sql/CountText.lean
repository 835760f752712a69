import Warden.Proofs.Sql.Merging
/-! # Counting the rows of a list
A list and the number of its rows are asked for with the same parameters, and both statements are
made of one query (`Relation.permittedQuery`), so that they have conditions, limit and offset in
common. But only the list compares the columns to sort by with those that may be read. Rows are
counted for **any order** (`Select.Counts`): without limit and offset the order is not written down,
with either of them it stands in the inner query, whatever columns it names
(`Relation.count_sorts_by_secret`). -/

namespace Warden

namespace Sql

/-! ## Texts that mention others -/

/-- A text **mentions** another one that is a part of it. -/
def Mentions (text part : String) : Prop := ∃ before after, text = before ++ part ++ after

namespace Mentions

variable {text other part : String}

theorem before (mentions : Mentions text part) (other : String) :
    Mentions (text ++ other) part := by
  obtain ⟨first, last, rfl⟩ := mentions
  exact ⟨first, last ++ other, by simp only [String.append_assoc]⟩

theorem behind (mentions : Mentions text part) (other : String) :
    Mentions (other ++ text) part := by
  obtain ⟨first, last, rfl⟩ := mentions
  exact ⟨other ++ first, last, by simp only [String.append_assoc]⟩

theorem self (text : String) : Mentions text text := ⟨"", "", by simp⟩

theorem trans (outer : Mentions text other) (inner : Mentions other part) :
    Mentions text part := by
  obtain ⟨first, last, rfl⟩ := outer
  exact (inner.behind first).before last

/-- A list of texts mentions each of them. -/
theorem intercalate {texts : List String} (separator : String) (mem : text ∈ texts) :
    Mentions (separator.intercalate texts) text := by
  induction texts with
  | nil => cases mem
  | cons first rest ih =>
    cases rest with
    | nil =>
      cases List.mem_singleton.mp mem
      rw [String.intercalate_singleton]
      exact self _
    | cons second more =>
      rw [String.intercalate_cons_cons]
      rcases List.mem_cons.mp mem with rfl | later
      · exact ((self _).before _).before _
      · exact (ih later).behind _

end Mentions

namespace Select

variable {query own : Select} {columns : List String} {params : ListParams}

/-- What parameters make of a query that reads given columns, unless they are refused. -/
structure Asked (query own : Select) (columns : List String) (params : ListParams) : Prop where
  /-- These columns are read. -/
  columns_eq : query.columns = columns
  /-- Parameters add conditions, which mention none but these columns. -/
  conditions_eq : ∃ wanted, Permissions.asked? params own.table = .ok wanted ∧
    query.conditions = (own.satisfyingAll wanted).conditions ∧
    ∀ condition ∈ wanted, ∀ column ∈ condition.columns, ∃ name ∈ columns, column = query.column name
  /-- Parameters add their order, of any columns. -/
  order_eq : query.order = own.order ++ params.order.getD []
  /-- The smaller limit counts. -/
  limit_eq : query.limit = own.limit.merge min params.limit
  /-- The parameters' offset goes before. -/
  offset_eq : query.offset = params.offset.or own.offset

/-- How the text of a query that counts rows depends on its order. -/
structure CountedBy (text : String) (query : Select) : Prop where
  /-- Where all rows are counted, nothing is said about their order. -/
  all : query.limit = .none → query.offset = .none →
    text = "SELECT COUNT(*) FROM " ++ quoteName query.table ++ whereText query.conditions
  /-- Where some are, the columns to sort by are mentioned. -/
  some : query.limit ≠ .none ∨ query.offset ≠ .none → ∀ entry ∈ query.order,
    Mentions text (query.column entry.1).render

/-- A list and the number of its rows are answered alike, but for the order. -/
structure Counts (counted listed : Except Error String) (own : Select) (columns : List String)
    (params : ListParams) : Prop where
  /-- Rows are counted iff the clause has conditions and names none but these columns. -/
  succeeds_iff : (∃ text, counted = .ok text) ↔
    (∃ wanted, Permissions.asked? params own.table = .ok wanted) ∧
      ∀ clause, params.clause = .some clause → ∀ name, Clause.Names clause name → name ∈ columns
  /-- Where rows are not counted, they are not listed either, for the same reason. -/
  refuses : ∀ e, counted = .error e → listed = .error e
  /-- Rows are listed iff they are counted and sorted by none but these columns. -/
  listed_iff : (∃ text, listed = .ok text) ↔
    (∃ text, counted = .ok text) ∧ ∀ name ∈ (params.order.getD []).keys, name ∈ columns
  /-- Both texts are those of one query. The reason not to list what is counted is a column to sort
  by. -/
  texts : ∀ text, counted = .ok text → ∃ query : Select, query.Asked own columns params ∧
    text = query.renderCount ∧ CountedBy text query ∧
    listed = match Relation.foreignOrder? columns params.order with
      | .some column => .error (ClauseError.toError (.unknownColumn column))
      | .none => .ok query.render

/-- Arranging rows takes over the limit and the offset of parameters. -/
theorem limit_arranged (query : Select) (params : ListParams) :
    (query.arranged params).limit = query.limit.merge min params.limit ∧
      (query.arranged params).offset = params.offset.or query.offset := by
  unfold arranged
  constructor
  · exact limit_withinLimit _ _
  · cases params.limit <;> rfl

/-- The text of a query mentions the columns to sort by. -/
theorem mentions_render {entry : String × SortOrder} (mem : entry ∈ query.order) :
    Mentions query.render (query.column entry.1).render := by
  have sorted : ¬ query.order.isEmpty = true := by
    rw [List.isEmpty_iff]
    exact List.ne_nil_of_mem mem
  have direction : Mentions ((query.column entry.1).render ++ " " ++ entry.2.render)
      (query.column entry.1).render := ((Mentions.self _).before _).before _
  have inOrder : Mentions query.orderText (query.column entry.1).render := by
    rw [orderText, if_neg sorted]
    refine Mentions.behind ?_ _
    exact (Mentions.intercalate ", " (List.mem_map.mpr ⟨entry, mem, rfl⟩)).trans direction
  exact ((inOrder.behind _).before _).before _

/-- The text of a query that counts rows mentions the columns to sort by only if it needs to. -/
theorem countedBy_renderCount (query : Select) : CountedBy query.renderCount query where
  all := by
    intro unlimited unmoved
    rw [renderCount, unlimited, unmoved]
    rfl
  some := by
    intro limited entry mem
    have inner : (query.limit.isSome || query.offset.isSome) = true := by
      rw [Bool.or_eq_true, Option.isSome_iff_ne_none, Option.isSome_iff_ne_none]
      exact limited
    rw [renderCount, if_pos inner]
    exact ((mentions_render mem).behind _).before _

/-- Of a query that reads given columns, parameters make what they ask for. -/
theorem asked_of_apply (listed : columns ≠ [])
    (applies : (own.withColumns columns).apply params = .ok query) :
    query.Asked own columns params := by
  obtain ⟨inClause, wanted, asked, rfl⟩ := (apply_eq_ok_iff listed).mp applies
  obtain ⟨table, columnsEq, conditions, order⟩ :=
    frame_arranged ((own.withColumns columns).satisfyingAll wanted) params
  obtain ⟨limit, offset⟩ := limit_arranged ((own.withColumns columns).satisfyingAll wanted) params
  obtain ⟨tableKept, columnsKept, -⟩ := frame_satisfyingAll (own.withColumns columns) wanted
  refine ⟨columnsEq.trans columnsKept, ⟨wanted, asked, ?_, ?_⟩, ?_, ?_, ?_⟩
  · rw [conditions, own.satisfyingAll_withColumns columns wanted]
    rfl
  · intro condition mem column mentioned
    obtain ⟨clause, given, name, names, rfl⟩ := exists_clause_of_asked asked mem mentioned
    refine ⟨name, inClause clause given name names, ?_⟩
    rw [Select.column, table, tableKept]
  -- Adding conditions changes nothing else.
  · rw [order, satisfyingAll_eq]
    rfl
  · rw [limit, satisfyingAll_eq]
    rfl
  · rw [offset, satisfyingAll_eq]
    rfl

/-- **A list and the number of its rows** are answered by texts of one query. -/
theorem counts_listing (listed : columns ≠ []) :
    Counts
      ((((own.withColumns columns).apply params).mapError ClauseError.toError).map renderCount)
      ((own.listing columns params).map render) own columns params := by
  unfold listing
  cases applied : (own.withColumns columns).apply params with
  | error e =>
    -- Neither is answered: the clause has no conditions, or names a column that may not be used.
    refine ⟨?_, ?_, ?_, nofun⟩
    · refine iff_of_false nofun ?_
      rintro ⟨⟨wanted, asked⟩, inClause⟩
      cases applied.symm.trans ((apply_eq_ok_iff listed).mpr ⟨inClause, wanted, asked, rfl⟩)
    · intro other same
      exact same
    · exact iff_of_false nofun fun both => nomatch both.1
  | ok query =>
    -- Both are made of this query, and the order decides whether it is listed.
    have asked := asked_of_apply listed applied
    obtain ⟨inClause, wanted, conditions, -⟩ := (apply_eq_ok_iff listed).mp applied
    dsimp only [Except.mapError, Except.map]
    rw [asked.columns_eq]
    refine ⟨?_, nofun, ?_, ?_⟩
    · exact iff_of_true ⟨_, rfl⟩ ⟨⟨wanted, conditions⟩, inClause⟩
    · rw [← foreignOrder?_eq_none]
      cases Relation.foreignOrder? columns params.order with
      | none => exact iff_of_true ⟨_, rfl⟩ ⟨⟨_, rfl⟩, rfl⟩
      | some column => exact iff_of_false nofun fun both => nomatch both.2
    · rintro text same
      cases same
      refine ⟨query, asked, rfl, query.countedBy_renderCount, ?_⟩
      cases Relation.foreignOrder? columns params.order <;> rfl

end Select

end Sql

open Sql

namespace Relation

variable {S : Type} {site : Site S Select} {rel : Relation S Select} {params : ListParams}
  {trust : Trust}

/-- The text of a list. -/
def listText (site : Site S Select) (params : ListParams) :
    RunOn (Relation S Select) (Except Error String) := do
  return (← select site params).map Select.render

/-- The text that counts the rows of a list. -/
def countText (site : Site S Select) (params : ListParams) :
    RunOn (Relation S Select) (Except Error String) := do
  return (← permittedQuery site params).map Select.renderCount

/-- A list and the number of its rows panic together and leave the same behind. -/
theorem startFrom_listText (site : Site S Select) (rel : Relation S Select) (params : ListParams)
    (trust : Trust) :
    ((listText site params).startFrom rel trust).1.2 =
        ((countText site params).startFrom rel trust).1.2 ∧
      ((listText site params).startFrom rel trust).2 =
        ((countText site params).startFrom rel trust).2 ∧
      ∀ panic, ((listText site params).startFrom rel trust).1.1 = .error panic ↔
        ((countText site params).startFrom rel trust).1.1 = .error panic := by
  unfold listText countText select
  simp only [RunOn.startFrom_bind]
  -- Both make the query, and only what they say about it differs.
  rcases (permittedQuery site params).startFrom rel trust with ⟨⟨panic | e | query, left⟩, after⟩
  · exact ⟨rfl, rfl, fun _ => Iff.rfl⟩
  · exact ⟨rfl, rfl, fun _ => Iff.rfl⟩
  · dsimp only
    cases foreignOrder? query.columns params.order <;>
      exact ⟨rfl, rfl, fun _ => iff_of_false nofun nofun⟩

/-- What is listed and counted where the query is known. -/
theorem texts_of_permittedQuery {query : Select}
    (permitted : ((permittedQuery site params).startFrom rel trust).1.1 = .ok (.ok query)) :
    ((countText site params).startFrom rel trust).1.1 = .ok (.ok query.renderCount) ∧
      ((listText site params).startFrom rel trust).1.1 =
        .ok (match foreignOrder? query.columns params.order with
          | some column => .error (ClauseError.toError (.unknownColumn column))
          | none => .ok query.render) := by
  unfold listText countText select
  simp only [RunOn.startFrom_bind]
  generalize (permittedQuery site params).startFrom rel trust = ran at permitted
  obtain ⟨⟨outcome, left⟩, after⟩ := ran
  cases permitted
  refine ⟨rfl, ?_⟩
  dsimp only
  cases foreignOrder? query.columns params.order <;> rfl

/-- What is listed and counted where the columns and the query are found. -/
theorem counts_of_startFrom {left between : Relation S Select} {columns : List String}
    {own : Select} (params : ListParams) (listed : columns ≠ [])
    (reads : (readableColumns site).startFrom rel trust = ((.ok columns, between), trust))
    (restricted : (restrictedQuery site).startFrom between trust = ((.ok own, left), trust)) :
    ∃ counted answer, ((countText site params).startFrom rel trust).1.1 = .ok counted ∧
      ((listText site params).startFrom rel trust).1.1 = .ok answer ∧
      Select.Counts counted answer own columns params := by
  refine ⟨_, _, ?_, ?_, Select.counts_listing listed⟩
  · unfold countText
    rw [RunOn.startFrom_bind, startFrom_permittedQuery reads restricted]
    rfl
  · unfold listText
    rw [RunOn.startFrom_bind, startFrom_select reads restricted]
    rfl

/-- **Counting the rows of a list.** A list and the number of its rows panic together and leave the
same behind. Otherwise rows are counted iff the clause of the parameters has conditions and names
readable columns only, and whatever is listed is counted, too: both texts are those of one query,
with the same conditions, limit and offset. Rows that are counted are listed unless they are to be
sorted by a column that may not be read. The columns to sort by are mentioned where rows are counted
up to a limit or from an offset on. -/
theorem countText_counts (site : Site S Select) (rel : Relation S Select) (params : ListParams)
    (trust : Trust) :
    (((listText site params).startFrom rel trust).1.2 =
        ((countText site params).startFrom rel trust).1.2 ∧
      ((listText site params).startFrom rel trust).2 =
        ((countText site params).startFrom rel trust).2 ∧
      ∀ panic, ((listText site params).startFrom rel trust).1.1 = .error panic ↔
        ((countText site params).startFrom rel trust).1.1 = .error panic) ∧
    (∀ model subject, rel.BoundTo site model subject → trust.isActive = false →
      (∃ panic, ((site.evaluate model subject none).startFrom trust).1 = .error panic ∧
        ((countText site params).startFrom rel trust).1.1 = .error panic) ∨
      ∃ perms counted listed, site.Gives model subject perms ∧
        ((countText site params).startFrom rel trust).1.1 = .ok counted ∧
        ((listText site params).startFrom rel trust).1.1 = .ok listed ∧
        Select.Counts counted listed (perms.confine rel.query)
          (model.table.fieldNames.filter fun field =>
            model.table.isPrimaryKey field || perms.isReadable field) params) ∧
    (rel.binding.restriction = .unbound ∨ trust.isActive = true →
      ∃ counted listed, ((countText site params).startFrom rel trust).1.1 = .ok counted ∧
        ((listText site params).startFrom rel trust).1.1 = .ok listed ∧
        Select.Counts counted listed rel.query rel.model.table.fieldNames params) := by
  refine ⟨startFrom_listText site rel params trust, ?_, ?_⟩
  · intro model subject bound untrusted
    rcases bound.enforced untrusted with
      ⟨panic, left, panicked⟩ | ⟨perms, binding, gives, known, again⟩
    · refine .inl ⟨panic, bound.evaluate_of_panic untrusted panicked, ?_⟩
      unfold countText
      rw [RunOn.startFrom_bind, permittedQuery_of_panic panicked]
    · obtain ⟨counted, listed, counts, lists, agree⟩ := counts_of_startFrom params
        (perms.columnsOf_ne_nil _) (readableColumns_of_enforced known)
        (restrictedQuery_of_enforced again)
      rw [bound.model_eq] at agree
      exact .inr ⟨perms, counted, listed, gives, counts, lists, agree⟩
  · intro free
    have notInForce := Restriction.isEnforced_of_free free
    exact counts_of_startFrom params (List.cons_ne_nil _ _)
      (readableColumns_of_not_inForce notInForce) (restrictedQuery_of_not_inForce notInForce)

/-- Where only titles are granted, a list that is sorted by title is counted by the text of the
query that is listed. -/
theorem countText_counts_titles :
    let site : Site Unit Select :=
      { book := RuleBook.empty.create.1.register 0 (.plain (.grant .read [.field "title"])) }
    let model : Model := { table := Table.withFields "notes" ["title", "secret"], rules := 0 }
    let rel : Relation Unit Select := ofSubject model ()
    let params : ListParams := { order := some [("title", .ascending)], limit := some 1 }
    let query : Select :=
      { table := "notes", columns := ["id", "title"], order := [("title", .ascending)]
        limit := some 1 }
    rel.BoundTo site model () ∧ ({} : Trust).isActive = false ∧
      ((countText site params).startFrom rel {}).1.1 = .ok (.ok query.renderCount) ∧
      ((listText site params).startFrom rel {}).1.1 = .ok (.ok query.render) ∧
      ∃ perms, site.Gives model () perms ∧
        Select.Counts (.ok query.renderCount) (.ok query.render) (perms.confine rel.query)
          (model.table.fieldNames.filter fun field =>
            model.table.isPrimaryKey field || perms.isReadable field) params := by
  intro site model rel params query
  have bound : rel.BoundTo site model () := boundTo_ofSubject site model ()
  have permitted : ((permittedQuery site params).startFrom rel {}).1.1 = .ok (.ok query) := by cbv
  have readable : foreignOrder? query.columns params.order = none := by decide +kernel
  obtain ⟨counts, lists⟩ := texts_of_permittedQuery permitted
  rw [readable] at lists
  refine ⟨bound, rfl, counts, lists, ?_⟩
  rcases (countText_counts site rel params {}).2.1 model () bound rfl with
    ⟨panic, -, panicked⟩ | ⟨perms, counted, listed, gives, counted_eq, listed_eq, agree⟩
  · cases counts.symm.trans panicked
  · cases counts.symm.trans counted_eq
    cases lists.symm.trans listed_eq
    exact ⟨perms, gives, agree⟩

/-- **The order of rows that are counted is not checked.** Where only titles are granted, a list
that is sorted by secrets is refused, but the text that counts its first row sorts by secrets. -/
theorem count_sorts_by_secret :
    let site : Site Unit Select :=
      { book := RuleBook.empty.create.1.register 0 (.plain (.grant .read [.field "title"])) }
    let model : Model := { table := Table.withFields "notes" ["title", "secret"], rules := 0 }
    let rel : Relation Unit Select := ofSubject model ()
    let params : ListParams := { order := some [("secret", .ascending)], limit := some 1 }
    ((listText site params).startFrom rel {}).1.1 =
        .ok (.error (.storage "unknown column: secret")) ∧
      ((countText site params).startFrom rel {}).1.1 = .ok (.ok
        ("SELECT COUNT(*) FROM (SELECT \"notes\".\"id\", \"notes\".\"title\" FROM \"notes\" " ++
          "ORDER BY \"notes\".\"secret\" ASC LIMIT 1) AS \"scoped\"")) := by
  intro site model rel params
  let query : Select :=
    { table := "notes", columns := ["id", "title"], order := [("secret", .ascending)]
      limit := some 1 }
  have permitted : ((permittedQuery site params).startFrom rel {}).1.1 = .ok (.ok query) := by cbv
  obtain ⟨counts, lists⟩ := texts_of_permittedQuery permitted
  have text : query.renderCount =
      "SELECT COUNT(*) FROM (SELECT \"notes\".\"id\", \"notes\".\"title\" FROM \"notes\" " ++
        "ORDER BY \"notes\".\"secret\" ASC LIMIT 1) AS \"scoped\"" := by decide +kernel
  have foreign : foreignOrder? query.columns params.order = some "secret" := by decide +kernel
  rw [foreign] at lists
  exact ⟨lists, counts.trans (by rw [text])⟩

end Relation

end Warden
