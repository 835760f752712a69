import Mathlib
import Warden.Proofs.Counting
import Warden.Proofs.Memory.Preloading
import Warden.Proofs.Memory.Registered
import Warden.Proofs.Remembering
/-! # Confidential fields
Two memories that differ in one table only **agree** there on some fields if their rows do, one by
one (`Row.Agree`). A narrowing that **concerns** certain fields (`Narrowing.Concerns`) cannot tell
rows apart that agree on these, so that it leaves rows which agree again
(`Narrowing.agree_results`).

What a subject can learn of a table is what a **survey** answers (`Relation.survey`): the rows of a
relation, with the values of each that the subject may read. For a model whose rules do not look at
records it is the same in both memories if they agree on the key, on what the subject may read and
on what the narrowings of the relation and of the rules concern. So no other field has any influence
on it (`Relation.survey_eq`). -/

namespace Warden

/-! ## Rows that agree -/

/-- Two rows **agree** on fields if they have the same values of them, or none. -/
def Row.Agree (fields : Set String) (one other : Row) : Prop :=
  ∀ field ∈ fields, one.get? field = other.get? field

/-- A row is **settled** if it is stored and nothing is pending. -/
structure Row.IsSettled (row : Row) : Prop where
  /-- Nothing is pending. -/
  changed : row.changed = []
  /-- The row is stored. -/
  persisted : row.persisted = true

namespace Memory

/-- Whether all rows are settled. -/
def IsSettled (memory : Memory) : Prop := ∀ table, ∀ row ∈ memory.rows table, row.IsSettled

/-- A new memory has no rows. -/
theorem isSettled_empty : ({} : Memory).IsSettled := nofun

/-- **Storing a row** settles it. -/
theorem IsSettled.insert {memory : Memory} (settled : memory.IsSettled) (table : String)
    (row : Row) : (memory.insert table row).IsSettled := by
  intro other stored mem
  rw [rows_insert] at mem
  split at mem
  · rcases List.mem_append.mp mem with before | added
    · exact settled table stored before
    · cases List.mem_singleton.mp added
      exact ⟨rfl, rfl⟩
  · exact settled other stored mem

/-- **Every memory that holds given rows** is settled. -/
theorem isSettled_ofTables (tables : Fields (List Value)) : (ofTables tables).IsSettled := by
  refine List.foldlRecOn tables _ isSettled_empty fun memory settled entry _ => ?_
  refine List.foldlRecOn entry.2 _ settled fun memory settled value _ => ?_
  cases value with
  | object values => exact settled.insert entry.1 _
  | _ => exact settled

end Memory

namespace Narrowing

/-- A narrowing **concerns** fields if it does not tell settled rows apart that agree on them. -/
def Concerns (fields : Set String) (narrowing : Narrowing) : Prop :=
  ∀ one other : Row, one.IsSettled → other.IsSettled → one.Agree fields other →
    narrowing.admits one = narrowing.admits other

variable {fields : Set String} {narrowings : List Narrowing}

/-- A narrowing to a value of a field concerns the field. -/
theorem concerns_hasValue {field : String} (mem : field ∈ fields) (value : Value) :
    (hasValue field value).Concerns fields := by
  intro one other _ _ agree
  rw [admits, admits, MemoryQuery.hasValue, MemoryQuery.hasValue, agree field mem]

/-- So does one to several values. -/
theorem concerns_hasAnyValue {field : String} (mem : field ∈ fields) (values : List Value) :
    (hasAnyValue field values).Concerns fields := by
  intro one other _ _ agree
  rw [admits, admits, MemoryQuery.hasAnyValue, MemoryQuery.hasAnyValue, agree field mem]

/-- A limit concerns no field. -/
theorem concerns_atMost (limit : Nat) : (atMost limit).Concerns fields := fun _ _ _ _ _ => rfl

/-- Nor does it concern any to mean no row. -/
theorem concerns_nothing : nothing.Concerns fields := fun _ _ _ _ _ => rfl

/-- Rows that stand in a relation still do so if they are cut at a limit. -/
theorem forall₂_cut {related : Row → Row → Prop} {one other : List Row}
    (each : List.Forall₂ related one other) (limit : Option Nat) :
    List.Forall₂ related (cut one limit) (cut other limit) := by
  cases limit with
  | none => exact each
  | some limit => exact List.forall₂_take limit each

/-- **Narrowings leave rows that agree** of settled rows that do. -/
theorem agree_results {visible : Set String} {one other : List Row}
    (concerns : ∀ narrowing ∈ narrowings, narrowing.Concerns fields) (seen : fields ⊆ visible)
    (settled : ∀ row ∈ one, row.IsSettled) (settled' : ∀ row ∈ other, row.IsSettled)
    (agree : List.Forall₂ (Row.Agree visible) one other) :
    List.Forall₂ (Row.Agree visible) (results narrowings one) (results narrowings other) := by
  -- The rows are settled on both sides, which is what narrowings rely on.
  have both : List.Forall₂ (fun row row' => row.IsSettled ∧ row'.IsSettled ∧ row.Agree visible row')
      one other := by
    have right := (List.forall₂_and_left other one).mpr ⟨settled', agree.flip⟩
    exact (List.forall₂_and_left one other).mpr ⟨settled, right.flip⟩
  have admitted : List.Forall₂ (Row.Agree visible)
      (one.filter fun row => narrowings.all (admits row))
      (other.filter fun row => narrowings.all (admits row)) := by
    refine List.Forall₂.imp (fun _ _ related => related.2.2) (List.rel_filter ?_ both)
    rintro row row' ⟨settled, settled', agree⟩
    have same (narrowing : Narrowing) (mem : narrowing ∈ narrowings) :=
      concerns narrowing mem row row' settled settled' fun field mem => agree field (seen mem)
    show narrowings.all (admits row) = true ↔ narrowings.all (admits row') = true
    rw [List.all_eq_true, List.all_eq_true]
    exact forall₂_congr fun narrowing mem => by rw [same narrowing mem]
  exact forall₂_cut admitted _

end Narrowing

/-! ## Surveys -/

namespace Guarded

variable {S Q : Type} [Query Q] {site : Site S Q} {record : Guarded S Q} {trust : Trust}

/-- What can be read of a record: the values that the subject may read, and several fields one by
one. -/
def survey (site : Site S Q) (fields : List String) :
    RunOn (Guarded S Q) (FieldValues × List (Option Value)) := do
  let values ← readableValues site
  let each ← fields.mapM (read site)
  return (values, each)

/-- What a survey shows of a row, by the permissions that were found. -/
def surveyed (model : Model) (fields : List String) (found : Option (Permissions Q)) (row : Row) :
    FieldValues × List (Option Value) :=
  (shownEach model row found model.fields, fields.map (shown model row found))

/-- Reading fields one by one, where each time the same permissions are found. -/
theorem startFrom_mapM_read {found : Option (Permissions Q)}
    (finds : record.found site false trust = .ok found) (kept : record.keeping (.ok found) = record)
    (fields : List String) :
    (fields.mapM (read site)).startFrom record trust =
      ((.ok (fields.map (shown record.model record.row found)), record), trust) := by
  induction fields with
  | nil => rfl
  | cons field rest ih =>
    rw [List.mapM_cons, RunOn.startFrom_bind, startFrom_read, outcome, finds, kept]
    show (rest.mapM (read site) >>= fun others => _).startFrom record trust = _
    rw [RunOn.startFrom_bind, ih]
    rfl

/-- **A survey of a record** shows what the permissions show that it finds. -/
theorem startFrom_survey {found : Option (Permissions Q)}
    (finds : record.found site false trust = .ok found) (fields : List String) :
    (survey site fields).startFrom record trust =
      ((.ok (surveyed record.model fields found record.row), record.keeping (.ok found)),
        trust) := by
  have values : (readableValues site).startFrom record trust =
      ((.ok (shownEach record.model record.row found record.model.fields),
        record.keeping (.ok found)), trust) := by
    show ((Question.readableValues.ask site).startFrom record trust) = _
    rw [startFrom_ask, outcome, Question.isStrict, finds]
    rfl
  unfold survey
  rw [RunOn.startFrom_bind, values]
  dsimp only
  rw [RunOn.startFrom_bind, startFrom_mapM_read (found_keeping finds) (record.keeping_keeping _)]
  rfl

end Guarded

namespace Relation

variable {S : Type}

/-- What can be read of the rows that a subject sees. -/
def survey {Q : Type} [Query Q] (site : Site S Q) (fields : List String) :
    RunOn (Relation S Q) (List (FieldValues × List (Option Value))) := do
  let records ← fetch site
  Run.beside (records.mapM fun record => do
    let (shown, _) ← (Guarded.survey site fields).on record
    return shown)

variable {site : Site S MemoryQuery} {memory : Memory} {model : Model} {subject : S}
  {rel : Relation S MemoryQuery} {narrowings : List Narrowing} {perms : Permissions MemoryQuery}
  {scopes : List (List Narrowing)} {trust : Trust}

/-- **What a survey shows** of a model whose rules do not look at records: the rows that the
narrowings of the relation and of the rules leave, each as far as the permissions show it. -/
theorem Derived.survey (derived : rel.Derived model subject narrowings)
    (stored : site.store = memory.store) (untrusted : trust.isActive = false)
    (blind : ∀ rule ∈ site.book.rules model.rules, ∀ body, rule ≠ .entry body)
    (evaluated : ((site.evaluate model subject none).startFrom trust).1 = .ok perms)
    (registered : perms.scopes = scopes.map fun scope query => query.narrowBy scope)
    (fields : List String) :
    ((Relation.survey site fields).startFrom rel trust).1.1 =
      .ok ((Narrowing.results (narrowings ++ perms.confinement scopes) (memory.rows model.name)).map
        (Guarded.surveyed model fields (some perms))) := by
  have fetched := fetch_of_confines derived.model_eq derived.binding_eq derived.query_eq stored
    (.bound untrusted evaluated registered)
  have steady : ((Relation.fetch site).startFrom rel trust).2 = trust :=
    congrArg Prod.snd (startFrom_ask .fetch rel trust)
  have shows (record : Guarded S MemoryQuery)
      (mem : record ∈ (Narrowing.results (narrowings ++ perms.confinement scopes)
        (memory.rows model.name)).map fun row => Guarded.inheriting model row (.bound subject)) :
      (do let (shown, _) ← (Guarded.survey site fields).on record; return shown : Run _).startFrom
          trust =
        (.ok (Guarded.surveyed record.model fields (some perms) record.row), trust) := by
    obtain ⟨row, -, rfl⟩ := List.mem_map.mp mem
    -- No rule looks at the record, so that it finds the permissions for the table.
    have ofRecord : ((site.evaluate model subject (some row)).startFrom trust).1 = .ok perms := by
      rw [site.evaluate_of_no_entry blind subject (some row) none]
      exact evaluated
    have finds : (Guarded.inheriting model row (.bound subject)).found site false trust =
        .ok (some perms) := Binding.found_of_evaluated rfl (.inr untrusted) ofRecord
    rw [Run.startFrom_bind, RunOn.startFrom_on, Guarded.startFrom_survey finds]
    rfl
  obtain ⟨left, whole⟩ :
      ∃ left, (Relation.fetch site).startFrom rel trust = ((.ok _, left), trust) :=
    ⟨_, Prod.ext (Prod.ext fetched rfl) steady⟩
  unfold Relation.survey
  rw [RunOn.startFrom_bind, whole]
  dsimp only
  rw [RunOn.startFrom_beside, Run.startFrom_mapM shows, List.map_map]
  rfl

/-- If working out permissions panics, there is nothing to survey. -/
theorem Derived.survey_of_panic {panic : Panic} (derived : rel.Derived model subject narrowings)
    (untrusted : trust.isActive = false)
    (panicked : ((site.evaluate model subject none).startFrom trust).1 = .error panic)
    (fields : List String) :
    ((Relation.survey site fields).startFrom rel trust).1.1 = .error panic := by
  have finds : rel.found site false trust = .error panic :=
    Binding.found_of_panic derived.binding_eq (.inr untrusted)
      (by rw [derived.model_eq]; exact panicked)
  unfold Relation.survey
  rw [RunOn.startFrom_bind, show Relation.fetch site = Question.ask site .fetch from rfl,
    ask_of_panic .fetch finds]

end Relation

/-! ## Two memories -/

/-- Permissions are worked out alike in memories of the same size: rules can count rows, but they
cannot look at them. -/
theorem Site.evaluate_of_sizes {S : Type} (site : Site S MemoryQuery) {one other : Memory}
    (sizes : ∀ table, one.size table = other.size table) (model : Model) (subject : S)
    (entry : Option Row) (trust : Trust) :
    ({ site with store := one.store }.evaluate model subject entry).startFrom trust =
      ({ site with store := other.store }.evaluate model subject entry).startFrom trust := by
  have totals : { site with store := one.store }.totals =
      { site with store := other.store }.totals := by
    funext name counter
    rw [Site.totals, Site.totals, total_of_stored rfl, total_of_stored rfl]
    simp only [sizes]
  rw [evaluate, evaluate, startFrom_evaluateNested, startFrom_evaluateNested, totals]

/-- The fields whose values permissions show: the primary key, and what may be read. -/
def Permissions.visible {Q : Type} (perms : Permissions Q) (table : Table) : Set String :=
  {field | table.isPrimaryKey field = true ∨ perms.isReadable field = true}

/-- Scopes that concern fields confine a subject by narrowings that do. -/
theorem Permissions.concerns_confinement {fields : Set String} {scopes : List (List Narrowing)}
    (perms : Permissions MemoryQuery)
    (concern : ∀ narrowing ∈ scopes.flatten, narrowing.Concerns fields) :
    ∀ narrowing ∈ perms.confinement scopes, narrowing.Concerns fields := by
  rw [confinement]
  split
  · exact List.forall_mem_singleton.mpr Narrowing.concerns_nothing
  · exact concern

namespace Guarded

/-- What is shown of rows that agree on all visible fields is the same. -/
theorem surveyed_of_agree {Q : Type} {model : Model} {perms : Permissions Q} {row row' : Row}
    (agree : row.Agree (perms.visible model.table) row') (fields : List String) :
    surveyed model fields (some perms) row = surveyed model fields (some perms) row' := by
  have same (field : String) :
      shown model row (some perms) field = shown model row' (some perms) field := by
    rw [shown, shown]
    split
    · next visible => exact agree field (Bool.or_eq_true_iff.mp visible)
    · rfl
  have each (names : List String) :
      shownEach model row (some perms) names = shownEach model row' (some perms) names := by
    induction names with
    | nil => rfl
    | cons field rest ih => rw [shownEach, shownEach, same, ih]
  rw [surveyed, surveyed, each, funext same]

end Guarded

/-- **Fields that may not be read have no influence** on what is read. The survey of a derived
relation is the same in two memories that differ only in the rows of its model, if there are as
many, and if they agree one by one on the primary key, on what the subject may read, and on what the
relation's own narrowings and the subject's scopes concern. The rules of the model may count rows,
but do not look at records. Memories are settled, as all are that rows were stored in one by one
(`Memory.IsSettled.insert`). -/
theorem Relation.survey_eq {S : Type} (site : Site S MemoryQuery) {model : Model} {subject : S}
    {one other : Memory} {trust : Trust} (steps : List Step) (concerned : Set String)
    (names : List String) (untrusted : trust.isActive = false)
    (blind : ∀ rule ∈ site.book.rules model.rules, ∀ body, rule ≠ .entry body)
    (own : ∀ narrowing ∈ ownNarrowings steps, narrowing.Concerns concerned)
    (settled : one.IsSettled) (settled' : other.IsSettled)
    (elsewhere : ∀ table, table ≠ model.name → one.rows table = other.rows table)
    (sameSize : one.size model.name = other.size model.name)
    (scopes : ∀ perms, (({ site with store := one.store }.evaluate model subject none).startFrom
      trust).1 = .ok perms → perms.Narrowed (Narrowing.Concerns concerned))
    (agree : ∀ perms, (({ site with store := one.store }.evaluate model subject none).startFrom
      trust).1 = .ok perms →
      List.Forall₂ (Row.Agree (perms.visible model.table ∪ concerned))
        (one.rows model.name) (other.rows model.name)) :
    let rel : Relation S MemoryQuery := (ofSubject model subject).derive steps
    ((survey { site with store := one.store } names).startFrom rel trust).1.1 =
      ((survey { site with store := other.store } names).startFrom rel trust).1.1 := by
  intro rel
  have derived : rel.Derived model subject (ownNarrowings steps) :=
    (derived_ofSubject model subject).derive steps
  have sizes (table : String) : one.size table = other.size table := by
    by_cases same : table = model.name
    · rw [same, sameSize]
    · rw [Memory.size, Memory.size, elsewhere table same]
  -- The permissions are the same on both sides, since the memories are of the same size.
  have alike := site.evaluate_of_sizes sizes model subject none trust
  cases evaluated : (({ site with store := one.store }.evaluate model subject none).startFrom
      trust).1 with
  | error panic =>
    rw [derived.survey_of_panic untrusted evaluated,
      derived.survey_of_panic untrusted (alike ▸ evaluated)]
  | ok perms =>
    obtain ⟨registered, made, concern⟩ := scopes perms evaluated
    have all (narrowing : Narrowing)
        (mem : narrowing ∈ ownNarrowings steps ++ perms.confinement registered) :
        narrowing.Concerns concerned := by
      rcases List.mem_append.mp mem with mem | mem
      · exact own narrowing mem
      · exact perms.concerns_confinement concern narrowing mem
    -- So the rows that are left agree on what is visible, and no more is shown of them.
    have related := Narrowing.agree_results all Set.subset_union_right (settled model.name)
      (settled' model.name) (agree perms evaluated)
    have shows := related.imp fun row row' agree =>
      Guarded.surveyed_of_agree (fun field mem => agree field (.inl mem)) names
    have surveyed (site' : Site S MemoryQuery) (memory : Memory) (sameBook : site'.book = site.book)
        (stored : site'.store = memory.store)
        (evaluated : ((site'.evaluate model subject none).startFrom trust).1 = .ok perms) :
        ((survey site' names).startFrom rel trust).1.1 =
          .ok ((Narrowing.results (ownNarrowings steps ++ perms.confinement registered)
            (memory.rows model.name)).map (Guarded.surveyed model names (some perms))) :=
      derived.survey stored untrusted (by rw [sameBook]; exact blind) evaluated made names
    rw [surveyed { site with store := one.store } one rfl rfl evaluated,
      surveyed { site with store := other.store } other rfl rfl (alike ▸ evaluated)]
    refine congrArg Except.ok ?_
    rw [← List.forall₂_eq_eq_eq, List.forall₂_map_left_iff, List.forall₂_map_right_iff]
    exact shows

/-- Everybody sees the titles of their own notes. What Ada sees does not depend on secrets, not even
on that of her own note. -/
theorem Relation.survey_eq_notes :
    let note (owner title secret : String) : Row :=
      Row.new [("id", .string title), ("owner", .string owner), ("secret", .string secret),
        ("title", .string title)]
    let memory (secret : String) : Memory :=
      (({} : Memory).insert "notes" (note "ada" "x" secret)).insert "notes" (note "bob" "y" secret)
    let rule : Rule String MemoryQuery := .subject fun user =>
      .can .read [.field "title"]
        (.narrow fun query => query.narrowBy [.hasValue "owner" (.string user)])
    let site : Site String MemoryQuery := { book := RuleBook.empty.create.1.register 0 rule }
    let model : Model :=
      { table := Table.withFields "notes" ["owner", "secret", "title"], rules := 0 }
    let seen (secret : String) :=
      ((survey { site with store := (memory secret).store } ["title", "secret"]).startFrom
        ((ofSubject model "ada").derive [.map (.atMost 5)]) {}).1.1
    ({} : Trust).isActive = false ∧ (memory "one").IsSettled ∧ (memory "other").IsSettled ∧
      seen "one" = seen "other" ∧
      seen "one" =
        .ok [([("id", .string "x"), ("title", .string "x")], [some (.string "x"), none])] := by
  intro note memory rule site model seen
  let perms : Permissions MemoryQuery :=
    ((model.noPermissions site.config).can .read [.field "title"]).scope fun query =>
      query.narrowBy [.hasValue "owner" (.string "ada")]
  have evaluated (secret : String) :
      (({ site with store := (memory secret).store }.evaluate model "ada" none).startFrom {}).1 =
        .ok perms := by
    have rules : { site with store := (memory secret).store }.book.rules model.rules = [rule] :=
      RuleBook.rules_of_root rfl
    rw [Site.evaluate_of_rules rules]
    rfl
  have settled (secret : String) : (memory secret).IsSettled :=
    (Memory.isSettled_empty.insert "notes" _).insert "notes" _
  have rules : site.book.rules model.rules = [rule] := RuleBook.rules_of_root rfl
  have made : perms.scopes = [[Narrowing.hasValue "owner" (.string "ada")]].map
      fun scope query => query.narrowBy scope := rfl
  have owner : ∀ narrowing ∈ [[Narrowing.hasValue "owner" (.string "ada")]].flatten,
      narrowing.Concerns {"owner"} :=
    List.forall_mem_singleton.mpr (Narrowing.concerns_hasValue (Set.mem_singleton _) _)
  have agree (owner title : String) : (note owner title "one").markPersisted.Agree
      (perms.visible model.table ∪ {"owner"}) (note owner title "other").markPersisted := by
    intro field mem
    have known : "secret" ≠ field := by
      rintro rfl
      rcases mem with (key | readable) | owner
      · exact absurd key (by decide)
      · exact absurd readable (by decide)
      · exact absurd owner (by decide)
    simp [note, Row.get?, Row.new, Row.markPersisted, Fields.get?, known]
  refine ⟨rfl, settled "one", settled "other", ?_, ?_⟩
  · refine survey_eq site [.map (.atMost 5)] {"owner"} ["title", "secret"] rfl ?_ ?_ (settled "one")
      (settled "other") ?_ rfl ?_ ?_
    · intro other mem body
      rw [rules] at mem
      cases List.mem_singleton.mp mem
      exact nofun
    · exact List.forall_mem_singleton.mpr (Narrowing.concerns_atMost 5)
    · intro table another
      have apart : "notes" ≠ table := fun same => another same.symm
      rw [Memory.rows_insert, if_neg apart, Memory.rows_insert, if_neg apart, Memory.rows_insert,
        if_neg apart, Memory.rows_insert, if_neg apart]
    · intro given evaluates
      cases (evaluated "one").symm.trans evaluates
      exact ⟨_, made, owner⟩
    · intro given evaluates
      cases (evaluated "one").symm.trans evaluates
      exact .cons (agree "ada" "x") (.cons (agree "bob" "y") .nil)
  · dsimp only [seen, site, rule, model, memory, note]
    cbv

end Warden
