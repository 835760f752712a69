import Warden.Proofs.Enforcement
import Warden.Proofs.Memory.Narrowing
/-! # What a subject sees of rows in memory
A relation is derived from the rows of a model, seen by a subject, in **steps**: it is filtered,
its query is changed, its filters are thrown away, it is copied. The rows that it fetches are those
that the steps and the registered scopes of the subject leave of the stored rows
(`Relation.Derived.fetch`). Throwing filters away (`Relation.Step.unscoped`) forgets earlier steps,
never the scopes.

The proof keeps track of the query: after any steps it is built up from the narrowings of the steps
(`Relation.Derived`), and the scopes narrow it further (`Permissions.confine_narrowBy`). -/

namespace Warden

/-! ## Scopes -/

namespace Permissions

/-- The narrowings in force, given those of each registered scope: no row is meant in a paranoid
table without scopes. -/
def confinement (perms : Permissions MemoryQuery) (scopes : List (List Narrowing)) :
    List Narrowing :=
  if scopes.isEmpty && perms.paranoid then [.nothing] else scopes.flatten

variable {perms : Permissions MemoryQuery} {scopes : List (List Narrowing)}

/-- Every narrowing of a registered scope is in force. -/
theorem mem_confinement (perms : Permissions MemoryQuery) {narrowing : Narrowing}
    (mem : narrowing ∈ scopes.flatten) : narrowing ∈ perms.confinement scopes := by
  cases scopes with
  | nil => cases mem
  | cons first rest =>
    rw [confinement, List.isEmpty_cons, Bool.false_and, if_neg Bool.false_ne_true]
    exact mem

/-- The lack of scopes in a paranoid table is in force, too. -/
theorem confinement_of_paranoid (paranoid : perms.paranoid = true) :
    perms.confinement [] = [.nothing] := by
  rw [confinement, paranoid]
  rfl

/-- Elsewhere the registered scopes are all. -/
theorem confinement_of_not (visible : ¬ (perms.paranoid = true ∧ scopes = [])) :
    perms.confinement scopes = scopes.flatten := by
  rw [confinement, if_neg]
  intro hidden
  obtain ⟨empty, paranoid⟩ := Bool.and_eq_true_iff.mp hidden
  exact visible ⟨paranoid, List.isEmpty_iff.mp empty⟩

/-- Scopes narrow a query one after another. -/
theorem foldl_scopes (scopes : List (List Narrowing)) (query : MemoryQuery) :
    (scopes.map fun scope (query : MemoryQuery) => query.narrowBy scope).foldl
      (fun query narrow => narrow query) query = query.narrowBy scopes.flatten := by
  induction scopes generalizing query with
  | nil => rfl
  | cons first rest ih =>
    rw [List.map_cons, List.foldl_cons, ih, List.flatten_cons, MemoryQuery.narrowBy_append]

/-- **Applying permissions is narrowing**, by the scopes or by the lack of any. -/
theorem applyTo_narrowBy
    (registered : perms.scopes = scopes.map fun scope query => query.narrowBy scope)
    (query : MemoryQuery) : perms.applyTo query = query.narrowBy (perms.confinement scopes) := by
  cases scopes with
  | nil =>
    rw [applyTo, narrowings, confinement, registered]
    -- Without scopes only a paranoid table confines anything: it hides every row.
    cases perms.paranoid <;> rfl
  | cons first rest =>
    have inForce : perms.narrowings =
        (first :: rest).map fun scope (query : MemoryQuery) => query.narrowBy scope := by
      rw [narrowings, registered]
      rfl
    rw [applyTo, inForce, foldl_scopes]
    rfl

/-- **Confining is narrowing**, too. -/
theorem confine_narrowBy
    (registered : perms.scopes = scopes.map fun scope query => query.narrowBy scope)
    (query : MemoryQuery) : perms.confine query = query.narrowBy (perms.confinement scopes) := by
  rw [confine, relation]
  cases confined : perms.isScoped with
  | true =>
    rw [if_pos rfl, applyTo_narrowBy registered]
    show query.merge _ = _
    rw [MemoryQuery.merge_narrowBy, MemoryQuery.merge_base]
  | false =>
    -- Rows are not confined: the table is not paranoid and there are no scopes.
    obtain ⟨visible, unscoped⟩ := Bool.or_eq_false_iff.mp confined
    rw [registered] at unscoped
    cases scopes with
    | nil =>
      rw [confinement, visible]
      rfl
    | cons first rest => cases unscoped

end Permissions

namespace Relation

variable {S : Type}

/-! ## Steps -/

/-- A step by which a relation is derived from another. -/
inductive Step where
  /-- Only rows in which a field has a value. -/
  | filterEq (field : String) (value : Value)
  /-- Only rows in which a field has one of several values. -/
  | filterIn (field : String) (values : List Value)
  /-- Change the query by a narrowing. -/
  | map (narrowing : Narrowing)
  /-- Start again from all rows. -/
  | unscoped
  /-- Make a copy. -/
  | clone

namespace Step

/-- Carry out a step. -/
def apply (rel : Relation S MemoryQuery) : Step → Relation S MemoryQuery
  | .filterEq field value => rel.filterEq field value
  | .filterIn field values => rel.filterIn field values
  | .map narrowing => rel.map narrowing.apply
  | .unscoped => rel.unscoped
  | .clone => rel.clone

/-- The narrowings of a relation after a step, given those before. -/
def track (narrowings : List Narrowing) : Step → List Narrowing
  | .filterEq field value => narrowings ++ [.hasValue field value]
  | .filterIn field values => narrowings ++ [.hasAnyValue field values]
  | .map narrowing => narrowings ++ [narrowing]
  | .unscoped => []
  | .clone => narrowings

end Step

/-- Carry out steps in turn. -/
def derive (rel : Relation S MemoryQuery) (steps : List Step) : Relation S MemoryQuery :=
  steps.foldl Step.apply rel

/-- The narrowings that steps leave: those since all rows were last started from. -/
def ownNarrowings (steps : List Step) : List Narrowing := steps.foldl Step.track []

/-- A relation over a model, bound afresh to a subject, whose query was built up from given
narrowings. -/
structure Derived (model : Model) (subject : S) (narrowings : List Narrowing)
    (rel : Relation S MemoryQuery) : Prop where
  /-- The relation is over the model. -/
  model_eq : rel.model = model
  /-- The subject is remembered, and nothing is known about it yet. -/
  binding_eq : rel.binding = .fresh (.bound subject)
  /-- The narrowings are those of the query. -/
  query_eq : rel.query = (Query.base model.table : MemoryQuery).narrowBy narrowings

variable {model : Model} {subject : S} {narrowings : List Narrowing}
  {rel : Relation S MemoryQuery}

/-- Changing the query by a narrowing adds it to the others. -/
theorem Derived.map (derived : rel.Derived model subject narrowings) (narrowing : Narrowing) :
    (rel.map narrowing.apply).Derived model subject (narrowings ++ [narrowing]) where
  model_eq := derived.model_eq
  binding_eq := derived.binding_eq
  query_eq := by
    rw [MemoryQuery.narrowBy_append, ← derived.query_eq]
    rfl

/-- **One step** keeps the subject, and its effect on the narrowings is as tracked. -/
theorem Derived.apply (derived : rel.Derived model subject narrowings) (step : Step) :
    (step.apply rel).Derived model subject (step.track narrowings) := by
  cases step with
  | filterEq field value => exact derived.map (.hasValue field value)
  | filterIn field values => exact derived.map (.hasAnyValue field values)
  | map narrowing => exact derived.map narrowing
  | unscoped => exact ⟨derived.model_eq, derived.binding_eq, by rw [← derived.model_eq]; rfl⟩
  | clone =>
    refine ⟨derived.model_eq, ?_, derived.query_eq⟩
    show rel.binding.forget = _
    rw [derived.binding_eq]
    rfl

/-- **Every sequence of steps** does. -/
theorem Derived.derive (derived : rel.Derived model subject narrowings) (steps : List Step) :
    (rel.derive steps).Derived model subject (steps.foldl Step.track narrowings) := by
  induction steps generalizing rel narrowings with
  | nil => exact derived
  | cons step rest ih => exact ih (derived.apply step)

theorem derived_ofSubject (model : Model) (subject : S) :
    (ofSubject model subject : Relation S MemoryQuery).Derived model subject [] :=
  ⟨rfl, rfl, rfl⟩

/-! ## Fetching and counting -/

variable {site : Site S MemoryQuery} {memory : Memory} {trust : Trust}
  {perms : Permissions MemoryQuery} {scopes : List (List Narrowing)}

/-- The rows of a derived relation are what its own narrowings and the confinement of the subject
leave of the stored rows. -/
theorem Derived.fetch (derived : rel.Derived model subject narrowings)
    (stored : site.store = memory.store) (untrusted : trust.isActive = false)
    (evaluated : ((site.evaluate model subject none).startFrom trust).1 = .ok perms)
    (registered : perms.scopes = scopes.map fun scope query => query.narrowBy scope) :
    ∃ records, ((Relation.fetch site).startFrom rel trust).1.1 = .ok records ∧
      records.map Guarded.row = Narrowing.results (narrowings ++ perms.confinement scopes)
        (memory.rows model.name) ∧
      ((Relation.count site).startFrom rel trust).1.1 = .ok records.length := by
  have enforced := enforced_of_fresh derived.binding_eq untrusted
    (by rw [derived.model_eq]; exact evaluated)
  have selected : memory.select (perms.confine rel.query) =
      Narrowing.results (narrowings ++ perms.confinement scopes) (memory.rows model.name) := by
    rw [Permissions.confine_narrowBy registered, derived.query_eq, ← MemoryQuery.narrowBy_append,
      Memory.select_narrowBy]
    rfl
  rw [fetch_of_enforced enforced, count_of_enforced enforced, stored]
  refine ⟨_, rfl, ?_, ?_⟩
  · rw [List.map_map]
    exact (List.map_id _).trans selected
  · rw [List.length_map]
    exact congrArg Except.ok (memory.getD_count _)

/-- **A subject sees what its scopes and the relation's own filters leave**, in the stored order.
No limit of either is exceeded, nothing is seen where either means no row or where a paranoid table
has no scope, and nothing else is left out. Counting agrees with fetching. -/
theorem fetch_scoped (memory : Memory) (scopes : List (List Narrowing)) (steps : List Step)
    (stored : site.store = memory.store) (untrusted : trust.isActive = false)
    (evaluated : ((site.evaluate model subject none).startFrom trust).1 = .ok perms)
    (registered : perms.scopes = scopes.map fun scope query => query.narrowBy scope) :
    let rel : Relation S MemoryQuery := (ofSubject model subject).derive steps
    let all := ownNarrowings steps ++ scopes.flatten
    let hidden := .nothing ∈ all ∨ (model.isParanoid site.config = true ∧ scopes = [])
    ∃ records, ((fetch site).startFrom rel trust).1.1 = .ok records ∧
      let rows := records.map Guarded.row
      rows.Sublist (memory.rows model.name) ∧
      (∀ row ∈ rows, ∀ narrowing ∈ all, narrowing.admits row = true) ∧
      (∀ limit, .atMost limit ∈ all → rows.length ≤ limit) ∧
      (hidden → rows = []) ∧
      (¬ hidden → (∀ limit, .atMost limit ∉ all) →
        rows = (memory.rows model.name).filter fun row => all.all fun n => n.admits row) ∧
      ((count site).startFrom rel trust).1.1 = .ok rows.length := by
  intro rel all hidden
  have derived : rel.Derived model subject (ownNarrowings steps) :=
    (derived_ofSubject model subject).derive steps
  obtain ⟨records, fetched, rows, counted⟩ := derived.fetch stored untrusted evaluated registered
  have paranoid : perms.paranoid = model.isParanoid site.config :=
    congrArg (fun frame => frame.2.2) (Site.frame_of_evaluate evaluated)
  -- The results are decided by what is in force, and that is everything in `all` at least.
  have inForce : ∀ narrowing ∈ all,
      narrowing ∈ ownNarrowings steps ++ perms.confinement scopes := by
    intro narrowing mem
    rcases List.mem_append.mp mem with own | registered
    · exact List.mem_append_left _ own
    · exact List.mem_append_right _ (perms.mem_confinement registered)
  refine ⟨records, fetched, ?_, ?_, ?_, ?_, ?_, ?_⟩
  · rw [rows]
    exact Narrowing.sublist_results
  · intro row result narrowing mem
    rw [rows] at result
    exact Narrowing.admits_of_mem_results result (inForce narrowing mem)
  · intro limit limited
    rw [rows]
    exact Narrowing.length_results_le (inForce _ limited)
  · intro hides
    rw [rows]
    refine Narrowing.results_of_nothing ?_
    rcases hides with registered | ⟨isParanoid, empty⟩
    · exact inForce _ registered
    · rw [empty, Permissions.confinement_of_paranoid (paranoid.trans isParanoid)]
      exact List.mem_append_right _ List.mem_cons_self
  · intro shown unlimited
    have plain : perms.confinement scopes = scopes.flatten :=
      Permissions.confinement_of_not fun ⟨isParanoid, empty⟩ =>
        shown (.inr ⟨paranoid.symm.trans isParanoid, empty⟩)
    rw [rows, plain]
    exact Narrowing.results_of_unlimited unlimited
  · rw [counted, List.length_map]

/-- A rule that shows Ada her notes does so for a relation that was filtered for Bob's before its
filters were thrown away. -/
theorem fetch_scoped_owned :
    let note (owner : String) : Row := (Row.new [("owner", .string owner)]).markPersisted
    let memory : Memory := { tables := [("notes", [note "ada", note "bob"])] }
    let scope : List Narrowing := [.hasValue "owner" (.string "ada")]
    let site : Site Unit MemoryQuery :=
      { store := memory.store
        book := RuleBook.empty.create.1.register 0
          (.plain (.narrow fun query => query.narrowBy scope)) }
    let model : Model := { table := { name := "notes" }, rules := 0, paranoid := some true }
    let perms := (model.noPermissions site.config).scope fun query => query.narrowBy scope
    let steps : List Step := [.filterEq "owner" (.string "bob"), .unscoped, .clone]
    site.store = memory.store ∧ ({} : Trust).isActive = false ∧
      ((site.evaluate model () none).startFrom {}).1 = .ok perms ∧
      perms.scopes = [scope].map (fun scope query => query.narrowBy scope) ∧
      ∃ records, ((fetch site).startFrom ((ofSubject model ()).derive steps) {}).1.1 = .ok records ∧
        records.map Guarded.row = [note "ada"] := by
  intro note memory scope site model perms steps
  have rules : site.book.rules model.rules =
      [.plain (.narrow fun query => query.narrowBy scope)] := RuleBook.rules_of_root rfl
  have evaluated : ((site.evaluate model () none).startFrom {}).1 = .ok perms := by
    rw [Site.evaluate_of_rules rules]
    rfl
  refine ⟨rfl, rfl, evaluated, rfl, ?_⟩
  obtain ⟨records, fetched, -, -, -, -, exactly, -⟩ :=
    fetch_scoped memory [scope] steps rfl rfl evaluated rfl
  refine ⟨records, fetched, (exactly ?_ ?_).trans rfl⟩
  · rintro (hidden | ⟨-, empty⟩)
    · cases List.mem_singleton.mp hidden
    · cases empty
  · intro limit limited
    cases List.mem_singleton.mp limited

end Relation

end Warden
