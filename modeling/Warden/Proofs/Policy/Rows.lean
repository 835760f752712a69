import Warden.Proofs.Memory.Scoping
import Warden.Proofs.NumericOrder
import Warden.Proofs.Policy.Installed
/-! # What a policy means for rows
Under a policy alone, the rows in memory that a subject sees can be told without putting a query
together. Each scope **admits** rows to a subject (`ScopeSpec.Admits`), and the subject sees the
rows that all scopes admit of the rules that address it (`ScopeSpec.shown`). Scopes can only take
rows away, therefore, and a rule that does not address the subject has no say. If there is no such
scope, everything is seen, or nothing where the table is paranoid.

There is one exception. A scope asks for values, and a stored number may be **confused** with the
one that is asked for (`Value.Confused`). Then the row is seen although the scope does not admit it
(`Policy.where_confuses_neighbours`); no row is kept from the subject in this way.

A scope is a list of narrowings (`ScopeSpec.narrow_eq`), none of which is a limit, so that what is
seen does not depend on the order of the scopes. -/

namespace Warden

/-! ## What a scope admits -/

/-- A value equals a text iff it is this text. -/
theorem Value.equal_string {value : Value} {text : String} :
    value.equal (.string text) = true ↔ value = .string text := by
  cases value with
  | string other =>
    show (other == text) = true ↔ _
    rw [beq_iff_eq, Value.string.injEq]
  | _ => exact ⟨nofun, nofun⟩

namespace ScopeSpec

variable {S : Type} [Principal S]

/-- Whether a scope admits a row to a subject if stored values have to fit those that are asked for
in a given way. A subject without identity owns no row. -/
def AdmitsBy (fits : Value → Value → Prop) (spec : ScopeSpec) (subject : S) (row : Row) : Prop :=
  match spec with
  | .nothing => False
  | .owner column =>
    ∃ sub, Principal.sub subject = some sub ∧ row.get? column = some (.string sub)
  | .matching values =>
    ∀ entry ∈ values, ∃ stored, row.get? entry.1 = some stored ∧ fits stored entry.2

/-- Whether a scope **admits** a row to a subject: its values are equal to those asked for. -/
def Admits (spec : ScopeSpec) (subject : S) (row : Row) : Prop :=
  spec.AdmitsBy Value.Equals subject row

/-- Whether a scope **tells** the values of a row **apart** from those that it asks for: none is
confused with one of them. -/
def TellsApart (spec : ScopeSpec) (row : Row) : Prop :=
  match spec with
  | .matching values =>
    ∀ entry ∈ values, ∀ stored, row.get? entry.1 = some stored → ¬ stored.Confused entry.2
  | _ => True

instance (fits : Value → Value → Prop) [DecidableRel fits] (spec : ScopeSpec) (subject : S)
    (row : Row) : Decidable (spec.AdmitsBy fits subject row) :=
  match spec with
  | .nothing => isFalse id
  | .owner column =>
    decidable_of_iff
      (((Principal.sub subject).any fun sub =>
        (row.get? column).any fun stored => stored.equal (.string sub)) = true)
      (by simp [AdmitsBy, Option.any_eq_true, Value.equal_string])
  | .matching values =>
    decidable_of_iff
      (∀ entry ∈ values,
        ((row.get? entry.1).any fun stored => decide (fits stored entry.2)) = true)
      (by simp [AdmitsBy, Option.any_eq_true])

/-- What a scope admits it admits as well if values only have to be alike. -/
theorem Admits.alike {spec : ScopeSpec} {subject : S} {row : Row}
    (admits : spec.Admits subject row) : spec.AdmitsBy Value.Alike subject row := by
  cases spec with
  | matching values =>
    intro entry asked
    obtain ⟨stored, has, equal⟩ := admits entry asked
    exact ⟨stored, has, .inl equal⟩
  | _ => exact admits

/-- Where values are told apart, alike values are equal. -/
theorem admitsBy_alike_iff {spec : ScopeSpec} {row : Row} (apart : spec.TellsApart row)
    (subject : S) : spec.AdmitsBy Value.Alike subject row ↔ spec.Admits subject row := by
  refine ⟨fun alike => ?_, Admits.alike⟩
  cases spec with
  | matching values =>
    intro entry asked
    obtain ⟨stored, has, equal | confused⟩ := alike entry asked
    · exact ⟨stored, has, equal⟩
    · exact absurd confused (apart entry asked stored has)
  | _ => exact alike

/-- The rows that scopes **show** to a subject, of a model that may be paranoid: those that all of
the scopes admit, but none if there is no scope and the model is paranoid. -/
def shown (fits : Value → Value → Prop) [DecidableRel fits] (scopes : List ScopeSpec)
    (paranoid : Bool) (subject : S) (stored : List Row) : List Row :=
  if scopes = [] ∧ paranoid = true then []
  else stored.filter fun row => decide (∀ spec ∈ scopes, spec.AdmitsBy fits subject row)

/-- Where values are told apart, those that are alike show the same rows as those that are equal. -/
theorem shown_alike {scopes : List ScopeSpec} {stored : List Row}
    (apart : ∀ row ∈ stored, ∀ spec ∈ scopes, spec.TellsApart row) (paranoid : Bool) (subject : S) :
    shown Value.Alike scopes paranoid subject stored =
      shown Value.Equals scopes paranoid subject stored := by
  have same : ∀ row ∈ stored, decide (∀ spec ∈ scopes, spec.AdmitsBy Value.Alike subject row) =
      decide (∀ spec ∈ scopes, spec.AdmitsBy Value.Equals subject row) := fun row mem =>
    decide_eq_decide.mpr (forall₂_congr fun spec asks =>
      admitsBy_alike_iff (apart row mem spec asks) subject)
  rw [shown, shown, List.filter_congr same]

/-- What is shown of equal values is shown of values that are alike. -/
theorem shown_subset (scopes : List ScopeSpec) (paranoid : Bool) (subject : S)
    (stored : List Row) : shown Value.Equals scopes paranoid subject stored ⊆
      shown Value.Alike scopes paranoid subject stored := by
  unfold shown
  split
  · exact fun _ => id
  · refine (List.monotone_filter_right stored fun row admitted => ?_).subset
    rw [decide_eq_true_iff] at admitted ⊢
    exact fun spec asks => Admits.alike (admitted spec asks)

/-- The narrowings that a scope consists of, for a subject. -/
def narrowings (spec : ScopeSpec) (subject : S) : List Narrowing :=
  match spec with
  | .nothing => [.nothing]
  | .owner column =>
    match Principal.sub subject with
    | none => [.nothing]
    | some sub => [.hasValue column (.string sub)]
  | .matching values => values.map fun entry => .hasValue entry.1 entry.2

/-- A scope narrows a query by its narrowings. -/
theorem narrow_eq (spec : ScopeSpec) (subject : S) :
    (spec.narrow subject : MemoryQuery → MemoryQuery) =
      fun query => query.narrowBy (spec.narrowings subject) := by
  cases spec with
  | nothing => rfl
  | owner column =>
    unfold narrow narrowings
    cases Principal.sub subject <;> rfl
  | matching values =>
    funext query
    rw [narrowings, MemoryQuery.narrowBy, List.foldl_map]
    rfl

/-- All narrowings of a scope admit a row iff the scope does for values that are alike. -/
theorem admits_narrowings_iff (spec : ScopeSpec) (subject : S) (row : Row) :
    (spec.narrowings subject).all (Narrowing.admits row) = true ↔
      spec.AdmitsBy Value.Alike subject row := by
  cases spec with
  | nothing => exact ⟨nofun, nofun⟩
  | owner column =>
    unfold narrowings AdmitsBy
    cases Principal.sub subject with
    | none => exact ⟨nofun, fun ⟨_, missing, _⟩ => nomatch missing⟩
    | some sub =>
      rw [List.all_cons, List.all_nil, Bool.and_true, Narrowing.admits, MemoryQuery.hasValue_iff]
      simp [Value.equal_string]
  | matching values =>
    rw [narrowings, List.all_map, List.all_eq_true]
    refine forall₂_congr fun entry _ => ?_
    show MemoryQuery.hasValue entry.1 entry.2 row = true ↔ _
    simp only [MemoryQuery.hasValue_iff, Value.equal_iff]

/-- No scope limits the number of rows. -/
theorem unlimited_narrowings (spec : ScopeSpec) (subject : S) (limit : Nat) :
    .atMost limit ∉ spec.narrowings subject := by
  intro limited
  cases spec with
  | nothing => cases List.mem_singleton.mp limited
  | owner column =>
    -- With an identity and without one, the only narrowing is of another kind.
    rw [narrowings] at limited
    split at limited <;> cases List.mem_singleton.mp limited
  | matching values =>
    obtain ⟨entry, -, same⟩ := List.mem_map.mp limited
    cases same

end ScopeSpec

namespace Policy

section Showing

variable {S : Type} [Principal S]

/-- What the narrowings of several scopes leave are the rows that all of the scopes admit. -/
theorem results_of_scopes (scopes : List ScopeSpec) (subject : S) (stored : List Row) :
    Narrowing.results (scopes.map fun spec => spec.narrowings subject).flatten stored =
      stored.filter fun row =>
        decide (∀ spec ∈ scopes, spec.AdmitsBy Value.Alike subject row) := by
  have unlimited (limit : Nat) :
      .atMost limit ∉ (scopes.map fun spec => spec.narrowings subject).flatten := by
    intro limited
    obtain ⟨_, mem, limited⟩ := List.mem_flatten.mp limited
    obtain ⟨spec, -, rfl⟩ := List.mem_map.mp mem
    exact spec.unlimited_narrowings subject limit limited
  rw [Narrowing.results_of_unlimited unlimited]
  refine List.filter_congr fun row _ => ?_
  rw [Bool.eq_iff_iff, decide_eq_true_iff, List.all_flatten, List.all_map, List.all_eq_true]
  exact forall₂_congr fun spec _ => spec.admits_narrowings_iff subject row

variable [Cel.Evaluation] {policy : Policy} {site installed : Site S MemoryQuery} {model : Model}
  {count : Nat} {memory : Memory} {trust : Trust}

/-- Under a policy alone a subject is shown what the scopes for it show of values that are alike. -/
theorem rows_of_install (stored : site.store = memory.store)
    (known : model.rules < site.book.sets.length) (unruled : site.book.rules model.rules = [])
    (installs : policy.install site model = .ok (installed, count)) (subject : S)
    (untrusted : trust.isActive = false) :
    ∃ records, ((Relation.fetch installed).startFrom (Relation.ofSubject model subject) trust).1.1
        = .ok records ∧
      records.map Guarded.row = ScopeSpec.shown Value.Alike (policy.scopesFor model.table subject)
        (model.isParanoid site.config) subject (memory.rows model.name) := by
  have evaluated := congrArg Prod.fst
    (evaluate_of_install known unruled installs subject none trust)
  obtain ⟨sameConfig, sameStore⟩ := store_of_install known installs
  generalize policy.scopesFor model.table subject = scopes at evaluated ⊢
  -- Of these permissions only the scopes matter, which are narrowings.
  generalize filled : Permissions.filled _ _ _ = perms at evaluated
  have registered : perms.scopes = (scopes.map fun spec => spec.narrowings subject).map
      fun scope (query : MemoryQuery) => query.narrowBy scope := by
    rw [← filled, List.map_map]
    exact List.map_congr_left fun spec _ => spec.narrow_eq subject
  have paranoid : perms.paranoid = model.isParanoid site.config :=
    sameConfig ▸ congrArg (fun frame => frame.2.2) (Site.frame_of_evaluate evaluated)
  obtain ⟨records, fetched, rows, -⟩ := (Relation.derived_ofSubject model subject).fetch
    (sameStore.trans stored) untrusted evaluated registered
  refine ⟨records, fetched, rows.trans ?_⟩
  rw [List.nil_append, ScopeSpec.shown]
  by_cases hidden : scopes = [] ∧ model.isParanoid site.config = true
  · rw [if_pos hidden, hidden.1, List.map_nil,
      Permissions.confinement_of_paranoid (paranoid.trans hidden.2)]
    exact Narrowing.results_of_nothing List.mem_cons_self
  · rw [if_neg hidden, Permissions.confinement_of_not, results_of_scopes]
    rintro ⟨isParanoid, empty⟩
    exact hidden ⟨List.map_eq_nil_iff.mp empty, paranoid.symm.trans isParanoid⟩

/-- **What a policy shows.** Where a policy is all that there is for a model, the scopes of all
rules that address a subject show it the stored rows, in their order, whose values are alike to
those that are asked for. These are just the rows that all of the scopes admit, as long as no value
is confused with one that is asked for. In any case all the rows are among them that the scopes
admit. -/
theorem installed_shows (stored : site.store = memory.store)
    (known : model.rules < site.book.sets.length) (unruled : site.book.rules model.rules = [])
    (installs : policy.install site model = .ok (installed, count)) (subject : S)
    (untrusted : trust.isActive = false) :
    let scopes := policy.scopesFor model.table subject
    let paranoid := model.isParanoid site.config
    let rows := memory.rows model.name
    ∃ records, ((Relation.fetch installed).startFrom (Relation.ofSubject model subject) trust).1.1
        = .ok records ∧
      records.map Guarded.row = ScopeSpec.shown Value.Alike scopes paranoid subject rows ∧
      ((∀ row ∈ rows, ∀ spec ∈ scopes, spec.TellsApart row) →
        records.map Guarded.row = ScopeSpec.shown Value.Equals scopes paranoid subject rows) ∧
      ∀ row ∈ ScopeSpec.shown Value.Equals scopes paranoid subject rows,
        row ∈ records.map Guarded.row := by
  intro scopes paranoid rows
  obtain ⟨records, fetched, shown⟩ :=
    rows_of_install stored known unruled installs subject untrusted
  refine ⟨records, fetched, shown, fun apart => shown.trans ?_, fun row admitted => ?_⟩
  · exact ScopeSpec.shown_alike apart _ subject
  · rw [shown]
    exact ScopeSpec.shown_subset _ _ subject _ admitted

end Showing

/-- Two scopes meet Bob: his own notes, and the published ones. Of the four notes he sees the one
that is both, though a rule for editors would hide everything. -/
theorem installed_shows_published :
    let note (owner : String) (published : Bool) : Row :=
      (Row.new [("owner", .string owner), ("published", .bool published)]).markPersisted
    let memory : Memory := { tables := [("notes",
      [note "ada" true, note "bob" false, note "bob" true, note "ada" false])] }
    let table := Table.withFields "notes" ["owner", "published"]
    let site : Site AuthContext MemoryQuery :=
      { book := RuleBook.empty.create.1, store := memory.store }
    let model : Model := { table, rules := 0 }
    let policy : Policy := { tables := [("notes",
      [{ roles := [.authenticated], scope := some (.owner "owner") },
       { scope := some (.matching [("published", .bool true)]) },
       { roles := [.role "editor"], scope := some .nothing }])] }
    let bob := AuthContext.ofUser "bob" []
    site.store = memory.store ∧ model.rules < site.book.sets.length ∧
      site.book.rules model.rules = [] ∧ ({} : Trust).isActive = false ∧
      ∃ installed records, policy.install site model = .ok (installed, 3) ∧
        ((Relation.fetch installed).startFrom (Relation.ofSubject model bob) {}).1.1
          = .ok records ∧
        records.map Guarded.row = [note "bob" true] := by
  intro note memory table site model policy bob
  have unruled : site.book.rules model.rules = [] := RuleBook.rules_of_root rfl
  have check : ∀ rule ∈ policy.tableRules model.table, rule.Checks model.table :=
    List.forall_mem_cons.mpr ⟨⟨by decide, nofun⟩, List.forall_mem_cons.mpr
      ⟨⟨by decide, nofun⟩, List.forall_mem_singleton.mpr ⟨by decide, nofun⟩⟩⟩
  have possible : ∃ result, policy.install site model = .ok result := install_succeeds_iff.mpr check
  obtain ⟨⟨installed, count⟩, installs⟩ := possible
  cases count_of_install installs
  have untrusted : ({} : Trust).isActive = false := rfl
  obtain ⟨records, fetched, rows, -⟩ :=
    installed_shows rfl (by decide) unruled installs bob untrusted
  exact ⟨rfl, by decide, unruled, rfl, installed, records, installs, fetched, rows.trans rfl⟩

/-- **A row may be shown that no scope admits.** Everybody is to see the notes with one number; of
two notes everybody sees both, though only the first one has it, and the second one the number that
comes next. -/
theorem where_confuses_neighbours :
    let note (number : Int) : Row := (Row.new [("n", .int number)]).markPersisted
    let rows := [note 9223372036854775808, note 9223372036854775809]
    let memory : Memory := { tables := [("notes", rows)] }
    let site : Site AuthContext MemoryQuery :=
      { book := RuleBook.empty.create.1, store := memory.store }
    let model : Model := { table := Table.withFields "notes" ["n"], rules := 0 }
    let asked : ScopeSpec := .matching [("n", .int 9223372036854775808)]
    let policy : Policy := { tables := [("notes", [{ scope := some asked }])] }
    let ada := AuthContext.ofUser "ada" []
    site.book.rules model.rules = [] ∧ policy.scopesFor model.table ada = [asked] ∧
      asked.Admits ada (note 9223372036854775808) ∧
      ¬ asked.Admits ada (note 9223372036854775809) ∧
      ∃ installed records, policy.install site model = .ok (installed, 1) ∧
        ((Relation.fetch installed).startFrom (Relation.ofSubject model ada) {}).1.1
          = .ok records ∧
        records.map Guarded.row = rows := by
  intro note rows memory site model asked policy ada
  have unruled : site.book.rules model.rules = [] := RuleBook.rules_of_root rfl
  have check : ∀ rule ∈ policy.tableRules model.table, rule.Checks model.table :=
    List.forall_mem_singleton.mpr ⟨by decide, nofun⟩
  have possible : ∃ installed, policy.install site model = .ok (installed, 1) :=
    exists_install_of_checks check
  obtain ⟨installed, installs⟩ := possible
  have untrusted : ({} : Trust).isActive = false := rfl
  obtain ⟨records, fetched, shown⟩ :=
    rows_of_install rfl (by decide) unruled installs ada untrusted
  refine ⟨unruled, rfl, ?_, ?_, installed, records, installs, fetched, shown.trans ?_⟩
  · unfold ScopeSpec.Admits
    decide +kernel
  · unfold ScopeSpec.Admits
    decide +kernel
  · have alike : ∀ row ∈ rows, decide (∀ spec ∈ [asked], spec.AdmitsBy Value.Alike ada row) =
        true := by decide +kernel
    exact List.filter_eq_self.mpr alike

end Policy

end Warden
