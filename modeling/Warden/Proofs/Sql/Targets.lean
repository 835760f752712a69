import Warden.Proofs.Handling
import Warden.Proofs.Sql.Confinement
import Warden.Proofs.Sql.Writing
/-! # Changes concern one row within the scope
A statement that changes or deletes a stored row **addresses** it (`Guarded.Addresses`): its
conditions are that the row has the key of the record, and the conditions of the scope, joined by
`AND`. No statement comes about without a key (`Guarded.confined_of_finds`). This holds of every
record, however it was handled; without a subject, and in trusted execution, the key is the only
condition.

The key is that of the record as it is (`Guarded.keyValue_handled`). A record that was read from a
store and then assigned another key addresses the row with the new key, and not the one that it was
read from. -/

namespace Warden

open Sql

/-! ## Statements -/

/-- A statement **sets** every assigned field of a row to its current value, and no other. -/
structure Sql.Update.Sets (statement : Update) (row : Row) : Prop where
  /-- These are the fields, in this order. -/
  keys_eq : statement.values.keys = row.changed.keys
  /-- These are their values. -/
  values_eq : ∀ field ∈ row.changed.keys,
    statement.values.get? field = some (.ofValue ((row.get? field).getD .null))

namespace Guarded

variable {S : Type} {site : Site S Select} {record left : Guarded S Select} {trust : Trust}
  {found : Option (Permissions Select)}

/-- Pending changes are written down field by field. -/
theorem keys_pendingLiterals (row : Row) : (pendingLiterals row).keys = row.changed.keys := by
  rw [pendingLiterals, Fields.keys_mapValues, Row.changes, Fields.keys, List.map_map]
  rfl

/-- The literal of an assigned field is that of its current value. -/
theorem get?_pendingLiterals {row : Row} {field : String} (assigned : field ∈ row.changed.keys) :
    (pendingLiterals row).get? field = some (.ofValue ((row.get? field).getD .null)) := by
  rw [pendingLiterals, Fields.get?_mapValues, Row.get?_changes assigned]
  rfl

/-- Conditions of a statement on a table **address** the row with the record's key, within a
scope. -/
structure Addresses (record : Guarded S Select) (scope : List Condition) (table : Table)
    (conditions : List Condition) : Prop where
  /-- The table is the record's. -/
  table_eq : table = record.model.table
  /-- The key comes first, then the scope. -/
  conditions_eq : ∃ key, record.keyValue = some key ∧
    conditions = record.keyCondition key :: scope ∧
    -- They hold of a row iff all of them do.
    ∀ passes, (Condition.allOf conditions).Holds passes ↔
      passes (record.keyCondition key) ∧ ∀ condition ∈ scope, condition.Holds passes
  /-- In the text they stand between the `AND`s of the outermost level. -/
  whereText_eq : Select.whereText conditions =
    " WHERE " ++ " AND ".intercalate (Condition.conjuncts conditions)

/-- The key is compared first. -/
theorem Addresses.head?_eq {scope conditions : List Condition} {table : Table} {key : Value}
    (addresses : record.Addresses scope table conditions) (keyed : record.keyValue = some key) :
    conditions.head? = some (record.keyCondition key) := by
  obtain ⟨other, same, rfl, -⟩ := addresses.conditions_eq
  cases keyed.symm.trans same
  rfl

/-- The conditions for the record's key and a scope address the record's row. -/
theorem addresses_of_keyed {scope : List Condition} {key : Value}
    (keyed : record.keyValue = some key) :
    record.Addresses scope record.model.table (record.keyCondition key :: scope) := by
  refine ⟨rfl, ⟨key, keyed, rfl, fun passes => ?_⟩, Select.whereText_eq nofun⟩
  rw [Condition.holds_allOf, List.forall_mem_cons]
  rfl

/-! ## Changing -/

/-- **A statement that changes a row** sets the pending changes of the record, and addresses its
row within the scope that is found. -/
theorem sets_of_update {statement : Update} (finds : Finds site trust record left found)
    (written : ((update site).startFrom record trust).1.1 = .ok (.ok statement)) :
    statement.Sets record.row ∧
      record.Addresses (scopeOf found) statement.table statement.conditions := by
  obtain ⟨verdict, checked, -⟩ := left_validate finds
  rw [update_eq, RunOn.startFrom_bind, checked] at written
  rcases verdict with panic | refusal | _
  · cases written
  · cases written
  · -- The statement is made of what the check left, which is the record with the same row.
    obtain ⟨-, key, keyed, rfl⟩ := (plainUpdate_eq_ok_iff finds.again).mp written
    have keyed : record.keyValue = some key := by
      rw [← keyed, keyValue, keyValue, finds.model_eq, finds.row_eq]
    have addressed : record.Addresses (scopeOf found) _ _ := addresses_of_keyed keyed
    refine ⟨⟨?_, ?_⟩, ?_⟩
    · rw [← finds.row_eq]
      exact keys_pendingLiterals left.row
    · rw [← finds.row_eq]
      exact fun field => get?_pendingLiterals
    · rw [keyCondition, finds.model_eq]
      exact addressed

/-- Where no permissions are enforced, a record with pending changes and a key can be changed. -/
theorem updates_iff_of_not_inForce
    (free : record.binding.restriction.isEnforced trust = false) :
    record.Updates site trust ↔ record.row.changes ≠ [] ∧ record.keyValue ≠ none := by
  have finds := finds_of_not_inForce site free
  obtain ⟨verdict, checked, passes⟩ := left_validate finds
  cases passes rfl
  rw [Updates, update_eq, RunOn.startFrom_bind, checked]
  dsimp only
  simp only [plainUpdate_eq_ok_iff finds.again]
  constructor
  · rintro ⟨-, pending, key, keyed, -⟩
    exact ⟨pending, by simp [keyed]⟩
  · rintro ⟨pending, keyed⟩
    obtain ⟨key, keyed⟩ := Option.ne_none_iff_exists'.mp keyed
    exact ⟨_, pending, key, keyed, rfl⟩

/-! ## Deleting -/

/-- Whether permissions that were found let a record be deleted; without any it may. -/
def mayDestroy (found : Option (Permissions Select)) : Bool :=
  (found.map Permissions.destroyable).getD true

/-- What deleting a record answers. -/
theorem startFrom_delete (finds : Finds site trust record left found) :
    (delete site).startFrom record trust =
      ((.ok (if mayDestroy found then (record.targets (scopeOf found)).map fun conditions =>
          some { table := record.model.table, conditions }
        else .ok none), left), trust) := by
  have allowed : (allowsDestroy site).startFrom record trust =
      ((.ok (mayDestroy found), left), trust) := by
    unfold allowsDestroy
    rw [RunOn.startFrom_bind, finds.first]
    cases found <;> rfl
  have same : left.targets (scopeOf found) = record.targets (scopeOf found) := by
    simp only [targets, keyValue, keyCondition, finds.model_eq, finds.row_eq]
  unfold delete
  rw [RunOn.startFrom_bind, allowed]
  dsimp only
  cases mayDestroy found with
  | false => rfl
  | true =>
    rw [if_pos rfl, RunOn.startFrom_bind, RunOn.startFrom_object]
    dsimp only
    rw [RunOn.startFrom_bind, startFrom_targetConditions finds.again, same, finds.model_eq]
    dsimp only
    cases record.targets (scopeOf found) <;> rfl

/-- **A statement that deletes a row** comes about iff the record may be deleted and has a key. -/
theorem delete_eq_some_iff {statement : Delete} (finds : Finds site trust record left found) :
    ((delete site).startFrom record trust).1.1 = .ok (.ok (some statement)) ↔
      mayDestroy found = true ∧ ∃ key, record.keyValue = some key ∧
        statement = { table := record.model.table
                      conditions := record.keyCondition key :: scopeOf found } := by
  rw [startFrom_delete finds]
  cases mayDestroy found with
  | false => exact ⟨nofun, nofun⟩
  | true =>
    rw [if_pos rfl]
    cases told : record.targets (scopeOf found) with
    | error e =>
      refine ⟨nofun, ?_⟩
      rintro ⟨-, key, keyed, -⟩
      cases told.symm.trans (targets_eq_ok_iff.mpr ⟨key, keyed, rfl⟩)
    | ok conditions =>
      obtain ⟨key, keyed, rfl⟩ := targets_eq_ok_iff.mp told
      constructor
      · intro same
        cases same
        exact ⟨rfl, key, keyed, rfl⟩
      · rintro ⟨-, other, same, rfl⟩
        cases keyed.symm.trans same
        rfl

/-- Deleting is declined iff the record may not be deleted. -/
theorem delete_eq_none_iff (finds : Finds site trust record left found) :
    ((delete site).startFrom record trust).1.1 = .ok (.ok none) ↔ mayDestroy found = false := by
  rw [startFrom_delete finds]
  cases mayDestroy found with
  | false => exact ⟨fun _ => rfl, fun _ => rfl⟩
  | true =>
    rw [if_pos rfl]
    cases record.targets (scopeOf found) <;> exact ⟨nofun, nofun⟩

/-! ## Confinement -/

/-- Changes of a record are **confined** to its row, within a scope. -/
structure Confined (site : Site S Select) (trust : Trust) (record : Guarded S Select)
    (destroyable : Bool) (scope : List Condition) : Prop where
  /-- A statement that changes a row sets the pending changes, and addresses the record's row. -/
  updates : ∀ statement, ((update site).startFrom record trust).1.1 = .ok (.ok statement) →
    statement.Sets record.row ∧ record.Addresses scope statement.table statement.conditions
  /-- A statement that deletes a row addresses the record's. -/
  deletes : ∀ statement, ((delete site).startFrom record trust).1.1 = .ok (.ok (some statement)) →
    record.Addresses scope statement.table statement.conditions
  /-- There is one iff the record may be deleted and has a key. -/
  deletes_iff :
    (∃ statement, ((delete site).startFrom record trust).1.1 = .ok (.ok (some statement))) ↔
      destroyable = true ∧ record.keyValue ≠ none
  /-- Deleting is declined iff the record may not be deleted. -/
  declines_iff : ((delete site).startFrom record trust).1.1 = .ok (.ok none) ↔ destroyable = false

/-- **Changes are confined** to the scope that is found. -/
theorem confined_of_finds (finds : Finds site trust record left found) :
    record.Confined site trust (mayDestroy found) (scopeOf found) := by
  refine ⟨fun statement => sets_of_update finds, ?_, ?_, delete_eq_none_iff finds⟩
  · intro statement deletes
    obtain ⟨-, key, keyed, rfl⟩ := (delete_eq_some_iff finds).mp deletes
    exact addresses_of_keyed keyed
  · constructor
    · rintro ⟨statement, deletes⟩
      obtain ⟨may, key, keyed, -⟩ := (delete_eq_some_iff finds).mp deletes
      exact ⟨may, by simp [keyed]⟩
    · rintro ⟨may, keyed⟩
      obtain ⟨key, keyed⟩ := Option.ne_none_iff_exists'.mp keyed
      exact ⟨_, (delete_eq_some_iff finds).mpr ⟨may, key, keyed, rfl⟩⟩

/-- A panic while permissions are worked out ends changing and deleting, too. -/
theorem panics_of_permissions {panic : Panic}
    (inForce : record.binding.restriction.isEnforced trust = true)
    (panicked : (permissions site).startFrom record trust = ((.error panic, left), trust)) :
    ((update site).startFrom record trust).1.1 = .error panic ∧
      ((delete site).startFrom record trust).1.1 = .error panic := by
  constructor
  · rw [update_eq, RunOn.startFrom_bind, startFrom_validate_of_panic inForce panicked]
  · have refused : (allowsDestroy site).startFrom record trust = ((.error panic, left), trust) := by
      unfold allowsDestroy
      rw [RunOn.startFrom_bind, startFrom_enforced inForce, panicked]
      rfl
    unfold delete
    rw [RunOn.startFrom_bind, refused]

/-- Where rows are hidden without a scope, and there is none, no row is meant. -/
theorem never_mem_scopeOf {perms : Permissions Select} (paranoid : perms.paranoid = true)
    (empty : perms.scopes = []) : .never ∈ scopeOf (some perms) := by
  rw [scopeOf, Option.bind_some, Permissions.relation_of_hidden paranoid empty]
  exact List.mem_cons_self

/-- **Changes concern one row within the scope.** Take any record of a model, however it was bound,
copied, asked and changed. Outside trusted execution, if it is bound to a subject, then either a rule
panics, which ends changing and deleting it, or both are confined to the row with its key within
the scope of the permissions that have been worked out for the subject. The scope means no row if
rows are hidden and none is registered. Without a subject, or in trusted execution, both are
confined to the row with its key. -/
theorem changes_confined (site : Site S Select) (model : Model) (row : Row) (moves : List (Move S))
    (trust : Trust) :
    let record := (wrap model row).handled site moves
    (∀ subject, record.binding.restriction = .bound subject → trust.isActive = false →
      (∃ panic, ((permissions site).startFrom record trust).1.1 = .error panic ∧
        ((update site).startFrom record trust).1.1 = .error panic ∧
        ((delete site).startFrom record trust).1.1 = .error panic) ∨
      ∃ perms, ((permissions site).startFrom record trust).1.1 = .ok (.ok perms) ∧
        (∃ row earlier,
          ((site.evaluate model subject (some row)).startFrom earlier).1 = .ok perms) ∧
        (model.isParanoid site.config = true → perms.scopes = [] →
          .never ∈ scopeOf (some perms)) ∧
        (record.Updates site trust ↔ record.Permits site trust record.savingAction ∧
          record.row.changes ≠ [] ∧ record.keyValue ≠ none) ∧
        record.Confined site trust perms.destroyable (scopeOf (some perms))) ∧
    (record.binding.restriction = .unbound ∨ trust.isActive = true →
      (record.Updates site trust ↔ record.row.changes ≠ [] ∧ record.keyValue ≠ none) ∧
        record.Confined site trust true []) := by
  intro record
  -- Whatever was done to the record, what it knows was worked out for its subject.
  have coherent : record.Coherent site model := (coherent_wrap site model row).handled moves
  constructor
  · intro subject bound untrusted
    have inForce := Restriction.isEnforced_of_bound bound untrusted
    rcases finds_of_inForce site inForce with
      ⟨panic, left, panicked, -⟩ | ⟨perms, left, found, finds⟩
    · exact .inl ⟨panic, congrArg (fun run => run.1.1) panicked,
        panics_of_permissions inForce panicked⟩
    · obtain ⟨row, earlier, evaluated⟩ := coherent.evaluated_of_found bound found
      have frame := Site.frame_of_evaluate evaluated
      have paranoid : perms.paranoid = model.isParanoid site.config :=
        congrArg (fun frame => frame.2.2) frame
      refine .inr ⟨perms, congrArg (fun run => run.1.1) found, ⟨row, earlier, evaluated⟩, ?_,
        updates_iff inForce, confined_of_finds finds⟩
      exact fun hidden empty => never_mem_scopeOf (paranoid.trans hidden) empty
  · intro free
    have free := Restriction.isEnforced_of_free free
    exact ⟨updates_iff_of_not_inForce free, confined_of_finds (finds_of_not_inForce site free)⟩

/-- Notes that everybody may change and delete, as far as they are Ada's. A note that was read and
retitled is changed and deleted within that scope; without a subject the key alone counts. -/
theorem changes_confined_retitled :
    let adas : List Select.Narrowing := [.hasValue "owner" (.string "ada")]
    let site : Site Unit Select :=
      { book := RuleBook.empty.create.1.register 0 (.plain (.can .update [] (.can .destroy []
          (.narrow fun query => query.narrowBy adas)))) }
    let model : Model := { table := Table.withFields "notes" ["title", "owner"], rules := 0 }
    let row := Row.stored [("id", .int 7), ("title", .string "old")]
    let bound := (wrap model row).handled site [.restrict (), .set "title" (.string "new"), .clone]
    let free := (wrap model row).handled site [.restrict (), .unrestrict]
    let key : Condition := .compare .eq ⟨"notes", "id"⟩ (.ofValue (.int 7))
    let owned : Condition := .hasValue ⟨"notes", "owner"⟩ (.string "ada")
    ({} : Trust).isActive = false ∧ bound.binding.restriction = .bound () ∧
      (∃ perms, ((permissions site).startFrom bound {}).1.1 = .ok (.ok perms) ∧
        bound.Confined site {} perms.destroyable (scopeOf (some perms))) ∧
      (∃ statement, ((update site).startFrom bound {}).1.1 = .ok (.ok statement) ∧
        statement.values = [("title", .ofValue (.string "new"))] ∧
        statement.conditions = [key, owned]) ∧
      (∃ statement, ((delete site).startFrom bound {}).1.1 = .ok (.ok (some statement)) ∧
        statement.conditions = [key, owned]) ∧
      free.binding.restriction = .unbound ∧ free.Confined site {} true [] := by
  intro adas site model row bound free key owned
  have restriction : bound.binding.restriction = .bound () := rfl
  have updates : ((update site).startFrom bound {}).1.1 = .ok (.ok
      { table := model.table, values := [("title", .ofValue (.string "new"))]
        conditions := [key, owned] }) := by cbv
  have deletes : ((delete site).startFrom bound {}).1.1 = .ok (.ok (some
      { table := model.table, conditions := [key, owned] })) := by cbv
  refine ⟨rfl, restriction, ?_, ⟨_, updates, rfl, rfl⟩, ⟨_, deletes, rfl⟩, rfl, ?_⟩
  · rcases (changes_confined site model row
      [.restrict (), .set "title" (.string "new"), .clone] {}).1 () restriction rfl with
      ⟨panic, -, panicked, -⟩ | ⟨perms, found, -, -, -, confined⟩
    · cases updates.symm.trans panicked
    · exact ⟨perms, found, confined⟩
  · exact ((changes_confined site model row [.restrict (), .unrestrict] {}).2 (.inl rfl)).2

/-! ## The key of the record -/

/-- A record either panics or is confined to some scope. -/
theorem panics_or_confined (site : Site S Select) (record : Guarded S Select) (trust : Trust) :
    (∃ panic, ((update site).startFrom record trust).1.1 = .error panic ∧
      ((delete site).startFrom record trust).1.1 = .error panic) ∨
    ∃ destroyable scope, record.Confined site trust destroyable scope := by
  cases inForce : record.binding.restriction.isEnforced trust with
  | true =>
    rcases finds_of_inForce site inForce with
      ⟨panic, left, panicked, -⟩ | ⟨perms, left, found, finds⟩
    · exact .inl ⟨panic, panics_of_permissions inForce panicked⟩
    · exact .inr ⟨_, _, confined_of_finds finds⟩
  | false => exact .inr ⟨_, _, confined_of_finds (finds_of_not_inForce site inForce)⟩

/-- **The key written last** is the key of a record that was read, or else the stored one. -/
theorem keyValue_handled {model : Model} {values : FieldValues} {key : Value}
    {moves : List (Move S)} (stored : values.get? model.table.primaryKey = some key)
    (assigns : ∀ row, Move.replace row ∉ moves) :
    let start : Guarded S Select := wrap model (Row.stored values)
    (start.handled site moves).keyValue =
      some ((Fields.last? (written site start moves) model.table.primaryKey).getD key) := by
  intro start
  have coherent := (coherent_wrap site model (Row.stored values)).handled moves
  rw [keyValue, coherent.model_eq, row_handled assigns, Row.get?_setAll,
    show start.row.get? model.table.primaryKey = some key from stored]
  cases Fields.last? (written site start moves) model.table.primaryKey <;> rfl

/-- **Statements address the key written last.** Take a record that was read from a store under a
key, and assign fields in any way, for any subject. A statement that changes or deletes the record
then compares the primary key with the key that was written last. It compares it with the key of the
stored row just where no key was written, or one with the same literal. -/
theorem addresses_written_key (site : Site S Select) (model : Model) (values : FieldValues)
    (key : Value) (stored : values.get? model.table.primaryKey = some key)
    (moves : List (Move S)) (assigns : ∀ row, Move.replace row ∉ moves) (trust : Trust) :
    let start : Guarded S Select := wrap model (Row.stored values)
    let record := start.handled site moves
    let last := Fields.last? (written site start moves) model.table.primaryKey
    let hasKey (key : Value) : Condition :=
      .compare .eq ⟨model.table.name, model.table.primaryKey⟩ (.ofValue key)
    (∀ statement, ((update site).startFrom record trust).1.1 = .ok (.ok statement) →
      statement.conditions.head? = some (hasKey (last.getD key))) ∧
    (∀ statement, ((delete site).startFrom record trust).1.1 = .ok (.ok (some statement)) →
      statement.conditions.head? = some (hasKey (last.getD key))) ∧
    (hasKey (last.getD key) = hasKey key ↔
      ∀ written, last = some written → Literal.ofValue written = Literal.ofValue key) := by
  intro start record last hasKey
  have coherent : record.Coherent site model :=
    (coherent_wrap site model (Row.stored values)).handled moves
  have keyed : record.keyValue = some (last.getD key) := keyValue_handled stored assigns
  -- Every scope comes after the key.
  have addressed {scope table conditions} (addresses : record.Addresses scope table conditions) :
      conditions.head? = some (hasKey (last.getD key)) := by
    obtain ⟨other, same, rfl, -⟩ := addresses.conditions_eq
    cases keyed.symm.trans same
    rw [List.head?_cons, keyCondition, coherent.model_eq]
  refine ⟨?_, ?_, ?_⟩
  · intro statement written
    rcases panics_or_confined site record trust with ⟨panic, panicked, -⟩ | ⟨_, _, confined⟩
    · cases panicked.symm.trans written
    · exact addressed (confined.updates statement written).2
  · intro statement written
    rcases panics_or_confined site record trust with ⟨panic, -, panicked⟩ | ⟨_, _, confined⟩
    · cases panicked.symm.trans written
    · exact addressed (confined.deletes statement written)
  · -- Two comparisons with the same column are equal iff their literals are.
    cases last with
    | none => exact ⟨fun _ _ => nofun, fun _ => rfl⟩
    | some written =>
      constructor
      · intro same other is
        cases is
        exact (Condition.compare.inj same).2.2
      · intro same
        exact congrArg (Condition.compare .eq ⟨model.table.name, model.table.primaryKey⟩)
          (same written rfl)

/-- A note that was read under the key 7 and got a new title is changed under that key. -/
theorem addresses_written_key_retitled :
    let site : Site Unit Select :=
      { book := RuleBook.empty.create.1.register 0 (.plain (.can .update [] (.grant .destroy []))) }
    let model : Model := { table := Table.withFields "notes" ["title"], rules := 0 }
    let values : FieldValues := [("id", .int 7), ("title", .string "old")]
    let moves : List (Move Unit) := [.restrict (), .assign [("title", .string "new")] {}, .clone]
    let record := (wrap model (Row.stored values)).handled site moves
    values.get? model.table.primaryKey = some (.int 7) ∧ (∀ row, Move.replace row ∉ moves) ∧
      ∃ statement, ((update site).startFrom record {}).1.1 = .ok (.ok statement) ∧
        statement.conditions.head? = some (.compare .eq ⟨"notes", "id"⟩ (.ofValue (.int 7))) := by
  intro site model values moves record
  have stored : values.get? model.table.primaryKey = some (.int 7) := rfl
  have assigns : ∀ row, Move.replace row ∉ moves := by simp [moves]
  have keyed : Fields.last? (written site (wrap model (Row.stored values)) moves)
      model.table.primaryKey = none := by cbv
  let statement : Update :=
    { table := model.table, values := [("title", .ofValue (.string "new"))]
      conditions := [.compare .eq ⟨"notes", "id"⟩ (.ofValue (.int 7))] }
  have updates : ((update site).startFrom record {}).1.1 = .ok (.ok statement) := by cbv
  have addressed :=
    (addresses_written_key site model values (.int 7) stored moves assigns {}).1 statement updates
  exact ⟨stored, assigns, statement, updates, by rw [addressed, keyed]; rfl⟩

/-- A note that was read under the key 7 and assigned the key 8, which its subject may do, is changed
and deleted under the key 8: the row that it was read from stays as it is. -/
theorem reassigned_key_addressed :
    let site : Site Unit Select :=
      { book := RuleBook.empty.create.1.register 0 (.plain (.can .update [] (.grant .destroy []))) }
    let model : Model := { table := Table.withFields "notes" ["title"], rules := 0 }
    let record := (wrap model (Row.stored [("id", .int 7), ("title", .string "old")])).handled site
      [.restrict (), .assign [("id", .int 8)] {}, .clone]
    let hasKey (key : Int) : Condition := .compare .eq ⟨"notes", "id"⟩ (.ofValue (.int key))
    (∃ statement, ((update site).startFrom record {}).1.1 = .ok (.ok statement) ∧
      statement.values = [("id", .ofValue (.int 8))] ∧ statement.conditions = [hasKey 8]) ∧
    (∃ statement, ((delete site).startFrom record {}).1.1 = .ok (.ok (some statement)) ∧
      statement.conditions = [hasKey 8]) ∧ hasKey 8 ≠ hasKey 7 := by
  intro site model record hasKey
  have updates : ((update site).startFrom record {}).1.1 = .ok (.ok
      { table := model.table, values := [("id", .ofValue (.int 8))]
        conditions := [hasKey 8] }) := by cbv
  have deletes : ((delete site).startFrom record {}).1.1 = .ok (.ok (some
      { table := model.table, conditions := [hasKey 8] })) := by cbv
  exact ⟨⟨_, updates, rfl, rfl⟩, ⟨_, deletes, rfl⟩, by decide⟩

end Guarded

end Warden
