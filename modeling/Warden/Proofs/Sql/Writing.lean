import Mathlib.Tactic.Tauto
import Warden.Proofs.Saving
import Warden.Sql.Statement
/-! # Which permission a written statement needs
A record may be written down as a statement that stores a new row or as one that changes a stored
row, whether or not it has been stored before. Both statements are checked as **saving** the record
is: the permission asked for depends on the record (`Guarded.savingAction`), not on the statement
(`Guarded.inserts_iff`, `Guarded.updates_iff`). Where the two disagree, a statement is written on
the strength of the other permission. -/

namespace Warden

open Sql

namespace Guarded

variable {S : Type} {site : Site S Select} {record left : Guarded S Select} {trust : Trust}
  {perms : Permissions Select}

/-- Whether a statement that stores a new row is written. -/
def Inserts (site : Site S Select) (trust : Trust) (record : Guarded S Select) : Prop :=
  ∃ statement, ((insert site).startFrom record trust).1.1 = .ok (.ok statement)

/-- Whether a statement that changes a stored row is written. -/
def Updates (site : Site S Select) (trust : Trust) (record : Guarded S Select) : Prop :=
  ∃ statement, ((update site).startFrom record trust).1.1 = .ok (.ok statement)

/-- There are literals to write iff there are pending changes. -/
theorem isEmpty_pendingLiterals {row : Row} :
    (pendingLiterals row).isEmpty = true ↔ row.changes = [] := by
  rw [pendingLiterals]
  cases row.changes with
  | nil => exact ⟨fun _ => rfl, fun _ => rfl⟩
  | cons entry rest => exact ⟨nofun, nofun⟩

/-- The condition that a row has a key. -/
def keyCondition (record : Guarded S Select) (key : Value) : Condition :=
  .compare .eq ⟨record.model.table.name, record.model.table.primaryKey⟩ (.ofValue key)

/-- The conditions of the scope of permissions that were found; none if nothing confines rows. -/
def scopeOf (found : Option (Permissions Select)) : List Condition :=
  ((found.bind Permissions.relation).map Select.conditions).getD []

/-- Which rows a change of a record concerns, within a scope. -/
def targets (record : Guarded S Select) (scope : List Condition) :
    Except Error (List Condition) :=
  match record.keyValue with
  | none => .error (.storage ("missing primary key '" ++ record.model.table.primaryKey
      ++ "' on '" ++ record.model.table.name ++ "'"))
  | some key => .ok (record.keyCondition key :: scope)

/-- A change concerns the row with the record's key, within the scope that is found. -/
theorem startFrom_targetConditions {found : Option (Permissions Select)}
    (known : (enforced site).startFrom record trust = ((.ok found, record), trust)) :
    (targetConditions site).startFrom record trust =
      ((.ok (record.targets (scopeOf found)), record), trust) := by
  unfold targetConditions targets
  rw [RunOn.startFrom_bind, RunOn.startFrom_object]
  dsimp only
  cases record.keyValue with
  | none => rfl
  | some key =>
    dsimp only
    rw [RunOn.startFrom_bind, known, scopeOf]
    dsimp only
    cases found.bind Permissions.relation <;> rfl

/-- A change concerns some rows iff the record has a key. -/
theorem targets_eq_ok_iff {scope conditions : List Condition} :
    record.targets scope = .ok conditions ↔
      ∃ key, record.keyValue = some key ∧ conditions = record.keyCondition key :: scope := by
  unfold targets
  cases record.keyValue with
  | none => exact ⟨nofun, nofun⟩
  | some key =>
    constructor
    · intro same
      cases same
      exact ⟨key, rfl, rfl⟩
    · rintro ⟨_, same, rfl⟩
      cases same
      rfl

/-- The statement that changes the stored row, without the check before saving. -/
def plainUpdate (site : Site S Select) : RunOn (Guarded S Select) (Except Error Update) := do
  let record ← RunOn.object
  let table := record.model.table
  let values := pendingLiterals record.row
  if values.isEmpty then
    return .error (.storage ("nothing to update on '" ++ table.name ++ "'"))
  else
    match ← targetConditions site with
    | .error e => return .error e
    | .ok conditions => return .ok { table, values, conditions }

/-- The statement is made after the check. -/
theorem update_eq (site : Site S Select) :
    update site = validate site >>= fun verdict => match verdict with
      | .error refusal => pure (.error refusal.toError)
      | .ok () => plainUpdate site := rfl

/-- There is a statement iff the record has pending changes and a key. -/
theorem plainUpdate_eq_ok_iff {found : Option (Permissions Select)} {statement : Update}
    (known : (enforced site).startFrom record trust = ((.ok found, record), trust)) :
    ((plainUpdate site).startFrom record trust).1.1 = .ok (.ok statement) ↔
      record.row.changes ≠ [] ∧ ∃ key, record.keyValue = some key ∧
        statement = { table := record.model.table, values := pendingLiterals record.row
                      conditions := record.keyCondition key :: scopeOf found } := by
  unfold plainUpdate
  rw [RunOn.startFrom_bind, RunOn.startFrom_object]
  dsimp only
  by_cases nothing : record.row.changes = []
  · rw [if_pos (isEmpty_pendingLiterals.mpr nothing)]
    exact ⟨nofun, fun pending => absurd nothing pending.1⟩
  · rw [if_neg (isEmpty_pendingLiterals.not.mpr nothing), RunOn.startFrom_bind,
      startFrom_targetConditions known]
    dsimp only
    cases told : record.targets (scopeOf found) with
    | error e =>
      refine ⟨nofun, ?_⟩
      rintro ⟨-, key, keyed, -⟩
      cases told.symm.trans (targets_eq_ok_iff.mpr ⟨key, keyed, rfl⟩)
    | ok conditions =>
      obtain ⟨key, keyed, rfl⟩ := targets_eq_ok_iff.mp told
      constructor
      · intro same
        cases same
        exact ⟨nothing, key, keyed, rfl⟩
      · rintro ⟨-, other, same, rfl⟩
        cases keyed.symm.trans same
        rfl

/-- **Storing a new row** needs permission to save the record, and pending changes. -/
theorem inserts_iff (inForce : record.binding.restriction.isEnforced trust = true) :
    record.Inserts site trust ↔
      record.Permits site trust record.savingAction ∧ record.row.changes ≠ [] := by
  refine validated_ok_iff _ inForce fun perms left found => ?_
  rw [← (left_permissions found).2.1, RunOn.startFrom_bind, RunOn.startFrom_object]
  dsimp only
  by_cases nothing : left.row.changes = []
  · rw [if_pos (isEmpty_pendingLiterals.mpr nothing)]
    exact ⟨nofun, fun pending => absurd nothing pending⟩
  · rw [if_neg (isEmpty_pendingLiterals.not.mpr nothing)]
    exact ⟨fun _ => nothing, fun _ => ⟨_, rfl⟩⟩

/-- **Changing a stored row** needs the row's key besides. -/
theorem updates_iff (inForce : record.binding.restriction.isEnforced trust = true) :
    record.Updates site trust ↔
      record.Permits site trust record.savingAction ∧
        record.row.changes ≠ [] ∧ record.keyValue ≠ none := by
  refine validated_ok_iff _ inForce fun perms left found => ?_
  obtain ⟨model, row, restriction⟩ := left_permissions found
  -- The conditions ask for permissions once more, and find those of the check.
  have known : (enforced site).startFrom left trust = ((.ok (some perms), left), trust) := by
    rw [startFrom_enforced (by rw [restriction]; exact inForce), permissions_again found]
    rfl
  have key : left.keyValue = record.keyValue := by rw [keyValue, keyValue, model, row]
  rw [← row, ← key]
  constructor
  · rintro ⟨statement, written⟩
    obtain ⟨pending, key, keyed, -⟩ := (plainUpdate_eq_ok_iff known).mp written
    exact ⟨pending, Option.isSome_iff_ne_none.mp (by rw [keyed]; rfl)⟩
  · rintro ⟨pending, keyed⟩
    obtain ⟨key, keyed⟩ := Option.ne_none_iff_exists'.mp keyed
    exact ⟨_, (plainUpdate_eq_ok_iff known).mpr ⟨pending, key, keyed, rfl⟩⟩

/-! ## Notes

A table where everybody may do one thing only, to show where the two permissions differ. -/

/-- Notes with a title; everybody is granted one action on them. -/
def notes (granted : Action) : Site Unit Select :=
  { book := RuleBook.empty.create.1.register 0 (.plain (.grant granted [])) }

/-- A note, seen by somebody. -/
def note (row : Row) : Guarded Unit Select :=
  { model := { table := Table.withFields "notes" ["title"], rules := 0 }, row
    binding := .fresh (.bound ()) }

/-- The row of a note that was stored and then got a new title. -/
def retitled : Row := (Row.stored [("id", .string "7")]).set "title" (.string "new")

/-- The row of a note that was never stored. -/
def unstored : Row := Row.new [("id", .string "7"), ("title", .string "new")]

/-- The action granted on notes is all that is permitted. -/
theorem permits_note (granted action : Action) (row : Row) :
    (note row).Permits (notes granted) {} action ↔
      (((((note row).model.noPermissions {} : Permissions Select).can granted []).isModifiable action
        (some row.changes)).startFrom {}).1 = .ok true := by
  have rules : (notes granted).book.rules 0 = [.plain (.grant granted [])] :=
    RuleBook.rules_of_root rfl
  have evaluated : (((notes granted).evaluate (note row).model () (some row)).startFrom {}).1 =
      .ok (((note row).model.noPermissions {} : Permissions Select).can granted []) := by
    rw [Site.evaluate_of_rules rules]
    rfl
  rw [Permits, permissions_of_fresh rfl evaluated]
  constructor
  · rintro ⟨perms, found, accepted⟩
    cases found
    exact accepted
  · intro accepted
    exact ⟨_, rfl, accepted⟩

/-- **A statement is checked as saving the record is.** Where the subject's permissions are in
force, both statements need the permission to save the record. Storing a row hence respects the
permission to create it just where the record is new, or there is nothing to write, or permission
to update implies permission to create; changing a row respects the permission to update it just
where the record is not new, or there is nothing to write or no key, or permission to create
implies permission to update. -/
theorem writes_check_saving (inForce : record.binding.restriction.isEnforced trust = true) :
    (record.Inserts site trust ↔ record.row.changes ≠ [] ∧
      if record.row.isNew then record.Creatable site trust else record.Updatable site trust) ∧
    (record.Updates site trust ↔ record.row.changes ≠ [] ∧ record.keyValue ≠ none ∧
      if record.row.isNew then record.Creatable site trust else record.Updatable site trust) ∧
    ((record.Inserts site trust → record.Creatable site trust) ↔
      record.row.isNew = true ∨ record.row.changes = [] ∨
        (record.Updatable site trust → record.Creatable site trust)) ∧
    ((record.Updates site trust → record.Updatable site trust) ↔
      record.row.isNew = false ∨ record.row.changes = [] ∨ record.keyValue = none ∨
        (record.Creatable site trust → record.Updatable site trust)) := by
  rw [inserts_iff inForce, updates_iff inForce, creatable_iff, updatable_iff, savingAction]
  cases record.row.isNew with
  | true =>
    simp only [if_true]
    refine ⟨and_comm, ?_, ?_, ?_⟩ <;> tauto
  | false =>
    simp only [Bool.false_eq_true, if_false]
    refine ⟨and_comm, ?_, ?_, ?_⟩ <;> tauto

/-- Everybody who may update notes may also write one down as a change. -/
theorem writes_check_saving_retitled :
    (note retitled).binding.restriction.isEnforced {} = true ∧
      (note retitled).Updates (notes .update) {} ∧ (note retitled).Updatable (notes .update) {} := by
  have inForce : (note retitled).binding.restriction.isEnforced {} = true := rfl
  have updatable : (note retitled).Updatable (notes .update) {} :=
    updatable_iff.mpr ((permits_note _ _ _).mpr rfl)
  exact ⟨inForce, (writes_check_saving inForce).2.1.mpr ⟨nofun, nofun, updatable⟩, updatable⟩

/-- A stored note is written down as a new row by those who may only update it, and a note that was
never stored as a change by those who may only create it. -/
theorem written_without_permission :
    ((note retitled).Inserts (notes .update) {} ∧ ¬ (note retitled).Creatable (notes .update) {}) ∧
    (note unstored).Updates (notes .create) {} ∧ ¬ (note unstored).Updatable (notes .create) {} := by
  rw [inserts_iff rfl, updates_iff rfl, creatable_iff, updatable_iff, permits_note, permits_note,
    permits_note, permits_note]
  exact ⟨⟨⟨rfl, nofun⟩, nofun⟩, ⟨rfl, nofun, nofun⟩, nofun⟩

end Guarded

end Warden
