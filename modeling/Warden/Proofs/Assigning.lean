import Warden.Proofs.Handling
import Warden.Proofs.Verdicts
/-! # Assigning many values at once
Values from outside are assigned as far as the subject may set them: those of granted fields are
taken over and the others are left out. What is left out and what is taken over is worked out by
two different walks over the values, which **share them out** between them
(`Permissions.not_allows_eq`, `Permissions.permitted_eq`).

The permissions are those that saving the record calls for, and they are found before anything is
assigned. A record without pending changes has just the values taken over as its pending changes
afterwards (`Row.changes_setAll`), so that the check before it is saved is about them, by the same
permissions (`Guarded.assigns_permitted`). A new record is built in the same way from the fields
that may be set when a record is created. -/

namespace Warden

/-! ## Rows -/

namespace Row

variable {row : Row} {values : FieldValues} {field : String} {value : Value}

/-- Assigning values marks their fields. -/
theorem changed_setAll (row : Row) (written : List (String × Value)) :
    (row.setAll written).changed =
      row.changed.insertAll (Fields.mapValues (fun _ => ()) written) := by
  induction written generalizing row with
  | nil => rfl
  | cons pair rest ih => exact ih (row.set pair.1 pair.2)

/-- Assigning values does not store a row. -/
theorem persisted_setAll (row : Row) (written : List (String × Value)) :
    (row.setAll written).persisted = row.persisted := by
  induction written generalizing row with
  | nil => rfl
  | cons pair rest ih => exact ih (row.set pair.1 pair.2)

/-- Marked afterwards are the fields that were marked and those of the values. -/
theorem mem_changed_setAll {written : List (String × Value)} :
    field ∈ (row.setAll written).changed.keys ↔
      field ∈ Fields.keys written ∨ field ∈ row.changed.keys := by
  have marked : (Fields.last? (Fields.mapValues (fun _ => ()) written) field).isSome = true ↔
      field ∈ Fields.keys written := by
    rw [Fields.isSome_last?, ← Fields.keys, Fields.keys_mapValues]
  rw [← Fields.has_iff_mem_keys, Fields.has, changed_setAll, Fields.get?_insertAll,
    Option.isSome_or, Bool.or_eq_true, marked, ← Fields.has, Fields.has_iff_mem_keys]

/-- If every value of a map has been assigned and no other field is marked, the pending changes are
the map. -/
theorem changes_eq (marked : row.changed = Fields.mapValues (fun _ => ()) values)
    (assigned : ∀ entry ∈ values, row.get? entry.1 = some entry.2) : row.changes = values := by
  rw [changes, marked, Fields.mapValues, List.map_map]
  refine (List.map_congr_left fun entry mem => ?_).trans (List.map_id values)
  dsimp only [Function.comp_def, id]
  rw [assigned entry mem]
  rfl

/-- Every value of a map that is assigned is the value of its field. -/
theorem get?_setAll_of_mem (sorted : values.Sorted) (row : Row) {entry : String × Value}
    (mem : entry ∈ values) : (row.setAll values).get? entry.1 = some entry.2 := by
  rw [get?_setAll, Fields.last?_of_sorted sorted, (Fields.get?_eq_some_iff sorted).mpr mem]
  rfl

/-- **The pending changes** of a row that had none are the values that were assigned. -/
theorem changes_setAll (sorted : values.Sorted) (settled : row.changed = []) :
    (row.setAll values).changes = values := by
  refine changes_eq ?_ fun entry mem => get?_setAll_of_mem sorted row mem
  rw [changed_setAll, settled]
  exact Fields.ofList_of_sorted (Fields.sorted_mapValues _ sorted)

/-- The pending changes of a new row are all its values. -/
theorem changes_new (sorted : values.Sorted) : (new values).changes = values :=
  changes_eq rfl fun _ mem => (Fields.get?_eq_some_iff sorted).mpr mem

end Row

/-! ## Sharing out values -/

namespace Permissions

variable {Q : Type} {perms : Permissions Q} {action : Action} {field : String}
  {values : FieldValues}

/-- A field is left out iff it is not granted. -/
theorem not_allows_eq (perms : Permissions Q) (fieldwise : action ≠ .destroy) (field : String) :
    (!perms.allows action (some field)) = (perms.constraint? action field).isNone := by
  rw [allows, if_neg fieldwise, constraint?_eq, Fields.has, Option.not_isSome]

/-- The values of granted fields are taken over. -/
theorem permitted_eq (perms : Permissions Q) (action : Action) (values : FieldValues) :
    perms.permitted action values =
      values.restrict fun field => (perms.constraint? action field).isSome := by
  rw [permitted]
  refine congrArg values.restrict (funext fun field => ?_)
  rw [constraint?_eq, Fields.has]

end Permissions

namespace Guarded

variable {S Q : Type} [Query Q] {site : Site S Q} {record : Guarded S Q} {trust : Trust}

omit [Query Q] in
/-- Saving a record is not destroying it. -/
theorem savingAction_ne_destroy (record : Guarded S Q) : record.savingAction ≠ .destroy := by
  unfold savingAction
  split <;> nofun

omit [Query Q] in
/-- A record **takes over** the values of accepted fields: they are assigned and pending. Every
other field keeps its value, and is pending just if it was before; nothing else changes, apart from
what is known of the subject. -/
structure TakesOver (record : Guarded S Q) (values : FieldValues) (accepted : String → Prop)
    (after : Guarded S Q) : Prop where
  /-- An accepted field has its value, ... -/
  assigned : ∀ field value, values.get? field = some value → accepted field →
    after.row.get? field = some value
  /-- ... and this is a pending change. -/
  pending : ∀ field value, values.get? field = some value → accepted field →
    after.row.changes.get? field = some value
  /-- Every other field has the value that it had, ... -/
  kept : ∀ field, ¬ (field ∈ values.keys ∧ accepted field) →
    after.row.get? field = record.row.get? field
  /-- ... and is marked just if it was. -/
  marked : ∀ field, ¬ (field ∈ values.keys ∧ accepted field) →
    (field ∈ after.row.changed.keys ↔ field ∈ record.row.changed.keys)
  /-- The row is as new as it was. -/
  persisted_eq : after.row.persisted = record.row.persisted
  /-- The model stays. -/
  model_eq : after.model = record.model
  /-- The subject stays. -/
  restriction_eq : after.binding.restriction = record.binding.restriction

omit [Query Q] in
/-- **The accepted part** of some values is taken over by assigning it. -/
theorem takesOver_restrict {values : FieldValues} (sorted : values.Sorted)
    (record : Guarded S Q) (found : Except Panic (Option (Permissions Q)))
    (keep : String → Bool) :
    record.TakesOver values (fun field => keep field = true)
      ((record.keeping found).modifyRow fun row => row.setAll (values.restrict keep)) := by
  have sortedPart := Fields.sorted_restrict sorted keep
  have looked (field : String) : (record.row.setAll (values.restrict keep)).get? field =
      (if keep field then values.get? field else none).or (record.row.get? field) := by
    rw [Row.get?_setAll, Fields.last?_of_sorted sortedPart, Fields.get?_restrict]
  have isMarked (field : String) :
      field ∈ (record.row.setAll (values.restrict keep)).changed.keys ↔
        (field ∈ values.keys ∧ keep field = true) ∨ field ∈ record.row.changed.keys := by
    rw [Row.mem_changed_setAll, Fields.mem_keys_restrict]
  have assigned (field : String) (value : Value) (given : values.get? field = some value)
      (accepted : keep field = true) :
      (record.row.setAll (values.restrict keep)).get? field = some value := by
    rw [looked, if_pos accepted, given]
    rfl
  refine ⟨assigned, fun field value given accepted => ?_, fun field other => ?_,
    fun field other => ?_, Row.persisted_setAll _ _, rfl, Binding.restriction_keeping found⟩
  · have listed : field ∈ values.keys := Fields.has_iff_mem_keys.mp (by rw [Fields.has, given]; rfl)
    show (record.row.setAll (values.restrict keep)).changes.get? field = some value
    rw [Row.get?_changes ((isMarked field).mpr (.inl ⟨listed, accepted⟩)),
      assigned field value given accepted]
    rfl
  · show (record.row.setAll (values.restrict keep)).get? field = _
    have missing : (if keep field then values.get? field else none) = none := by
      split
      · next accepted => exact Fields.get?_eq_none fun listed => other ⟨listed, accepted⟩
      · rfl
    rw [looked, missing, Option.none_or]
  · exact (isMarked field).trans (or_iff_right other)

omit [Query Q] in
/-- All values are taken over by assigning them. -/
theorem takesOver_all {values : FieldValues} (sorted : values.Sorted) (record : Guarded S Q)
    (found : Except Panic (Option (Permissions Q))) :
    record.TakesOver values (fun _ => True)
      ((record.keeping found).modifyRow fun row => row.setAll values) := by
  have all := takesOver_restrict sorted record found fun _ => true
  have whole : values.restrict (fun _ => true) = values := List.filter_eq_self.mpr fun _ _ => rfl
  simpa only [whole] using all

/-- The check before saving is made with the permissions that are known. -/
theorem validateWith_ok_iff_of_known {perms : Permissions Q} (lookup : String → String → String)
    (inForce : record.binding.restriction.isEnforced trust = true)
    (known : record.binding.memo = some perms) :
    ((validateWith site lookup).startFrom record trust).1.1 = .ok (.ok ()) ↔
      ((perms.firstUnmodifiable record.savingAction record.row.changes).startFrom trust).1 =
        .ok none := by
  obtain ⟨subject, bound⟩ := Restriction.bound_of_isEnforced inForce
  have found : record.found site true trust = .ok (some perms) :=
    Binding.found_of_known bound (.inl rfl) known
  rw [validateWith_ok_iff lookup inForce, Permits, startFrom_permissions_eq, found,
    perms.firstUnmodifiable_eq_none]
  constructor
  · rintro ⟨other, same, modifiable⟩
    cases same
    exact modifiable
  · exact fun modifiable => ⟨perms, rfl, modifiable⟩

omit [Query Q] in
/-- The values taken over are all taken iff each of them is accepted by its constraint. -/
theorem taken_permitted_iff {perms : Permissions Q} {action : Action} {values : FieldValues} :
    (∀ field value, (perms.permitted action values).get? field = some value →
      perms.Takes trust action field value) ↔
    ∀ field value constraint, values.get? field = some value →
      perms.constraint? action field = some constraint → constraint.AcceptsAt trust value := by
  constructor
  · intro taken field value constraint given granted
    have part : (perms.permitted action values).get? field = some value := by
      rw [Permissions.permitted_eq, Fields.get?_restrict, granted]
      exact given
    obtain ⟨other, same, accepts⟩ := taken field value part
    cases granted.symm.trans same
    exact accepts
  · intro accepted field value part
    rw [Permissions.permitted_eq, Fields.get?_restrict] at part
    cases granted : perms.constraint? action field with
    | none =>
      rw [granted] at part
      cases part
    | some constraint =>
      rw [granted] at part
      exact ⟨constraint, granted, accepted field value constraint part granted⟩

/-- The record after the values of granted fields were assigned. -/
def takingOver (record : Guarded S Q) (perms : Permissions Q) (values : FieldValues) : Guarded S Q :=
  (record.keeping (.ok (some perms))).modifyRow fun row =>
    row.setAll (perms.permitted record.savingAction values)

/-- **Assigning** where permissions limit the values: those of granted fields are assigned, and the
fields of the others are returned. -/
theorem startFrom_assignPermitted_of_limited {perms : Permissions Q} {values : FieldValues}
    (limited : site.config.strongParameters = true)
    (finds : record.found site false trust = .ok (some perms)) :
    (assignPermitted site values).startFrom record trust =
      ((.ok (values.keys.filter fun field =>
          (perms.constraint? record.savingAction field).isNone), record.takingOver perms values),
        trust) := by
  have rejects : (values.keys.filter fun field =>
      !perms.allows record.savingAction (some field)) = _ :=
    List.filter_congr fun field _ => perms.not_allows_eq record.savingAction_ne_destroy field
  rw [startFrom_assignPermitted, finds, ← rejects]
  dsimp only [Guarded.sorted]
  rw [if_pos limited]
  rfl

omit [Query Q] in
/-- The values of granted fields are taken over. -/
theorem takesOver_takingOver {values : FieldValues} (sorted : values.Sorted) (record : Guarded S Q)
    (perms : Permissions Q) : record.TakesOver values (fun field =>
      (perms.constraint? record.savingAction field).isSome = true)
      (record.takingOver perms values) := by
  have takes := takesOver_restrict sorted record (.ok (some perms)) fun field =>
    (perms.constraint? record.savingAction field).isSome
  rw [← perms.permitted_eq] at takes
  exact takes

/-- **The check before saving** is then about what was taken over, if nothing was pending before. -/
theorem validateWith_takingOver_iff {perms : Permissions Q} {values : FieldValues}
    (sorted : values.Sorted) (inForce : record.binding.restriction.isEnforced trust = true)
    (settled : record.row.changed = []) (lookup : String → String → String) :
    ((validateWith site lookup).startFrom (record.takingOver perms values) trust).1.1 =
        .ok (.ok ()) ↔
      perms.granted record.savingAction ≠ [] ∧
        ∀ field value constraint, values.get? field = some value →
          perms.constraint? record.savingAction field = some constraint →
            constraint.AcceptsAt trust value := by
  have sortedPart : (perms.permitted record.savingAction values).Sorted :=
    Fields.sorted_restrict sorted _
  have pending : (record.takingOver perms values).row.changes =
      perms.permitted record.savingAction values := Row.changes_setAll sortedPart settled
  have sameAction : (record.takingOver perms values).savingAction = record.savingAction := by
    show (if (!(record.row.setAll _).persisted) = true then Action.create else .update) = _
    rw [Row.persisted_setAll]
    rfl
  have stillInForce : (record.takingOver perms values).binding.restriction.isEnforced trust = true :=
    inForce
  rw [validateWith_ok_iff_of_known lookup stillInForce rfl, pending, sameAction,
    (perms.diagnosis trust record.savingAction sortedPart).passes, taken_permitted_iff]

/-- Assigning where permissions do not limit the values: all of them are taken over. -/
theorem assignPermitted_of_unlimited {found : Option (Permissions Q)} {values : FieldValues}
    (sorted : values.Sorted) (finds : record.found site false trust = .ok found)
    (unlimited : found = none ∨ site.config.strongParameters = false) :
    ∃ after, (assignPermitted site values).startFrom record trust = ((.ok [], after), trust) ∧
      record.TakesOver values (fun _ => True) after := by
  refine ⟨_, ?_, takesOver_all sorted record (.ok found)⟩
  have all : Guarded.sorted site record.row values found = ([], values) := by
    rcases unlimited with rfl | weak
    · rfl
    · cases found with
      | none => rfl
      | some perms =>
        dsimp only [Guarded.sorted]
        rw [weak]
        rfl
  rw [startFrom_assignPermitted, finds]
  dsimp only
  rw [all]

/-- A record **built** by a relation has some values, which are all pending. It is new, one of the
model of the relation, and bound afresh to its subject. -/
structure BuiltBy (rel : Relation S Q) (values : FieldValues) (built : Guarded S Q) : Prop where
  /-- These are its values, ... -/
  values_eq : built.row.values = values
  /-- ... and its pending changes. -/
  changes_eq : built.row.changes = values
  /-- It has never been stored. -/
  isNew : built.row.isNew = true
  /-- It is one of the relation's model. -/
  model_eq : built.model = rel.model
  /-- It is bound to the relation's subject. -/
  binding_eq : built.binding = .fresh rel.binding.restriction

/-- Building from the values that are left over. -/
theorem startFrom_buildPermitted {rel : Relation S Q} {found : Option (Permissions Q)}
    {values part : FieldValues} (sortedPart : part.Sorted)
    (finds : rel.found site false trust = .ok found)
    (leaves : (found.elim values fun perms =>
      if site.config.strongParameters then perms.permitted .create values else values) = part) :
    ∃ built left, (Relation.buildPermitted site values).startFrom rel trust =
      ((.ok built, left), trust) ∧ built.BuiltBy rel part := by
  refine ⟨rel.build part, rel.keeping (.ok found), ?_, rfl, Row.changes_new sortedPart, rfl, rfl,
    rfl⟩
  have asked : (Relation.buildPermitted site values).startFrom rel trust = _ :=
    Relation.startFrom_ask (.build values) rel trust
  rw [Relation.outcome, show Relation.Question.isStrict (.build values) = false from rfl,
    finds] at asked
  rw [← leaves]
  exact asked

/-- **Exactly the permitted values** are assigned. What may be assigned is limited where permissions
are in force and the settings limit new values:

* the fields that are not granted for saving the record are returned, in order; the others get
  their values, which are pending then; and nothing else changes;
* if nothing was pending before, the record passes the check before it is saved iff the action is
  granted for some field, and each value that was taken over is accepted by its constraint;
* elsewhere all values are assigned, and nothing is returned;
* a new record has exactly the values that may be given to it by those who create it, or all of
  them, and all that it has is pending.

There is no result only if asking for permissions in force panics, and then nothing is changed. -/
theorem assigns_permitted (site : Site S Q) (trust : Trust) {values : FieldValues}
    (sorted : values.Sorted) :
    (∀ record : Guarded S Q,
      let inForce := record.binding.restriction.isEnforced trust
      let asked := ((permissions site).startFrom record trust).1.1
      let result := (assignPermitted site values).startFrom record trust
      (∀ perms, inForce = true → site.config.strongParameters = true → asked = .ok (.ok perms) →
        ∃ rejected after, result = ((.ok rejected, after), trust) ∧
          rejected = values.keys.filter (fun field =>
            (perms.constraint? record.savingAction field).isNone) ∧
          rejected.Pairwise (· < ·) ∧
          record.TakesOver values (fun field =>
            (perms.constraint? record.savingAction field).isSome = true) after ∧
          (record.row.changed = [] → ∀ lookup,
            (((validateWith site lookup).startFrom after trust).1.1 = .ok (.ok ()) ↔
              perms.granted record.savingAction ≠ [] ∧
              ∀ field value constraint, values.get? field = some value →
                perms.constraint? record.savingAction field = some constraint →
                  constraint.AcceptsAt trust value))) ∧
      (inForce = false ∨ site.config.strongParameters = false ∧
          (∃ perms, asked = .ok (.ok perms)) →
        ∃ after, result = ((.ok [], after), trust) ∧
          record.TakesOver values (fun _ => True) after) ∧
      (∀ panic, inForce = true → asked = .error panic → result = ((.error panic, record), trust))) ∧
    ∀ rel : Relation S Q,
      let inForce := rel.binding.restriction.isEnforced trust
      let asked := ((Relation.permissions site).startFrom rel trust).1.1
      let result := (Relation.buildPermitted site values).startFrom rel trust
      (∀ perms, inForce = true → site.config.strongParameters = true → asked = .ok (.ok perms) →
        ∃ built left, result = ((.ok built, left), trust) ∧
          built.BuiltBy rel (values.restrict fun field =>
            (perms.constraint? .create field).isSome)) ∧
      (inForce = false ∨ site.config.strongParameters = false ∧
          (∃ perms, asked = .ok (.ok perms)) →
        ∃ built left, result = ((.ok built, left), trust) ∧ built.BuiltBy rel values) ∧
      (∀ panic, inForce = true → asked = .error panic → result = ((.error panic, rel), trust)) := by
  have inOrder : values.keys.Pairwise (· < ·) := List.Pairwise.map _ (fun _ _ => id) sorted
  refine ⟨fun record => ⟨fun perms inForce strong told => ?_, fun unlimited => ?_,
    fun panic inForce told => ?_⟩, fun rel => ⟨fun perms inForce strong told => ?_,
    fun unlimited => ?_, fun panic inForce told => ?_⟩⟩
  · have finds := found_of_told (.ok perms) inForce told
    exact ⟨_, _, startFrom_assignPermitted_of_limited strong finds, rfl, inOrder.filter _,
      takesOver_takingOver sorted record perms, validateWith_takingOver_iff sorted inForce⟩
  · cases inForce : record.binding.restriction.isEnforced trust with
    | false => exact assignPermitted_of_unlimited sorted (found_of_not_inForce inForce) (.inl rfl)
    | true =>
      rcases unlimited with free | ⟨weak, perms, told⟩
      · cases inForce.symm.trans free
      · have finds := found_of_told (.ok perms) inForce told
        exact assignPermitted_of_unlimited sorted finds (.inr weak)
  · have finds := found_of_told (.error panic) inForce told
    rw [startFrom_assignPermitted, finds]
    rfl
  · have finds := Relation.found_of_told (.ok perms) inForce told
    refine startFrom_buildPermitted (Fields.sorted_restrict sorted _) finds ?_
    rw [Option.elim_some, if_pos strong, perms.permitted_eq]
  · cases inForce : rel.binding.restriction.isEnforced trust with
    | false => exact startFrom_buildPermitted sorted (Relation.found_of_not_inForce inForce) rfl
    | true =>
      rcases unlimited with free | ⟨weak, perms, told⟩
      · cases inForce.symm.trans free
      · have finds := Relation.found_of_told (.ok perms) inForce told
        refine startFrom_buildPermitted sorted finds ?_
        rw [Option.elim_some, weak]
        rfl
  · have finds := Relation.found_of_told (.error panic) inForce told
    exact Relation.ask_of_panic (.build values) finds

/-- A note that may be created in one state only is assigned that state and a title: it gets the
state, the title is left out, and it may be saved. -/
theorem assigns_permitted_drafts :
    let values : FieldValues := [("state", .string "draft"), ("title", .string "a")]
    let note : Guarded Unit Unit := Guarded.inheriting noteModel {} (.bound ())
    ∃ after, (assignPermitted draftsOnly values).startFrom note {} =
        ((.ok ["title"], after), {}) ∧
      after.row.get? "state" = some (.string "draft") ∧ after.row.get? "title" = none ∧
      ((validate draftsOnly).startFrom after {}).1.1 = .ok (.ok ()) := by
  intro values note
  have sorted : values.Sorted := by
    unfold Fields.Sorted
    decide
  obtain ⟨rejected, after, ran, rfl, -, takes, passes⟩ :=
    ((assigns_permitted draftsOnly {} sorted).1 note).1 draftPermissions rfl rfl
      (permissions_draft note.row)
  refine ⟨after, ran, takes.assigned "state" _ rfl rfl, takes.kept "title" fun both => ?_, ?_⟩
  · cases both.2
  · refine (passes rfl Refusal.defaultMessage).mpr ⟨nofun, ?_⟩
    intro field value constraint given granted
    -- The state is the only field with a constraint.
    by_cases state : field = "state"
    · subst state
      cases given
      cases granted
      rfl
    · have none : draftPermissions.constraint? note.savingAction field = .none :=
        if_neg (Ne.symm state)
      cases granted.symm.trans none

end Guarded

end Warden
