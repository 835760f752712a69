import Warden.Proofs.Permissions.Diagnosis
import Warden.Proofs.Saving
/-! # Verdicts on saving
May values be written? There are three ways to ask. The permissions give a plain answer, and they
name the field that is in the way; both walk the values by themselves. And a record that is about
to be saved is checked, where it also matters whether the record is new and which of its fields were
assigned. The three **agree** (`Guarded.verdicts_agree`): the plain answer is that no field is in
the way, the record passes the check just where the plain answer for it is yes, and otherwise the
refusal names the field in the way. -/

namespace Warden

namespace Guarded

variable {S Q : Type} [Query Q] {site : Site S Q} {record : Guarded S Q} {trust : Trust}

/-- The search for the field in the way of saving a row. -/
def obstacle (perms : Permissions Q) (row : Row) : Run (Option String) :=
  if row.isNew then perms.firstUncreatable row.changes else perms.firstUnupdatable row.changes

omit [Query Q] in
/-- It is one for the action that saving is. -/
theorem obstacle_eq (perms : Permissions Q) (record : Guarded S Q) :
    obstacle perms record.row = perms.firstUnmodifiable record.savingAction record.row.changes := by
  unfold obstacle savingAction
  split <;> rfl

/-- **A refusal** names the field in the way. -/
theorem validateWith_eq_refusal_iff {refusal : Refusal} (lookup : String → String → String)
    (inForce : record.binding.restriction.isEnforced trust = true) :
    ((validateWith site lookup).startFrom record trust).1.1 = .ok (.error refusal) ↔
      ∃ perms field, ((permissions site).startFrom record trust).1.1 = .ok (.ok perms) ∧
        ((obstacle perms record.row).startFrom trust).1 = .ok (some field) ∧
        refusal = Refusal.ofField lookup field := by
  obtain ⟨answer, left, asked⟩ := permissions_inForce site inForce
  cases answer with
  | error panic =>
    rw [startFrom_validateWith_of_panic lookup inForce asked, asked]
    exact ⟨nofun, fun ⟨_, _, found, _⟩ => nomatch found⟩
  | ok perms =>
    rw [startFrom_validateWith_of_found lookup inForce asked, ← obstacle_eq, asked]
    constructor
    · intro refused
      rcases named : ((obstacle perms record.row).startFrom trust).1 with panic | _ | field
      · rw [named] at refused
        cases refused
      · rw [named] at refused
        cases refused
      · rw [named] at refused
        cases refused
        exact ⟨perms, field, rfl, named, rfl⟩
    · rintro ⟨other, field, found, named, rfl⟩
      cases found
      rw [named]
      rfl

/-- **The three ways to ask agree.** Whatever permissions say of creating or updating with values
follows from what they take and refuse, and a record whose permissions are in force is checked by
what they say of its pending changes. -/
theorem verdicts_agree (site : Site S Q) (trust : Trust) :
    (∀ (perms : Permissions Q) (values : FieldValues), values.Sorted →
      perms.Diagnosis trust .create values
        ((perms.isCreatable (some values)).startFrom trust).1
        ((perms.firstUncreatable values).startFrom trust).1 ∧
      perms.Diagnosis trust .update values
        ((perms.isUpdatable (some values)).startFrom trust).1
        ((perms.firstUnupdatable values).startFrom trust).1) ∧
    ∀ record : Guarded S Q, record.binding.restriction.isEnforced trust = true →
      ∀ lookup : String → String → String,
        (((validateWith site lookup).startFrom record trust).1.1 = .ok (.ok ()) ↔
          if record.row.isNew then record.Creatable site trust
          else record.Updatable site trust) ∧
        ∀ refusal, ((validateWith site lookup).startFrom record trust).1.1 = .ok (.error refusal) ↔
          ∃ perms field, ((permissions site).startFrom record trust).1.1 = .ok (.ok perms) ∧
            ((obstacle perms record.row).startFrom trust).1 = .ok (some field) ∧
            refusal = Refusal.ofField lookup field := by
  refine ⟨fun perms values sorted => ⟨perms.diagnosis trust .create sorted,
    perms.diagnosis trust .update sorted⟩, fun record inForce lookup => ⟨?_, fun refusal =>
      validateWith_eq_refusal_iff lookup inForce⟩⟩
  rw [validateWith_ok_iff lookup inForce, creatable_iff, updatable_iff, savingAction]
  cases record.row.isNew <;> exact Iff.rfl

/-- The fields of notes. -/
def noteModel : Model := { table := Table.withFields "notes" ["state", "title"], rules := 0 }

/-- Notes may be created in one state only. -/
def draftsOnly : Site Unit Unit :=
  { book := RuleBook.empty.create.1.register 0
      (.plain (.grant .create [.constrained [("state", .literal (.string "draft"))]])) }

/-- What everybody may do with a note. -/
def draftPermissions : Permissions Unit :=
  (noteModel.noPermissions {}).can .create [.constrained [("state", .literal (.string "draft"))]]

/-- A note is found to be subject to these permissions. -/
theorem permissions_draft (row : Row) :
    ((permissions draftsOnly).startFrom
      (Guarded.inheriting noteModel row (.bound ()) : Guarded Unit Unit) {}).1.1 =
        .ok (.ok draftPermissions) := by
  have rules : draftsOnly.book.rules noteModel.rules = _ := RuleBook.rules_of_root rfl
  have evaluated : ((draftsOnly.evaluate noteModel () (some row)).startFrom {}).1 =
      .ok draftPermissions := by
    rw [Site.evaluate_of_rules rules]
    rfl
  rw [permissions_of_fresh rfl evaluated]

/-- A new note may not have a title then. The title is the least field at fault, the check of the
note names it, and the plain answer is no. -/
theorem verdicts_agree_drafts :
    let values : FieldValues := [("state", .string "draft"), ("title", .string "a")]
    let note : Guarded Unit Unit := Guarded.inheriting noteModel (Row.new values) (.bound ())
    IsLeast (draftPermissions.faults {} .create values) "title" ∧
      ((validateWith draftsOnly Refusal.defaultMessage).startFrom note {}).1.1 =
        .ok (.error (Refusal.ofField Refusal.defaultMessage "title")) ∧
      ¬ note.Creatable draftsOnly {} := by
  intro values note
  have sorted : values.Sorted := by
    unfold Fields.Sorted
    decide
  have inForce : note.binding.restriction.isEnforced {} = true := rfl
  have named : ((obstacle draftPermissions note.row).startFrom {}).1 = .ok (some "title") := rfl
  have agree := verdicts_agree draftsOnly {}
  obtain ⟨passes, refuses⟩ := agree.2 note inForce Refusal.defaultMessage
  have refused := (refuses _).mpr
    ⟨draftPermissions, "title", permissions_draft note.row, named, rfl⟩
  refine ⟨(agree.1 draftPermissions values sorted).1.least nofun "title" named, refused,
    fun creatable => ?_⟩
  have passed := passes.mpr creatable
  rw [refused] at passed
  cases passed

end Guarded

end Warden
