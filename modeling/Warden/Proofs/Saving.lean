import Warden.Proofs.Questions
/-! # Saving records
A record is checked before it is saved. The permission asked for depends on the record
(`Guarded.savingAction`): to create if it has never been stored, to update if it has. The check
passes iff the subject's permissions allow that action with the pending changes
(`Guarded.validateWith_ok_iff`), and it leaves the record as it was, apart from keeping the
permissions that were found. -/

namespace Warden

namespace Guarded

variable {S Q : Type}

/-- The action that saving a record is. -/
def savingAction (record : Guarded S Q) : Action :=
  if record.row.isNew then .create else .update

variable [Query Q] {site : Site S Q} {record left : Guarded S Q} {trust : Trust}
  {perms : Permissions Q}

/-- Whether the subject's permissions allow an action with the pending changes. -/
def Permits (site : Site S Q) (trust : Trust) (record : Guarded S Q) (action : Action) : Prop :=
  ∃ perms, ((permissions site).startFrom record trust).1.1 = .ok (.ok perms) ∧
    ((perms.isModifiable action (some record.row.changes)).startFrom trust).1 = .ok true

/-- Asking whether the found permissions pass a check. -/
theorem asked_iff {check : Permissions Q → Run Bool} :
    (record.outcome site true trust fun found => checked found check).1.1 = .ok (.ok true) ↔
      ∃ perms, ((permissions site).startFrom record trust).1.1 = .ok (.ok perms) ∧
        ((check perms).startFrom trust).1 = .ok true := by
  rw [startFrom_permissions_eq, outcome]
  dsimp only
  rcases record.found site true trust with panic | _ | perms
  · refine iff_of_false (fun told => ?_) ?_
    · cases told
    · rintro ⟨perms, told, -⟩
      cases told
  · refine iff_of_false (fun told => ?_) ?_
    · cases told
    · rintro ⟨perms, told, -⟩
      cases told
  · have answered : ((checked (some perms) check).startFrom trust).1 =
        ((check perms).startFrom trust).1.map .ok := by
      rw [checked, Run.startFrom_bind]
      rcases (check perms).startFrom trust with ⟨_ | _, after⟩ <;> rfl
    show ((checked (some perms) check).startFrom trust).1 = .ok (.ok true) ↔ _
    rw [answered]
    constructor
    · intro told
      refine ⟨perms, rfl, ?_⟩
      cases passed : ((check perms).startFrom trust).1 with
      | error panic =>
        rw [passed] at told
        cases told
      | ok answer =>
        rw [passed] at told
        cases told
        rfl
    · rintro ⟨other, told, passed⟩
      cases told
      rw [passed]
      rfl

/-- Whether the record answers that it may be created with its pending changes. -/
def Creatable (site : Site S Q) (trust : Trust) (record : Guarded S Q) : Prop :=
  ((isCreatable site).startFrom record trust).1.1 = .ok (.ok true)

/-- Whether the record answers that it may be updated with its pending changes. -/
def Updatable (site : Site S Q) (trust : Trust) (record : Guarded S Q) : Prop :=
  ((isUpdatable site).startFrom record trust).1.1 = .ok (.ok true)

theorem creatable_iff : record.Creatable site trust ↔ record.Permits site trust .create := by
  show ((Question.creatable.ask site).startFrom record trust).1.1 = _ ↔ _
  rw [startFrom_ask]
  exact asked_iff

theorem updatable_iff : record.Updatable site trust ↔ record.Permits site trust .update := by
  show ((Question.updatable.ask site).startFrom record trust).1.1 = _ ↔ _
  rw [startFrom_ask]
  exact asked_iff

/-! ## The check -/

/-- The check with permissions that were found, whatever the texts of refusals are. -/
theorem startFrom_validateWith_of_found (lookup : String → String → String)
    (inForce : record.binding.restriction.isEnforced trust = true)
    (found : (permissions site).startFrom record trust = ((.ok (.ok perms), left), trust)) :
    (validateWith site lookup).startFrom record trust =
      ((((perms.firstUnmodifiable record.savingAction record.row.changes).startFrom trust).1.map
        fun rejected => match rejected with
          | .none => .ok ()
          | some field => .error (Refusal.ofField lookup field), left), trust) := by
  have asked : (permissions site).startFrom record trust =
      (((Except.ok perms).map .ok, left), trust) := found
  obtain ⟨finds, rfl⟩ := found_of_asked inForce asked
  have steady := perms.steady_firstUnmodifiable record.savingAction record.row.changes
  rw [startFrom_validateWith, outcome, finds]
  show (((((perms.firstUnmodifiable record.savingAction record.row.changes) >>= _).startFrom
    trust).1, _), trust) = _
  rw [steady.startFrom_bind]
  rcases ((perms.firstUnmodifiable record.savingAction record.row.changes).startFrom trust).1 with
    panic | _ | field <;> rfl

/-- The check without any. -/
theorem startFrom_validateWith_of_panic {panic : Panic} (lookup : String → String → String)
    (inForce : record.binding.restriction.isEnforced trust = true)
    (panicked : (permissions site).startFrom record trust = ((.error panic, left), trust)) :
    (validateWith site lookup).startFrom record trust = ((.error panic, left), trust) := by
  have asked : (permissions site).startFrom record trust =
      (((Except.error panic).map .ok, left), trust) := panicked
  obtain ⟨finds, rfl⟩ := found_of_asked inForce asked
  rw [startFrom_validateWith, outcome, finds]
  rfl

/-- The check with the usual texts and permissions that were found. -/
theorem startFrom_validate (inForce : record.binding.restriction.isEnforced trust = true)
    (found : (permissions site).startFrom record trust = ((.ok (.ok perms), left), trust)) :
    (validate site).startFrom record trust =
      ((((perms.firstUnmodifiable record.savingAction record.row.changes).startFrom trust).1.map
        fun rejected => match rejected with
          | .none => .ok ()
          | some field => .error (Refusal.ofField Refusal.defaultMessage field), left), trust) :=
  startFrom_validateWith_of_found Refusal.defaultMessage inForce found

theorem startFrom_validate_of_panic {panic : Panic}
    (inForce : record.binding.restriction.isEnforced trust = true)
    (panicked : (permissions site).startFrom record trust = ((.error panic, left), trust)) :
    (validate site).startFrom record trust = ((.error panic, left), trust) :=
  startFrom_validateWith_of_panic Refusal.defaultMessage inForce panicked

/-- The check leaves what enforcing permissions leaves, and passes where there are none. -/
theorem left_validate {found : Option (Permissions Q)}
    (finds : Finds site trust record left found) :
    ∃ verdict, (validate site).startFrom record trust = ((verdict, left), trust) ∧
      (found = none → verdict = .ok (.ok ())) := by
  have enforces := finds.first
  rw [startFrom_enforced_eq] at enforces
  have isFound : record.found site false trust = .ok found :=
    congrArg (fun enforced => enforced.1.1) enforces
  have isLeft : record.keeping (record.found site false trust) = left :=
    congrArg (fun enforced => enforced.1.2) enforces
  rw [validate, startFrom_validateWith, outcome, isLeft, isFound]
  refine ⟨_, rfl, ?_⟩
  rintro rfl
  rfl

/-- **A record passes the check** iff saving it is permitted, whatever the texts of refusals are. -/
theorem validateWith_ok_iff (lookup : String → String → String)
    (inForce : record.binding.restriction.isEnforced trust = true) :
    ((validateWith site lookup).startFrom record trust).1.1 = .ok (.ok ()) ↔
      record.Permits site trust record.savingAction := by
  obtain ⟨answer, left, asked⟩ := permissions_inForce site inForce
  cases answer with
  | error panic =>
    rw [startFrom_validateWith_of_panic lookup inForce asked, Permits, asked]
    exact ⟨nofun, nofun⟩
  | ok perms =>
    have accepted := perms.firstUnmodifiable_eq_none record.savingAction record.row.changes trust
    rw [startFrom_validateWith_of_found lookup inForce asked, Permits, asked]
    constructor
    · intro passed
      refine ⟨perms, rfl, accepted.mp ?_⟩
      rcases rejected : ((perms.firstUnmodifiable record.savingAction record.row.changes).startFrom
        trust).1 with panic | _ | field
      · rw [rejected] at passed
        cases passed
      · rfl
      · rw [rejected] at passed
        cases passed
    · rintro ⟨other, found, modifiable⟩
      cases found
      rw [accepted.mpr modifiable]
      rfl

theorem validate_ok_iff (inForce : record.binding.restriction.isEnforced trust = true) :
    ((validate site).startFrom record trust).1.1 = .ok (.ok ()) ↔
      record.Permits site trust record.savingAction :=
  validateWith_ok_iff Refusal.defaultMessage inForce

/-- What runs only after the check gives a result iff saving is permitted and it gives one for the
record that the check leaves, whose permissions are known. -/
theorem validated_ok_iff {α : Type} {condition : Prop} (rest : RunOn (Guarded S Q) (Except Error α))
    (inForce : record.binding.restriction.isEnforced trust = true)
    (given : ∀ perms left,
      (permissions site).startFrom record trust = ((.ok (.ok perms), left), trust) →
        ((∃ a, (rest.startFrom left trust).1.1 = .ok (.ok a)) ↔ condition)) :
    (∃ a, ((validate site >>= fun verdict => match verdict with
        | .error refusal => pure (.error refusal.toError)
        | .ok () => rest).startFrom record trust).1.1 = .ok (.ok a)) ↔
      record.Permits site trust record.savingAction ∧ condition := by
  rw [← validate_ok_iff inForce, RunOn.startFrom_bind]
  obtain ⟨answer, left, asked⟩ := permissions_inForce site inForce
  cases answer with
  | error panic =>
    rw [startFrom_validate_of_panic inForce asked]
    exact ⟨nofun, nofun⟩
  | ok perms =>
    rw [startFrom_validate inForce asked]
    rcases ((perms.firstUnmodifiable record.savingAction record.row.changes).startFrom trust).1 with
      panic | _ | field
    · exact ⟨nofun, nofun⟩
    · exact (given perms left asked).trans ⟨fun holds => ⟨rfl, holds⟩, fun holds => holds.2⟩
    · exact ⟨nofun, nofun⟩

end Guarded

end Warden
