import Warden.Permissions
import Warden.Proofs.Run
/-! # Checking field values
Whether values may be written is asked in two ways: for a plain answer (`Permissions.acceptsAll`)
and for the first field at fault (`Permissions.firstRejected`). Both check the values in the same
order and stop at the same one, so the plain answer is whether no field is at fault
(`Permissions.isModifiable_eq`), also where a predicate panics. All checks are steady. -/

namespace Warden

/-- Only predicates look at trusted execution, and they run inside a guard. -/
theorem Constraint.steady_check (constraint : Constraint) (value : Value) :
    (constraint.check value).Steady := by
  cases constraint with
  | predicate predicate =>
    refine Run.Steady.insecurely (Run.steady_depth.bind fun depth => ?_)
    cases predicate.test depth value with
    | ok passed => exact Run.steady_pure passed
    | error panic => exact Run.steady_abandon panic.message
  | _ => exact Run.steady_pure _

namespace Permissions

variable {Q : Type}

theorem steady_accepts (granted : Fields Constraint) (field : String) (value : Value) :
    (accepts granted field value).Steady := by
  unfold accepts
  split
  · exact Run.steady_pure false
  · exact Constraint.steady_check _ value

theorem steady_firstRejected (granted : Fields Constraint) (values : FieldValues) :
    (firstRejected granted values).Steady := by
  induction values with
  | nil => exact Run.steady_pure _
  | cons entry rest ih =>
    refine (steady_accepts granted entry.1 entry.2).bind fun accepted => ?_
    cases accepted with
    | true => exact ih
    | false => exact Run.steady_pure _

theorem steady_firstUnmodifiable (perms : Permissions Q) (action : Action) (values : FieldValues) :
    (perms.firstUnmodifiable action values).Steady := by
  unfold firstUnmodifiable
  dsimp only
  split
  · exact Run.steady_pure _
  · exact steady_firstRejected _ values

/-- All values are accepted iff none is rejected. -/
theorem acceptsAll_eq (granted : Fields Constraint) (values : FieldValues) :
    acceptsAll granted values = Option.isNone <$> firstRejected granted values := by
  induction values with
  | nil => rfl
  | cons entry rest ih =>
    rw [acceptsAll, firstRejected, map_bind]
    refine bind_congr fun accepted => ?_
    cases accepted with
    | true => exact ih
    | false => rfl

/-- **One answer**: values may be written iff no field stands in the way. -/
theorem isModifiable_eq (perms : Permissions Q) (action : Action) (values : FieldValues) :
    perms.isModifiable action (some values) =
      Option.isNone <$> perms.firstUnmodifiable action values := by
  unfold isModifiable firstUnmodifiable
  dsimp only
  split
  · rfl
  · exact acceptsAll_eq _ values

/-- No field stands in the way iff the values may be written. -/
theorem firstUnmodifiable_eq_none (perms : Permissions Q) (action : Action) (values : FieldValues)
    (trust : Trust) :
    ((perms.firstUnmodifiable action values).startFrom trust).1 = .ok .none ↔
      ((perms.isModifiable action (some values)).startFrom trust).1 = .ok true := by
  rw [isModifiable_eq, map_eq_pure_bind,
    (perms.steady_firstUnmodifiable action values).startFrom_bind]
  rcases ((perms.firstUnmodifiable action values).startFrom trust).1 with panic | _ | field
  · exact ⟨nofun, nofun⟩
  · exact ⟨fun _ => rfl, fun _ => rfl⟩
  · exact ⟨nofun, nofun⟩

end Permissions

end Warden
