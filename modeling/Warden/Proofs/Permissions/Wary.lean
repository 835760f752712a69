import Warden.Proofs.Permissions.FieldChecks
import Warden.Proofs.Permissions.LastCall
/-! # Wary predicates
How deep in trusted execution does a predicate run? A **wary** predicate tells: it panics with a
text of one's choice unless it runs deeper than a limit. So if making the predicates wary changes no
outcome, whatever the text, none of them ever ran at the limit or above it.

Permissions are as wary as the predicates in them. Granting and withdrawing does not notice
(`Permissions.can_wary`, `Permissions.cannot_wary`), and a check that is made at the limit does not
either (`Permissions.firstUnmodifiable_wary`), because predicates run inside a guard. -/

namespace Warden

section Constraints

variable (limit : Nat) (message : String)

/-- A predicate that panics unless it runs deeper than a limit. -/
def Predicate.wary (predicate : Predicate) : Predicate :=
  { predicate with test := fun depth value =>
      if depth ≤ limit then .error ⟨message⟩ else predicate.test depth value }

/-- A constraint with a wary predicate, if it has one. -/
def Constraint.wary : Constraint → Constraint
  | .predicate p => .predicate (p.wary limit message)
  | other => other

/-- A specification with wary predicates. -/
def FieldSpec.wary : FieldSpec → FieldSpec
  | .constrained pairs => .constrained (Fields.mapValues (Constraint.wary limit message) pairs)
  | other => other

/-- An access table with wary predicates. -/
def Access.wary (access : Access) : Access :=
  access.map fun entry => (entry.1, Fields.mapValues (Constraint.wary limit message) entry.2)

/-- Permissions with wary predicates. -/
def Permissions.wary {Q : Type} (perms : Permissions Q) : Permissions Q :=
  { perms with access := Access.wary limit message perms.access }

end Constraints

variable {limit : Nat} {message : String}

/-- **A check at the limit** does not notice that its predicate is wary. -/
theorem Constraint.check_wary {trust : Trust} (within : limit ≤ trust.depth)
    (constraint : Constraint) (value : Value) :
    ((constraint.wary limit message).check value).startFrom trust =
      (constraint.check value).startFrom trust := by
  cases constraint with
  | predicate predicate =>
    -- A predicate is called inside one more guard, and there it is deeper than the limit.
    have deeper : ¬ trust.enter.depth ≤ limit := by
      rw [Trust.depth_enter]
      omega
    have same : (predicate.wary limit message).test trust.enter.depth value =
        predicate.test trust.enter.depth value := if_neg deeper
    have called : ((predicate.wary limit message).call value).startFrom trust.enter =
        (predicate.call value).startFrom trust.enter := by
      unfold Predicate.call
      rw [Run.startFrom_bind, Run.startFrom_bind, Run.startFrom_depth]
      dsimp only
      rw [same]
    show (Run.insecurely ((predicate.wary limit message).call value)).startFrom trust =
      (Run.insecurely (predicate.call value)).startFrom trust
    rw [Run.startFrom_insecurely, Run.startFrom_insecurely, called]
  | _ => rfl

namespace FieldSpec

/-- The fields are the same. -/
@[simp] theorem names_wary (spec : FieldSpec) : (spec.wary limit message).names = spec.names := by
  cases spec with
  | constrained entries => exact Fields.keys_mapValues _ entries
  | _ => rfl

/-- Their constraints are wary. -/
theorem entries_wary (spec : FieldSpec) :
    (spec.wary limit message).entries =
      Fields.mapValues (Constraint.wary limit message) spec.entries := by
  cases spec with
  | field name => rfl
  | fields names =>
    rw [entries, Fields.mapValues, List.map_map]
    rfl
  | constrained entries => rfl

/-- Several specifications name the same fields. -/
theorem flatMap_names_wary (specs : List FieldSpec) :
    (specs.map (wary limit message)).flatMap names = specs.flatMap names := by
  rw [List.flatMap_map]
  exact congrArg (fun f => specs.flatMap f) (funext fun spec => spec.names_wary)

/-- All their constraints are wary. -/
theorem flatMap_entries_wary (specs : List FieldSpec) :
    (specs.map (wary limit message)).flatMap entries =
      Fields.mapValues (Constraint.wary limit message) (specs.flatMap entries) := by
  rw [List.flatMap_map, Fields.mapValues, List.map_flatMap]
  exact congrArg (fun f => specs.flatMap f) (funext fun spec => spec.entries_wary)

end FieldSpec

namespace Access

theorem get?_wary (access : Access) (action : Action) :
    (wary limit message access).get? action =
      (access.get? action).map (Fields.mapValues (Constraint.wary limit message)) := by
  induction access with
  | nil => rfl
  | cons entry rest ih =>
    rw [wary, List.map_cons, get?_cons, ← wary, ih, get?_cons]
    split <;> rfl

theorem set_wary (access : Access) (action : Action) (granted : Fields Constraint) :
    (wary limit message access).set action
        (Fields.mapValues (Constraint.wary limit message) granted) =
      wary limit message (access.set action granted) := by
  induction access with
  | nil => rfl
  | cons entry rest ih =>
    rw [wary, List.map_cons, set, ← wary, ih, set]
    split <;> rfl

theorem drop_wary (access : Access) (action : Action) :
    (wary limit message access).drop action = wary limit message (access.drop action) :=
  List.filter_map

end Access

namespace Permissions

variable {Q : Type} (perms : Permissions Q)

theorem granted_wary (action : Action) :
    (perms.wary limit message).granted action =
      Fields.mapValues (Constraint.wary limit message) (perms.granted action) := by
  show ((Access.wary limit message perms.access).get? action).getD [] = _
  rw [Access.get?_wary, granted, granted?]
  cases perms.access.get? action <;> rfl

/-! ## Filling -/

/-- The listed fields of a grant have wary constraints. -/
theorem entries_can_wary (fields : List String) (action : Action) (specs : List FieldSpec) :
    (Call.can action (specs.map (FieldSpec.wary limit message))).entries fields =
      Fields.mapValues (Constraint.wary limit message)
        ((Call.can action specs).entries fields) := by
  cases specs with
  | nil =>
    show _ = (fields.map fun field => (field, Constraint.unconstrained)).map _
    rw [List.map_map]
    rfl
  | cons spec rest => exact FieldSpec.flatMap_entries_wary (spec :: rest)

/-- **Granting** does not notice that predicates are wary. -/
theorem can_wary (action : Action) (specs : List FieldSpec) :
    (perms.wary limit message).can action (specs.map (FieldSpec.wary limit message)) =
      (perms.can action specs).wary limit message := by
  by_cases destroying : action = .destroy
  · rw [destroying, can_destroy, can_destroy]
    rfl
  · rw [can_fieldwise _ destroying, can_fieldwise _ destroying, granted_wary, entries_can_wary,
      ← Fields.mapValues_insertAll]
    exact congrArg (fun access => { perms with access }) (Access.set_wary _ action _)

/-- **Withdrawing** does not notice it either. -/
theorem cannot_wary (action : Action) (specs : List FieldSpec) :
    (perms.wary limit message).cannot action (specs.map (FieldSpec.wary limit message)) =
      (perms.cannot action specs).wary limit message := by
  have got : (perms.wary limit message).access.get? action = _ :=
    Access.get?_wary perms.access action
  unfold cannot
  split
  · rfl
  · rw [got]
    -- Without fields the whole action is withdrawn, and so it is with the last of its fields.
    cases specs with
    | nil => exact congrArg (fun access => { perms with access }) (Access.drop_wary _ action)
    | cons spec rest =>
      cases perms.access.get? action with
      | none => rfl
      | some granted =>
        let names := (spec :: rest).flatMap FieldSpec.names
        have listed : ((spec :: rest).map (FieldSpec.wary limit message)).flatMap FieldSpec.names =
            names := FieldSpec.flatMap_names_wary (spec :: rest)
        have left : (((spec :: rest).map (FieldSpec.wary limit message)).flatMap
            FieldSpec.names).foldl Fields.erase
              (Fields.mapValues (Constraint.wary limit message) granted) =
            Fields.mapValues (Constraint.wary limit message)
              (names.foldl Fields.erase granted) := by
          rw [listed, Fields.mapValues_foldl_erase]
        refine congrArg (fun access => { perms with access }) ?_
        dsimp only [Option.map_some, List.map_cons] at left ⊢
        rw [left, Fields.isEmpty_mapValues]
        split
        · exact Access.drop_wary perms.access action
        · exact Access.set_wary perms.access action _

/-! ## Asking -/

/-- The same fields may be read. -/
@[simp] theorem isReadable_wary (field : String) :
    (perms.wary limit message).isReadable field = perms.isReadable field := by
  rw [isReadable, isReadable, granted_wary, Fields.has_mapValues]

/-- The same actions are allowed. -/
@[simp] theorem allows_wary (action : Action) (field : Option String) :
    (perms.wary limit message).allows action field = perms.allows action field := by
  unfold allows
  split
  · rfl
  · rw [granted_wary]
    cases field with
    | none => rw [Fields.isEmpty_mapValues]
    | some field => exact Fields.has_mapValues _ _ field

/-- The same values are permitted. -/
@[simp] theorem permitted_wary (action : Action) (values : FieldValues) :
    (perms.wary limit message).permitted action values = perms.permitted action values := by
  rw [permitted, permitted, granted_wary]
  exact congrArg values.restrict (funext fun field => Fields.has_mapValues _ _ field)

variable {trust : Trust}

/-- **Values are checked** at the limit as without wary predicates. -/
theorem firstRejected_wary (within : limit ≤ trust.depth) (granted : Fields Constraint)
    (values : FieldValues) :
    (firstRejected (Fields.mapValues (Constraint.wary limit message) granted) values).startFrom
      trust = (firstRejected granted values).startFrom trust := by
  -- By induction on the values, each of which is checked inside a guard of its own.
  induction values with
  | nil => rfl
  | cons entry rest ih =>
    obtain ⟨field, value⟩ := entry
    have accepted : (accepts (Fields.mapValues (Constraint.wary limit message) granted) field
        value).startFrom trust = (accepts granted field value).startFrom trust := by
      rw [accepts, Fields.get?_mapValues, accepts]
      cases granted.get? field with
      | none => rfl
      | some constraint => exact constraint.check_wary within value
    rw [firstRejected, Run.startFrom_bind, accepted, firstRejected, Run.startFrom_bind,
      (steady_accepts granted field value).startFrom_eq]
    rcases ((accepts granted field value).startFrom trust).1 with panic | _ | _
    · rfl
    · rfl
    · exact ih

/-- So is the field that stands in the way of an action found. -/
theorem firstUnmodifiable_wary (within : limit ≤ trust.depth) (action : Action)
    (values : FieldValues) :
    ((perms.wary limit message).firstUnmodifiable action values).startFrom trust =
      (perms.firstUnmodifiable action values).startFrom trust := by
  unfold firstUnmodifiable
  dsimp only
  rw [granted_wary, Fields.isEmpty_mapValues]
  split
  · rfl
  · exact firstRejected_wary within _ values

/-- So is it answered whether an action is granted. -/
theorem isModifiable_wary (within : limit ≤ trust.depth) (action : Action)
    (values : FieldValues) :
    ((perms.wary limit message).isModifiable action (some values)).startFrom trust =
      (perms.isModifiable action (some values)).startFrom trust := by
  rw [isModifiable_eq, isModifiable_eq, map_eq_pure_bind, map_eq_pure_bind, Run.startFrom_bind,
    Run.startFrom_bind, firstUnmodifiable_wary _ within]

end Permissions

end Warden
