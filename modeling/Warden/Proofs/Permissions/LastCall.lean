import Mathlib.Data.List.Induction
import Warden.Permissions
import Warden.Proofs.FieldMaps
/-! # The last call counts
Rules fill permissions by calls that grant or withdraw an action. What a sequence of calls amounts
to is a table with one cell for each action and field (`Permissions.constraint?`), and the cell is
decided by the **last call that affects it** (`Call.last?`): a grant leaves the constraint that it
gave last, a withdrawal leaves none.

The permissions store the table in a form with more detail. An action may lack an entry or have an
empty one, a call without specifications means every field of the table when it grants and the
whole entry when it withdraws, and dropping a field may drop the entry. `Permissions.granted` reads
a missing entry as an empty one, and in terms of it each call is a single equation
(`granted_can`, `granted_cannot`). -/

namespace Warden

/-- A call that grants or withdraws an action. -/
inductive Call where
  /-- Grant an action on specified fields. -/
  | can (action : Action) (specs : List FieldSpec)
  /-- Withdraw an action from specified fields. -/
  | cannot (action : Action) (specs : List FieldSpec)
  /-- Grant an action on every field. -/
  | canAll (action : Action)
  /-- Withdraw an action from every field. -/
  | cannotAll (action : Action)

namespace Call

/-- The action that a call concerns. -/
def action : Call → Action
  | .can action _ | .cannot action _ | .canAll action | .cannotAll action => action

/-- The specifications that a call gives. -/
def specs : Call → List FieldSpec
  | .can _ specs | .cannot _ specs => specs
  | .canAll _ | .cannotAll _ => []

/-- Whether a call grants. -/
def grants : Call → Bool
  | .can .. | .canAll _ => true
  | .cannot .. | .cannotAll _ => false

/-- The fields that a call lists, in the permissions of a table with the given fields; a call
without specifications lists all of those. -/
def listed (fields : List String) (call : Call) : List String :=
  match call.specs with
  | [] => fields
  | specs => specs.flatMap FieldSpec.names

/-- The listed fields with their constraints. -/
def entries (fields : List String) (call : Call) : List (String × Constraint) :=
  match call.specs with
  | [] => fields.map fun field => (field, .unconstrained)
  | specs => specs.flatMap FieldSpec.entries

/-- Whether a call affects a field under an action. A withdrawal without specifications affects
every field whatsoever; any other call affects the fields that it lists. -/
def affects (fields : List String) (action : Action) (field : String) (call : Call) : Bool :=
  decide (call.action = action) &&
    (!call.grants && call.specs.isEmpty || (call.listed fields).contains field)

/-- What a call leaves for a field that it affects: the constraint it gives last, or nothing if it
withdraws. -/
def outcome (fields : List String) (field : String) (call : Call) : Option Constraint :=
  if call.grants then Fields.last? (call.entries fields) field else none

/-- The last call that affects a field under an action. -/
def last? (fields : List String) (action : Action) (field : String) (calls : List Call) :
    Option Call :=
  (calls.filter (affects fields action field)).getLast?

variable {Q : Type}

/-- Carry out a call. -/
def apply (perms : Permissions Q) : Call → Permissions Q
  | .can action specs => perms.can action specs
  | .cannot action specs => perms.cannot action specs
  | .canAll action => perms.canAll action
  | .cannotAll action => perms.cannotAll action

/-- The entries of a call belong to the fields that it lists. -/
@[simp] theorem map_fst_entries (fields : List String) (call : Call) :
    (call.entries fields).map Prod.fst = call.listed fields := by
  rw [entries, listed]
  split
  · simp [Function.comp_def]
  · rw [List.map_flatMap]
    simp only [FieldSpec.map_fst_entries]

/-- A grant leaves a constraint for every field that it affects, a withdrawal leaves none. -/
theorem isSome_outcome {fields : List String} {action : Action} {field : String} {call : Call}
    (affected : call.affects fields action field = true) :
    (call.outcome fields field).isSome = call.grants := by
  rw [outcome]
  cases granting : call.grants with
  | false => rfl
  | true =>
    rw [affects, granting] at affected
    simp only [Bool.not_true, Bool.false_and, Bool.false_or, Bool.and_eq_true,
      List.contains_iff_mem] at affected
    rw [if_pos rfl, Fields.isSome_last?, map_fst_entries]
    exact affected.2

/-- A new call is the last one for the cells that it affects. -/
theorem last?_append (fields : List String) (action : Action) (field : String)
    (calls : List Call) (call : Call) :
    last? fields action field (calls ++ [call])
      = if call.affects fields action field then some call
        else last? fields action field calls := by
  rw [last?, last?, List.filter_append]
  by_cases affected : call.affects fields action field = true
  · rw [if_pos affected, List.filter_cons_of_pos affected]
    simp
  · rw [if_neg affected, List.filter_cons_of_neg affected]
    simp

/-- A call is a grant or a withdrawal with its specifications. -/
theorem apply_eq (perms : Permissions Q) (call : Call) :
    call.apply perms = if call.grants then perms.can call.action call.specs
      else perms.cannot call.action call.specs := by
  cases call <;> rfl

end Call

namespace Permissions

variable {Q : Type}

/-- Carry out calls in turn. -/
def after (perms : Permissions Q) (calls : List Call) : Permissions Q :=
  calls.foldl Call.apply perms

/-- The constraint under which a field is granted for an action; none if it is not granted. -/
def constraint? (perms : Permissions Q) (action : Action) (field : String) : Option Constraint :=
  (perms.granted? action).bind fun granted => granted.get? field

/-- Every entry of the access table is sorted, and destroying has none. -/
structure Tidy (perms : Permissions Q) : Prop where
  /-- The fields of an entry are in order. -/
  sorted : ∀ action, Fields.Sorted (perms.granted action)
  /-- Destroying has no entry. -/
  destroy : perms.granted? .destroy = .none

/-! ## One call -/

/-- The cell of a field is what the entry of the action says, a missing entry being empty. -/
theorem constraint?_eq (perms : Permissions Q) (action : Action) (field : String) :
    perms.constraint? action field = (perms.granted action).get? field := by
  rw [constraint?, granted]
  cases perms.granted? action <;> rfl

/-- Granting the destruction of records sets the flag. -/
@[simp] theorem can_destroy (perms : Permissions Q) (specs : List FieldSpec) :
    perms.can .destroy specs = { perms with destroyable := true } := by
  unfold can
  rw [if_pos rfl]

/-- Withdrawing the destruction of records clears the flag. -/
@[simp] theorem cannot_destroy (perms : Permissions Q) (specs : List FieldSpec) :
    perms.cannot .destroy specs = { perms with destroyable := false } := by
  unfold cannot
  rw [if_pos rfl]

/-- Granting another action stores what is listed, on top of what its entry held. -/
theorem can_fieldwise (perms : Permissions Q) {action : Action} (fieldwise : action ≠ .destroy)
    (specs : List FieldSpec) :
    perms.can action specs = { perms with
      access := perms.access.set action (Fields.insertAll (perms.granted action)
        ((Call.can action specs).entries perms.fields)) } := by
  unfold can
  rw [if_neg fieldwise]
  cases specs <;> rfl

/-- Withdrawing another action changes the entry of that action only: it empties the entry if no
field is specified, and else takes the specified fields out of it. -/
theorem cannot_fieldwise (perms : Permissions Q) {action : Action} (fieldwise : action ≠ .destroy)
    (specs : List FieldSpec) :
    ∃ access : Access, perms.cannot action specs = { perms with access } ∧
      (∀ other, action ≠ other → access.get? other = perms.access.get? other) ∧
      (access.get? action).getD [] = if specs.isEmpty then []
        else (specs.flatMap FieldSpec.names).foldl Fields.erase (perms.granted action) := by
  unfold cannot
  rw [if_neg fieldwise]
  cases specs with
  | nil =>
    refine ⟨perms.access.drop action, rfl, fun other ne => ?_, ?_⟩
    · rw [Access.get?_drop, if_neg ne]
    · rw [Access.get?_drop, if_pos rfl]
      rfl
  | cons spec rest =>
    cases entry : perms.access.get? action with
    | none =>
      refine ⟨perms.access, rfl, fun _ _ => rfl, ?_⟩
      have missing : perms.granted action = [] := by rw [granted, granted?, entry]; rfl
      rw [entry, missing, List.isEmpty_cons, if_neg Bool.false_ne_true]
      exact (Fields.foldl_erase_nil _).symm
    | some stored =>
      have found : perms.granted action = stored := by rw [granted, granted?, entry]; rfl
      rw [found]
      dsimp only
      generalize (List.flatMap FieldSpec.names (spec :: rest)).foldl Fields.erase stored = left
      -- An entry without fields is dropped, which reads the same as an empty one.
      cases left with
      | nil =>
        refine ⟨perms.access.drop action, rfl, fun other ne => ?_, ?_⟩
        · rw [Access.get?_drop, if_neg ne]
        · rw [Access.get?_drop, if_pos rfl]
          rfl
      | cons first others =>
        refine ⟨perms.access.set action (first :: others), rfl, fun other ne => ?_, ?_⟩
        · rw [Access.get?_set, if_neg ne]
        · rw [Access.get?_set, if_pos rfl]
          rfl

/-- What a call does to the access table, seen through `granted`. -/
theorem granted_apply (perms : Permissions Q) {call : Call} (fieldwise : call.action ≠ .destroy)
    (action : Action) :
    (call.apply perms).granted action
      = if call.action = action then
          if call.grants then Fields.insertAll (perms.granted action) (call.entries perms.fields)
          else if call.specs.isEmpty then []
          else (call.specs.flatMap FieldSpec.names).foldl Fields.erase (perms.granted action)
        else perms.granted action := by
  rw [Call.apply_eq]
  cases granting : call.grants with
  | true =>
    rw [if_pos rfl, can_fieldwise perms fieldwise, granted, granted?, Access.get?_set]
    split
    · next same => rw [if_pos rfl, ← same]; rfl
    · rfl
  | false =>
    obtain ⟨access, changed, others, own⟩ := cannot_fieldwise perms fieldwise call.specs
    rw [if_neg Bool.false_ne_true, changed, granted, granted?]
    by_cases same : call.action = action
    · subst same
      rw [if_pos rfl, if_neg Bool.false_ne_true]
      exact own
    · rw [if_neg same, others action same]
      rfl

/-- A call on destroying concerns the flag only. -/
theorem apply_destroy (perms : Permissions Q) {call : Call} (destroying : call.action = .destroy) :
    call.apply perms = { perms with destroyable := call.grants } := by
  rw [Call.apply_eq, destroying]
  cases call.grants with
  | true => rw [if_pos rfl, can_destroy]
  | false => rw [if_neg Bool.false_ne_true, cannot_destroy]

/-- Any other call concerns the access table only, and no entry for destroying. -/
theorem apply_fieldwise (perms : Permissions Q) {call : Call} (fieldwise : call.action ≠ .destroy) :
    ∃ access : Access, call.apply perms = { perms with access } ∧
      access.get? .destroy = perms.access.get? .destroy := by
  rw [Call.apply_eq]
  cases call.grants with
  | true =>
    rw [if_pos rfl, can_fieldwise perms fieldwise]
    exact ⟨_, rfl, by rw [Access.get?_set, if_neg fieldwise]⟩
  | false =>
    obtain ⟨access, changed, others, -⟩ := cannot_fieldwise perms fieldwise call.specs
    rw [if_neg Bool.false_ne_true, changed]
    exact ⟨access, rfl, others _ fieldwise⟩

/-- No call changes which fields the table has. -/
@[simp] theorem fields_apply (perms : Permissions Q) (call : Call) :
    (call.apply perms).fields = perms.fields := by
  by_cases destroying : call.action = .destroy
  · rw [apply_destroy perms destroying]
  · obtain ⟨access, changed, -⟩ := apply_fieldwise perms destroying
    rw [changed]

/-- Every call keeps permissions tidy. -/
theorem Tidy.apply {perms : Permissions Q} (tidy : perms.Tidy) (call : Call) :
    (call.apply perms).Tidy := by
  by_cases destroying : call.action = .destroy
  · rw [apply_destroy perms destroying]
    exact ⟨tidy.sorted, tidy.destroy⟩
  · refine ⟨fun action => ?_, ?_⟩
    · rw [granted_apply perms destroying]
      split
      · split
        · exact Fields.sorted_insertAll (tidy.sorted action) _
        · split
          · exact Fields.sorted_nil
          · exact Fields.sorted_foldl_erase (tidy.sorted action) _
      · exact tidy.sorted action
    · obtain ⟨access, changed, kept⟩ := apply_fieldwise perms destroying
      rw [changed]
      exact kept.trans tidy.destroy

/-- **One call**: it decides the cells that it affects and leaves all others alone. -/
theorem constraint?_apply {perms : Permissions Q} (tidy : perms.Tidy) (call : Call)
    {action : Action} (fieldwise : action ≠ .destroy) (field : String) :
    (call.apply perms).constraint? action field
      = if call.affects perms.fields action field then call.outcome perms.fields field
        else perms.constraint? action field := by
  by_cases same : call.action = action
  · subst same
    rw [constraint?_eq, constraint?_eq, granted_apply perms fieldwise, if_pos rfl, Call.affects,
      Call.outcome]
    cases granting : call.grants with
    | true =>
      rw [if_pos rfl, if_pos rfl, Fields.get?_insertAll]
      have listed := Fields.isSome_last? (call.entries perms.fields) field
      rw [Call.map_fst_entries] at listed
      cases given : Fields.last? (call.entries perms.fields) field with
      | some constraint =>
        have : field ∈ call.listed perms.fields := listed.mp (by rw [given]; rfl)
        simp [this]
      | none =>
        have : field ∉ call.listed perms.fields := fun h => by simpa [given] using listed.mpr h
        simp [this]
    | false =>
      rw [if_neg Bool.false_ne_true, if_neg Bool.false_ne_true]
      cases given : call.specs with
      | nil => simp
      | cons spec rest =>
        have names : call.listed perms.fields = (spec :: rest).flatMap FieldSpec.names := by
          rw [Call.listed, given]
        rw [names, List.isEmpty_cons, if_neg Bool.false_ne_true,
          Fields.get?_foldl_erase (tidy.sorted _)]
        simp
  · have spared : (call.apply perms).granted action = perms.granted action := by
      by_cases destroying : call.action = .destroy
      · rw [apply_destroy perms destroying]
        rfl
      · rw [granted_apply perms destroying, if_neg same]
    rw [constraint?_eq, constraint?_eq, spared, Call.affects]
    simp [same]

/-! ## Every sequence of calls -/

theorem after_append (perms : Permissions Q) (calls : List Call) (call : Call) :
    perms.after (calls ++ [call]) = call.apply (perms.after calls) := by
  rw [after, List.foldl_append]
  rfl

theorem fields_after (perms : Permissions Q) (calls : List Call) :
    (perms.after calls).fields = perms.fields := by
  induction calls using List.reverseRecOn with
  | nil => rfl
  | append_singleton calls call ih => rw [after_append, fields_apply, ih]

/-- Permissions without any grant are tidy. -/
theorem tidy_none (fields : List String) (table : Table) (paranoid : Bool) :
    (none fields table paranoid : Permissions Q).Tidy :=
  ⟨fun _ => Fields.sorted_nil, rfl⟩

theorem Tidy.after {perms : Permissions Q} (tidy : perms.Tidy) (calls : List Call) :
    (perms.after calls).Tidy := by
  induction calls using List.reverseRecOn with
  | nil => exact tidy
  | append_singleton calls call ih =>
    rw [after_append]
    exact ih.apply call

section Fresh

variable (fields : List String) (table : Table) (paranoid : Bool) (calls : List Call)

/-- A cell of the table holds what the last call that affects it left there. -/
theorem constraint?_after {action : Action} (fieldwise : action ≠ .destroy) (field : String) :
    ((none fields table paranoid : Permissions Q).after calls).constraint? action field
      = (Call.last? fields action field calls).bind fun call => call.outcome fields field := by
  induction calls using List.reverseRecOn with
  | nil => rfl
  | append_singleton calls call ih =>
    have tidy := (tidy_none (Q := Q) fields table paranoid).after calls
    rw [after_append, constraint?_apply tidy call fieldwise, fields_after, ih, Call.last?_append]
    show (if call.affects fields action field then _ else _) = _
    split <;> rfl

/-- A field is granted iff the last call that affects it is a grant. -/
theorem isSome_constraint?_after {action : Action} (fieldwise : action ≠ .destroy)
    (field : String) :
    (((none fields table paranoid : Permissions Q).after calls).constraint? action field).isSome
      = true ↔ ∃ call, Call.last? fields action field calls = some call ∧ call.grants = true := by
  rw [constraint?_after fields table paranoid calls fieldwise]
  cases found : Call.last? fields action field calls with
  | none => simp
  | some call =>
    have affected : call.affects fields action field = true :=
      (List.mem_filter.mp (List.mem_of_getLast? found)).2
    rw [Option.bind_some, Call.isSome_outcome affected]
    simp

/-- Records may be destroyed iff the last call on destroying is a grant. -/
theorem destroyable_after :
    ((none fields table paranoid : Permissions Q).after calls).destroyable = true ↔
      ∃ call, (calls.filter fun call => decide (call.action = .destroy)).getLast? = some call ∧
        call.grants = true := by
  induction calls using List.reverseRecOn with
  | nil => simp [after, none]
  | append_singleton calls call ih =>
    rw [after_append, List.filter_append]
    by_cases destroying : call.action = .destroy
    · rw [apply_destroy _ destroying, List.filter_cons_of_pos (by simpa using destroying)]
      simp
    · obtain ⟨access, changed, -⟩ := apply_fieldwise
        ((none fields table paranoid : Permissions Q).after calls) destroying
      rw [changed, List.filter_cons_of_neg (by simpa using destroying)]
      simpa using ih

end Fresh

/-- An action is allowed on some field iff a field is granted for it, whether its entry is missing,
empty or not. -/
theorem allows_none_iff (perms : Permissions Q) {action : Action} (fieldwise : action ≠ .destroy) :
    perms.allows action .none = true ↔
      ∃ field, (perms.constraint? action field).isSome = true := by
  rw [allows, if_neg fieldwise]
  simp only [constraint?_eq]
  cases perms.granted action with
  | nil => simp
  | cons entry rest =>
    obtain ⟨field, constraint⟩ := entry
    exact ⟨fun _ => ⟨field, by simp⟩, fun _ => rfl⟩

/-- An entry may be there and empty, which grants nothing. -/
example (table : Table) :
    let perms : Permissions Unit := (none ["a"] table false).after [.can .read [.fields []]]
    perms.granted? .read = some [] ∧ perms.allows .read .none = false := ⟨rfl, rfl⟩

/-- **The last call counts.** After any calls on fresh permissions, a field is granted for an
action iff the last call that affects it is a grant, under the constraint which that call gives
last; destroying is allowed iff the last call on it is a grant, and calls on it leave the access
table alone. All questions about fields agree with this table. -/
theorem lastCall_decides (fields : List String) (table : Table) (paranoid : Bool)
    (calls : List Call) :
    let perms : Permissions Q := (none fields table paranoid).after calls
    (∀ action, action ≠ .destroy → ∀ field,
      perms.constraint? action field
          = (Call.last? fields action field calls).bind (fun call => call.outcome fields field) ∧
        ((perms.constraint? action field).isSome = true ↔
          ∃ call, Call.last? fields action field calls = some call ∧ call.grants = true) ∧
        perms.allows action (some field) = (perms.constraint? action field).isSome) ∧
    (∀ action, action ≠ .destroy → (perms.allows action .none = true ↔
      ∃ field, (perms.constraint? action field).isSome = true)) ∧
    (∀ field, perms.isReadable field = (perms.constraint? .read field).isSome) ∧
    (perms.destroyable = true ↔
      ∃ call, (calls.filter fun call => decide (call.action = .destroy)).getLast? = some call ∧
        call.grants = true) ∧
    (∀ field, perms.allows .destroy field = perms.destroyable) ∧
    perms.granted? .destroy = .none ∧
    ∀ call : Call, call.action = .destroy →
      ((none fields table paranoid).after (calls ++ [call]) : Permissions Q).access
        = perms.access := by
  intro perms
  have tidy : perms.Tidy := (tidy_none fields table paranoid).after calls
  refine ⟨fun action fieldwise field => ⟨?_, ?_, ?_⟩, fun action fieldwise => ?_, fun field => ?_,
    ?_, fun field => ?_, tidy.destroy, fun call destroying => ?_⟩
  · exact constraint?_after fields table paranoid calls fieldwise field
  · exact isSome_constraint?_after fields table paranoid calls fieldwise field
  · rw [allows, if_neg fieldwise, constraint?_eq]
    rfl
  · exact allows_none_iff perms fieldwise
  · rw [isReadable, constraint?_eq]
    rfl
  · exact destroyable_after fields table paranoid calls
  · unfold allows
    rw [if_pos rfl]
  · rw [after_append, apply_destroy _ destroying]

end Permissions

end Warden
