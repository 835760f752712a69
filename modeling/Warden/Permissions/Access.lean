import Warden.Action
import Warden.FieldSpec
/-! # Access tables
An access table says which fields are granted for which action, and under which constraint. It
lists each action at most once. An action without entry grants nothing, and so does an action whose
entry is empty. -/

namespace Warden

/-- The granted fields of each action. -/
abbrev Access : Type := List (Action × Fields Constraint)

namespace Access

/-- The fields granted for an action, if it has an entry. -/
def get? (access : Access) (action : Action) : Option (Fields Constraint) :=
  match access with
  | [] => none
  | (key, granted) :: rest => if key = action then some granted else Access.get? rest action

/-- Store the entry of an action, replacing the former one. -/
def set (access : Access) (action : Action) (granted : Fields Constraint) : Access :=
  match access with
  | [] => [(action, granted)]
  | (key, old) :: rest =>
    if key = action then (action, granted) :: rest else (key, old) :: Access.set rest action granted

/-- Drop the entry of an action. -/
def drop (access : Access) (action : Action) : Access :=
  access.filter fun entry => entry.1 ≠ action

@[simp] theorem get?_nil (action : Action) : get? [] action = none := rfl

@[simp] theorem get?_cons (key action : Action) (granted : Fields Constraint) (rest : Access) :
    get? ((key, granted) :: rest) action = if key = action then some granted else get? rest action :=
  rfl

/-- Storing an entry changes the entry of its action only. -/
theorem get?_set (access : Access) (action other : Action) (granted : Fields Constraint) :
    get? (set access action granted) other =
      if action = other then some granted else get? access other := by
  induction access with
  | nil => simp [set]
  | cons entry rest ih =>
    obtain ⟨key, old⟩ := entry
    by_cases same : key = action
    · subst same
      by_cases hit : key = other <;> simp [set, hit]
    · simp only [set, same, if_false, get?_cons, ih]
      by_cases hit : key = other
      · subst hit
        simp [Ne.symm same]
      · simp [hit]

/-- Dropping an entry removes the entry of its action only. -/
theorem get?_drop (access : Access) (action other : Action) :
    get? (drop access action) other = if action = other then none else get? access other := by
  induction access with
  | nil => simp [drop]
  | cons entry rest ih =>
    obtain ⟨key, granted⟩ := entry
    unfold drop at ih ⊢
    by_cases gone : key = action
    · subst gone
      rw [List.filter_cons_of_neg (by simp), ih]
      by_cases hit : key = other <;> simp [hit]
    · rw [List.filter_cons_of_pos (by simpa using gone), get?_cons, get?_cons, ih]
      by_cases hit : key = other
      · subst hit
        simp [Ne.symm gone]
      · simp [hit]

/-- The description of an access table. -/
def describe (access : Access) : String :=
  Describe.map (access.map fun entry =>
    (entry.1.describe,
     Describe.map (entry.2.map fun field => (Describe.quoted field.1, field.2.describe))))

end Access

end Warden
