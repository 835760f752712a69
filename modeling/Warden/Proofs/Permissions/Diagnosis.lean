import Mathlib.Order.Bounds.Basic
import Warden.Proofs.Permissions.FieldChecks
import Warden.Proofs.Permissions.LastCall
/-! # Which field is at fault
Permissions **take** a value if they grant its field under a constraint that accepts the value
(`Permissions.Takes`). They **refuse** it if they do not grant the field, or if the constraint
rejects the value (`Permissions.Refuses`). The third case is that a predicate panics.

Of several values, which are walked in the order of their fields, the diagnosis names the first one
that is refused, having taken all before (`Permissions.firstRejected_eq_some_iff`). In a field map
that is the least field at fault (`Permissions.Diagnosis`). An action that is granted for
no field at all is at fault whatever the values are, and then the first of them is named. -/

namespace Warden

namespace Constraint

/-- A constraint **accepts** a value at some depth of trusted execution. -/
def AcceptsAt (constraint : Constraint) (trust : Trust) (value : Value) : Prop :=
  ((constraint.check value).startFrom trust).1 = .ok true

/-- It **rejects** the value there. -/
def RejectsAt (constraint : Constraint) (trust : Trust) (value : Value) : Prop :=
  ((constraint.check value).startFrom trust).1 = .ok false

/-- It does not do both. -/
theorem AcceptsAt.not_rejects {constraint : Constraint} {trust : Trust} {value : Value}
    (accepts : constraint.AcceptsAt trust value) : ¬ constraint.RejectsAt trust value := by
  intro rejects
  rw [AcceptsAt, rejects] at accepts
  cases accepts

end Constraint

namespace Permissions

variable {Q : Type} {perms : Permissions Q} {trust : Trust} {action : Action} {field : String}
  {value : Value} {values : FieldValues}

/-- Permissions **take** a value: its field is granted, and the constraint accepts the value. -/
def Takes (perms : Permissions Q) (trust : Trust) (action : Action) (field : String)
    (value : Value) : Prop :=
  ∃ constraint, perms.constraint? action field = some constraint ∧ constraint.AcceptsAt trust value

/-- Permissions **refuse** a value: its field is not granted, or the constraint rejects the
value. -/
def Refuses (perms : Permissions Q) (trust : Trust) (action : Action) (field : String)
    (value : Value) : Prop :=
  perms.constraint? action field = .none ∨
    ∃ constraint,
      perms.constraint? action field = some constraint ∧ constraint.RejectsAt trust value

/-- No value is both taken and refused. -/
theorem Takes.not_refuses (takes : perms.Takes trust action field value) :
    ¬ perms.Refuses trust action field value := by
  obtain ⟨constraint, granted, accepts⟩ := takes
  rintro (missing | ⟨other, same, rejects⟩)
  · cases granted.symm.trans missing
  · cases granted.symm.trans same
    exact accepts.not_rejects rejects

/-- Whether values are taken is decided one by one: a field is granted, or else refused. -/
theorem accepts_eq_true_iff :
    ((accepts (perms.granted action) field value).startFrom trust).1 = .ok true ↔
      perms.Takes trust action field value := by
  unfold accepts Takes
  rw [← constraint?_eq]
  cases perms.constraint? action field with
  | none => exact ⟨nofun, fun ⟨_, missing, _⟩ => nomatch missing⟩
  | some constraint =>
    refine ⟨fun accepts => ⟨constraint, rfl, accepts⟩, ?_⟩
    rintro ⟨other, same, accepts⟩
    cases same
    exact accepts

theorem accepts_eq_false_iff :
    ((accepts (perms.granted action) field value).startFrom trust).1 = .ok false ↔
      perms.Refuses trust action field value := by
  unfold accepts Refuses
  rw [← constraint?_eq]
  cases perms.constraint? action field with
  | none => exact ⟨fun _ => .inl rfl, fun _ => rfl⟩
  | some constraint =>
    refine ⟨fun rejects => .inr ⟨constraint, rfl, rejects⟩, ?_⟩
    rintro (missing | ⟨other, same, rejects⟩)
    · cases missing
    · cases same
      exact rejects

/-! ## The first value that is refused -/

/-- No value is rejected iff each one is taken. -/
theorem firstRejected_eq_none_iff :
    ((firstRejected (perms.granted action) values).startFrom trust).1 = .ok .none ↔
      ∀ entry ∈ values, perms.Takes trust action entry.1 entry.2 := by
  induction values with
  | nil => exact iff_of_true rfl (List.forall_mem_nil _)
  | cons entry rest ih =>
    rw [List.forall_mem_cons, ← ih, ← accepts_eq_true_iff, firstRejected,
      (steady_accepts _ entry.1 entry.2).startFrom_bind]
    -- A panic and a refusal end the walk, and neither is an acceptance.
    rcases ((accepts (perms.granted action) entry.1 entry.2).startFrom trust).1 with
      panic | _ | _
    · refine iff_of_false (fun named => ?_) fun both => ?_
      · cases named
      · cases both.1
    · refine iff_of_false (fun named => ?_) fun both => ?_
      · cases named
      · cases both.1
    · exact ⟨fun later => ⟨rfl, later⟩, fun both => both.2⟩

/-- **The diagnosis** names the first field whose value is refused, where all values before are
taken. -/
theorem firstRejected_eq_some_iff :
    ((firstRejected (perms.granted action) values).startFrom trust).1 = .ok (some field) ↔
      ∃ before value after, values = before ++ (field, value) :: after ∧
        (∀ entry ∈ before, perms.Takes trust action entry.1 entry.2) ∧
        perms.Refuses trust action field value := by
  induction values with
  | nil =>
    refine iff_of_false (fun named => ?_) ?_
    · cases named
    · rintro ⟨before, value, after, split, -⟩
      cases before <;> cases split
  | cons entry rest ih =>
    obtain ⟨key, first⟩ := entry
    rw [firstRejected, (steady_accepts _ key first).startFrom_bind]
    constructor
    · intro named
      cases verdict : ((accepts (perms.granted action) key first).startFrom trust).1 with
      | error panic =>
        rw [verdict] at named
        cases named
      | ok taken =>
        rw [verdict] at named
        cases taken with
        | false =>
          cases named
          exact ⟨[], first, rest, rfl, List.forall_mem_nil _, accepts_eq_false_iff.mp verdict⟩
        | true =>
          obtain ⟨before, value, after, rfl, taken, refused⟩ := ih.mp named
          exact ⟨(key, first) :: before, value, after, rfl,
            List.forall_mem_cons.mpr ⟨accepts_eq_true_iff.mp verdict, taken⟩, refused⟩
    · rintro ⟨before, value, after, split, taken, refused⟩
      cases before with
      | nil =>
        cases split
        rw [accepts_eq_false_iff.mpr refused]
        rfl
      | cons head others =>
        cases split
        obtain ⟨takes, later⟩ := List.forall_mem_cons.mp taken
        rw [accepts_eq_true_iff.mpr takes]
        exact ih.mpr ⟨others, value, after, rfl, later, refused⟩

/-! ## The least field at fault -/

/-- The fields **at fault**: those whose value is refused. -/
def faults (perms : Permissions Q) (trust : Trust) (action : Action) (values : FieldValues) :
    Set String :=
  {field | ∃ value, values.get? field = some value ∧ perms.Refuses trust action field value}

/-- In a field map the first value that is refused is that of the least field at fault, and it is
named if no predicate panics before. -/
theorem firstRejected_eq_some_iff_of_sorted (sorted : values.Sorted) :
    ((firstRejected (perms.granted action) values).startFrom trust).1 = .ok (some field) ↔
      field ∈ perms.faults trust action values ∧
        ∀ other value, values.get? other = some value → other < field →
          perms.Takes trust action other value := by
  rw [firstRejected_eq_some_iff]
  constructor
  · rintro ⟨before, value, after, rfl, taken, refused⟩
    have behind : ∀ entry ∈ after, field < entry.1 :=
      (Fields.sorted_cons.mp (List.pairwise_append.mp sorted).2.1).1
    refine ⟨⟨value, (Fields.get?_eq_some_iff sorted).mpr (by simp), refused⟩, ?_⟩
    intro other otherValue found less
    rcases List.mem_append.mp (Fields.mem_of_get? found) with early | late
    · exact taken _ early
    · rcases List.mem_cons.mp late with same | late
      · cases same
        exact absurd less (lt_irrefl field)
      · exact absurd less (behind _ late).asymm
  · rintro ⟨⟨value, found, refused⟩, taken⟩
    obtain ⟨before, after, rfl⟩ := List.append_of_mem (Fields.mem_of_get? found)
    refine ⟨before, value, after, rfl, fun entry early => ?_, refused⟩
    have less : entry.1 < field :=
      (List.pairwise_append.mp sorted).2.2 entry early (field, value) List.mem_cons_self
    exact taken entry.1 entry.2
      ((Fields.get?_eq_some_iff sorted).mpr (List.mem_append_left _ early)) less

/-- **A diagnosis**: what the plain answer to whether values may be written and the search for the
field in the way come to, told by what is taken and refused. -/
structure Diagnosis (perms : Permissions Q) (trust : Trust) (action : Action)
    (values : FieldValues) (answer : Except Panic Bool) (fault : Except Panic (Option String)) :
    Prop where
  /-- The plain answer is whether no field is in the way; where one panics, so does the other. -/
  agree : answer = fault.map Option.isNone
  /-- No field is in the way iff a field is granted and every value is taken. -/
  passes : fault = .ok .none ↔ perms.granted action ≠ [] ∧
    ∀ field value, values.get? field = some value → perms.Takes trust action field value
  /-- If a field is granted, the field in the way is the least one at fault, ... -/
  least : perms.granted action ≠ [] → ∀ field, fault = .ok (some field) →
    IsLeast (perms.faults trust action values) field
  /-- ... and it is named unless a value before it makes a predicate panic. -/
  names : perms.granted action ≠ [] → ∀ field ∈ perms.faults trust action values,
    (∀ other value, values.get? other = some value → other < field →
      perms.Takes trust action other value) → fault = .ok (some field)
  /-- If no field is granted, the least field of the values is in the way, ... -/
  ungranted : perms.granted action = [] → values ≠ [] →
    ∃ field, fault = .ok (some field) ∧ IsLeast {field | field ∈ values.keys} field
  /-- ... or the one that stands for the record, if there are no values. -/
  base : perms.granted action = [] → values = [] → fault = .ok (some baseField)

/-- **The plain answer and the search agree**, and both are told by what is taken and refused. -/
theorem diagnosis (perms : Permissions Q) (trust : Trust) (action : Action)
    (sorted : values.Sorted) :
    perms.Diagnosis trust action values
      ((perms.isModifiable action (some values)).startFrom trust).1
      ((perms.firstUnmodifiable action values).startFrom trust).1 := by
  have agree : ((perms.isModifiable action (some values)).startFrom trust).1 =
      ((perms.firstUnmodifiable action values).startFrom trust).1.map Option.isNone := by
    rw [isModifiable_eq, (perms.steady_firstUnmodifiable action values).startFrom_map]
  by_cases nothing : perms.granted action = []
  · -- Nothing is looked at: the answer is known from the action alone.
    have fault : perms.firstUnmodifiable action values =
        pure (some (values.keys.head?.getD baseField)) := by
      unfold firstUnmodifiable
      dsimp only
      rw [nothing]
      rfl
    rw [fault] at agree ⊢
    refine ⟨agree, ⟨nofun, fun both => absurd nothing both.1⟩, fun granted => absurd nothing granted,
      fun granted => absurd nothing granted, fun _ listed => ?_, fun _ empty => ?_⟩
    · obtain ⟨head, rest, rfl⟩ := List.exists_cons_of_ne_nil listed
      refine ⟨head.1, rfl, List.mem_cons_self, fun other mem => ?_⟩
      rcases List.mem_cons.mp mem with rfl | later
      · exact le_refl _
      · obtain ⟨entry, found, rfl⟩ := List.mem_map.mp later
        exact ((Fields.sorted_cons.mp sorted).1 entry found).le
    · rw [empty]
      rfl
  · have fault : perms.firstUnmodifiable action values =
        firstRejected (perms.granted action) values := by
      unfold firstUnmodifiable
      dsimp only
      rw [if_neg (by simpa using nothing)]
    rw [fault] at agree ⊢
    refine ⟨agree, ?_, fun _ field named => ?_, fun _ field refused taken => ?_,
      fun empty => absurd empty nothing, fun empty => absurd empty nothing⟩
    · rw [firstRejected_eq_none_iff]
      refine ⟨fun taken => ⟨nothing, fun field value found => taken _ (Fields.mem_of_get? found)⟩,
        fun both entry mem => both.2 entry.1 entry.2 ?_⟩
      exact (Fields.get?_eq_some_iff sorted).mpr mem
    · -- A field at fault below the named one would be taken and refused at once.
      obtain ⟨refused, taken⟩ := (firstRejected_eq_some_iff_of_sorted sorted).mp named
      refine ⟨refused, fun other ⟨value, found, refuses⟩ => not_lt.mp fun less => ?_⟩
      exact (taken other value found less).not_refuses refuses
    · exact (firstRejected_eq_some_iff_of_sorted sorted).mpr ⟨refused, taken⟩

end Permissions

end Warden
