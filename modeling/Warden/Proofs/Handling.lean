import Warden.Proofs.Enforcement
/-! # Handling guarded records
From the time when a row is wrapped, the guarded record may be **handled** in any way
(`Guarded.Move`): bound to other subjects or to none, copied, asked for permissions, assigned
fields with and without a check. What is kept by one move is kept by all of them:

* the record stays one of its model, and permissions that it knows have been worked out for the
  subject that it is bound to (`Guarded.Coherent`);
* unless the row is replaced as a whole, it is the first row with what was **written** since
  (`Guarded.row_handled`), so that of each field the value written last counts
  (`Row.get?_setAll`). -/

namespace Warden

/-! ## Rows -/

namespace Row

/-- Values assigned in two parts are assigned one after the other. -/
theorem setAll_append (row : Row) (first second : List (String × Value)) :
    row.setAll (first ++ second) = (row.setAll first).setAll second :=
  List.foldl_append

/-- Assigning values stores them among the values of a row. -/
theorem values_setAll (row : Row) (written : List (String × Value)) :
    (row.setAll written).values = row.values.insertAll written := by
  induction written generalizing row with
  | nil => rfl
  | cons pair rest ih => exact ih (row.set pair.1 pair.2)

/-- **The value of a field** is the one assigned last, or else the former one. -/
theorem get?_setAll (row : Row) (written : List (String × Value)) (field : String) :
    (row.setAll written).get? field = (Fields.last? written field).or (row.get? field) := by
  rw [get?, values_setAll]
  exact Fields.get?_insertAll row.values written field

/-- **Pending changes** hold the current value of every assigned field, null where it has none. -/
theorem get?_changes {row : Row} {field : String} (assigned : field ∈ row.changed.keys) :
    row.changes.get? field = some ((row.get? field).getD .null) := by
  rw [changes]
  -- By induction on the assigned fields, whatever their current values are.
  generalize row.changed = changed at assigned
  induction changed with
  | nil => cases assigned
  | cons entry rest ih =>
    rw [List.map_cons, Fields.get?_cons]
    split
    · next same => rw [same]
    · next other =>
      rcases List.mem_cons.mp assigned with same | later
      · exact absurd same.symm other
      · exact ih later

end Row

namespace Guarded

variable {S Q : Type} [Query Q] {site : Site S Q} {model : Model} {record : Guarded S Q}
  {trust : Trust}

/-! ## Moves -/

/-- A **move** handles a guarded record, or is what its use leaves of it. -/
inductive Move (S : Type) where
  /-- Bind it to a subject. -/
  | restrict (subject : S)
  /-- Bind it to no subject. -/
  | unrestrict
  /-- Make a copy. -/
  | clone
  /-- Ask for the permissions of its subject, at a depth of trusted execution. -/
  | asked (trust : Trust)
  /-- Assign a field without any check. -/
  | set (field : String) (value : Value)
  /-- Assign the values that the subject may write, at a depth of trusted execution. -/
  | assign (values : FieldValues) (trust : Trust)
  /-- Put another row in its place. -/
  | replace (row : Row)

/-- Make a move. -/
def Move.apply (site : Site S Q) (record : Guarded S Q) : Move S → Guarded S Q
  | .restrict subject => record.restrict subject
  | .unrestrict => record.unrestrict
  | .clone => record.clone
  | .asked trust => ((permissions site).startFrom record trust).1.2
  | .set field value => record.modifyRow fun row => row.set field value
  | .assign values trust => ((assignPermitted site values).startFrom record trust).1.2
  | .replace row => record.modifyRow fun _ => row

/-- Make several moves. -/
def handled (site : Site S Q) (record : Guarded S Q) (moves : List (Move S)) : Guarded S Q :=
  moves.foldl (Move.apply site) record

/-- The values that assigning permitted values assigns: none if a rule panics. -/
def assigned (site : Site S Q) (record : Guarded S Q) (values : FieldValues) (trust : Trust) :
    FieldValues :=
  match ((enforced site).startFrom record trust).1.1 with
  | .error _ => []
  | .ok none => values
  | .ok (some perms) =>
    if site.config.strongParameters then
      perms.permitted (if record.row.isNew then .create else .update) values
    else values

/-- What is left of a record by assigning permitted values: permissions are asked for where they
are in force, and the row takes the values that are assigned. -/
theorem left_assignPermitted (site : Site S Q) (record : Guarded S Q) (values : FieldValues)
    (trust : Trust) :
    ((assignPermitted site values).startFrom record trust).1.2 =
      ((enforced site).startFrom record trust).1.2.modifyRow fun row =>
        row.setAll (assigned site record values trust) := by
  unfold assignPermitted assigned
  rw [RunOn.startFrom_bind, RunOn.startFrom_object]
  dsimp only
  rw [RunOn.startFrom_bind]
  rcases (enforced site).startFrom record trust with ⟨⟨panic | _ | perms, left⟩, after⟩
  · rfl
  · rfl
  · dsimp only
    cases site.config.strongParameters <;> rfl

/-! ## What is known -/

/-- A guarded record is **coherent** if it is one of a model and knows no permissions but those that
have been worked out for the subject that it is bound to. -/
structure Coherent (site : Site S Q) (model : Model) (record : Guarded S Q) : Prop where
  /-- The record is one of the model. -/
  model_eq : record.model = model
  /-- What is known has been worked out for the subject, with some row. -/
  known : ∀ perms, record.binding.memo = some perms → ∃ subject row earlier,
    record.binding.restriction = .bound subject ∧
      ((site.evaluate model subject (some row)).startFrom earlier).1 = .ok perms

theorem coherent_wrap (site : Site S Q) (model : Model) (row : Row) :
    (wrap model row : Guarded S Q).Coherent site model := ⟨rfl, nofun⟩

/-- Asking for permissions keeps a record coherent. -/
theorem Coherent.asked (coherent : record.Coherent site model) (trust : Trust) :
    ((permissions site).startFrom record trust).1.2.Coherent site model := by
  rw [startFrom_permissions]
  -- What is known now was known before, or has been worked out just now, with the current row.
  refine ⟨coherent.model_eq, fun perms known => ?_⟩
  dsimp only at known ⊢
  rw [Binding.restriction_permissions]
  cases bound : record.binding.restriction with
  | unbound =>
    rw [Binding.permissions_of_unbound bound] at known
    obtain ⟨subject, row, earlier, restriction, evaluated⟩ := coherent.known perms known
    cases bound.symm.trans restriction
  | bound subject =>
    rcases Binding.memo_permissions bound known with before | evaluated
    · obtain ⟨other, row, earlier, restriction, evaluated⟩ := coherent.known perms before
      cases bound.symm.trans restriction
      exact ⟨subject, row, earlier, rfl, evaluated⟩
    · exact ⟨subject, record.row, trust, rfl, coherent.model_eq ▸ evaluated⟩

/-- Enforcing permissions does, too. -/
theorem Coherent.enforced (coherent : record.Coherent site model) (trust : Trust) :
    ((Guarded.enforced site).startFrom record trust).1.2.Coherent site model := by
  cases inForce : record.binding.restriction.isEnforced trust with
  | true =>
    rw [startFrom_enforced inForce]
    exact coherent.asked trust
  | false =>
    rw [enforced_of_not_inForce inForce]
    exact coherent

/-- Changing the row does, too. -/
theorem Coherent.modifyRow (coherent : record.Coherent site model) (change : Row → Row) :
    (record.modifyRow change).Coherent site model := ⟨coherent.model_eq, coherent.known⟩

/-- **One move** keeps a record coherent. -/
theorem Coherent.apply (coherent : record.Coherent site model) (move : Move S) :
    (move.apply site record).Coherent site model := by
  cases move with
  | restrict subject => exact ⟨coherent.model_eq, nofun⟩
  | unrestrict => exact ⟨coherent.model_eq, nofun⟩
  | clone => exact ⟨coherent.model_eq, nofun⟩
  | asked trust => exact coherent.asked trust
  | set field value => exact coherent.modifyRow fun row => row.set field value
  | assign values trust =>
    rw [Move.apply, left_assignPermitted]
    exact (coherent.enforced trust).modifyRow _
  | replace row => exact coherent.modifyRow fun _ => row

/-- **Every sequence of moves** does. -/
theorem Coherent.handled (coherent : record.Coherent site model) (moves : List (Move S)) :
    (record.handled site moves).Coherent site model := by
  induction moves generalizing record with
  | nil => exact coherent
  | cons move rest ih => exact ih (coherent.apply move)

/-- The permissions that a coherent record finds have been worked out for its subject. -/
theorem Coherent.evaluated_of_found {subject : S} {perms : Permissions Q} {left : Guarded S Q}
    {after : Trust} (coherent : record.Coherent site model)
    (bound : record.binding.restriction = .bound subject)
    (found : (permissions site).startFrom record trust = ((.ok (.ok perms), left), after)) :
    ∃ row earlier, ((site.evaluate model subject (some row)).startFrom earlier).1 = .ok perms := by
  have restriction := (left_permissions found).2.2.trans bound
  have known : left.binding.memo = some perms :=
    (Binding.known_of_found (binding_permissions found)).2
  -- Finding them is a move, too: what the record knows afterwards has been worked out.
  have asked := coherent.asked trust
  rw [found] at asked
  obtain ⟨other, row, earlier, same, evaluated⟩ := asked.known perms known
  cases restriction.symm.trans same
  exact ⟨row, earlier, evaluated⟩

/-! ## What was written -/

/-- What a move writes to the row, field by field. -/
def Move.written (site : Site S Q) (record : Guarded S Q) : Move S → List (String × Value)
  | .set field value => [(field, value)]
  | .assign values trust => assigned site record values trust
  | _ => []

/-- What several moves write, one after the other. -/
def written (site : Site S Q) : Guarded S Q → List (Move S) → List (String × Value)
  | _, [] => []
  | record, move :: rest => move.written site record ++ written site (move.apply site record) rest

/-- **One move**, unless it replaces the row, assigns what it writes. -/
theorem row_apply {move : Move S} (keeps : ∀ row, move ≠ .replace row) :
    (move.apply site record).row = record.row.setAll (move.written site record) := by
  cases move with
  | replace row => exact absurd rfl (keeps row)
  | assign values trust =>
    rw [Move.apply, left_assignPermitted]
    rfl
  | _ => rfl

/-- **Every sequence of moves**, unless one of them replaces the row, assigns what they write. -/
theorem row_handled {moves : List (Move S)} (keep : ∀ row, Move.replace row ∉ moves) :
    (record.handled site moves).row = record.row.setAll (written site record moves) := by
  -- By induction on the moves, for every record from which they begin.
  induction moves generalizing record with
  | nil => rfl
  | cons move rest ih =>
    have keeps : ∀ row, move ≠ .replace row := fun row same => keep row (by simp [same])
    have later : ∀ row, Move.replace row ∉ rest := fun row mem => keep row (List.mem_cons_of_mem _ mem)
    rw [written, Row.setAll_append, ← row_apply keeps]
    exact ih later

end Guarded

end Warden
