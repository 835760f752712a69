import Warden.Constraint
/-! # Field specifications
The fields that a rule grants or withdraws are named one by one, as a list, or each with its
constraint, and the ways may be mixed. A rule that specifies none means every field. -/

namespace Warden

/-- A specification of fields. -/
inductive FieldSpec where
  /-- One field without constraint. -/
  | field (name : String)
  /-- Several fields without constraint. -/
  | fields (names : List String)
  /-- Fields with their constraints. -/
  | constrained (entries : List (String × Constraint))

namespace FieldSpec

/-- The specified fields with their constraints. -/
def entries : FieldSpec → List (String × Constraint)
  | .field name => [(name, .unconstrained)]
  | .fields names => names.map fun name => (name, .unconstrained)
  | .constrained entries => entries

/-- The specified fields. -/
def names : FieldSpec → List String
  | .field name => [name]
  | .fields names => names
  | .constrained entries => entries.map Prod.fst

@[simp] theorem map_fst_entries (spec : FieldSpec) : spec.entries.map Prod.fst = spec.names := by
  cases spec <;> simp [entries, names, Function.comp_def]

end FieldSpec

/-- Arguments that name the fields of a rule. -/
class FieldSelection (α : Type) where
  /-- The specifications that an argument stands for. -/
  specs : α → List FieldSpec

namespace FieldSelection

/-- No argument: every field. -/
instance : FieldSelection Unit := ⟨fun _ => []⟩

/-- One specification. -/
instance : FieldSelection FieldSpec := ⟨fun spec => [spec]⟩

/-- Several specifications. -/
instance : FieldSelection (List FieldSpec) := ⟨id⟩

/-- One name. -/
instance : FieldSelection String := ⟨fun name => [.field name]⟩

/-- A list of names. -/
instance : FieldSelection (List String) := ⟨fun names => [.fields names]⟩

/-- One name with its constraint. -/
instance : FieldSelection (String × Constraint) := ⟨fun entry => [.constrained [entry]]⟩

/-- A list of names with their constraints. -/
instance : FieldSelection (List (String × Constraint)) := ⟨fun entries => [.constrained entries]⟩

end FieldSelection

end Warden
