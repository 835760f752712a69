import Warden.Policy.Installation
import Warden.Proofs.Permissions.LastCall
/-! # What a policy says
A rule of a policy is a list of **entries**, each of which grants or withdraws fields for the action
of a name; grants come before withdrawals. A rule *addresses* a subject that meets one of its
requirements, and what a policy says to a subject are the entries of the rules that address it, in
order (`Policy.entriesFor`). An entry mentions a field by listing it or by meaning every field, and
demands something of the values of a field that it mentions (`FieldList.demand?`). The last entry
for an action that mentions a field decides about the field (`PolicyEntry.last?`).

Nothing here looks at how a policy is checked or applied. -/

namespace Warden

/-! ## Rules and subjects -/

namespace PolicyRule

variable {S : Type} [Principal S]

/-- A rule **addresses** a subject if it asks for nothing, or for something that the subject is. -/
def Addresses (rule : PolicyRule) (subject : S) : Prop :=
  rule.roles = [] ∨ .anyone ∈ rule.roles ∨
    (.authenticated ∈ rule.roles ∧ Principal.isAuthenticated subject = true) ∨
    ∃ name, .role name ∈ rule.roles ∧ Principal.hasRole subject name = true

/-- Whether a rule counts for a subject is whether it addresses the subject. -/
theorem anyMetBy_iff (rule : PolicyRule) (subject : S) :
    RoleRequirement.anyMetBy rule.roles subject = true ↔ rule.Addresses subject := by
  rw [RoleRequirement.anyMetBy, Addresses, Bool.or_eq_true, List.isEmpty_iff, List.any_eq_true]
  refine or_congr_right ⟨?_, ?_⟩
  · rintro ⟨requirement, asked, met⟩
    cases requirement with
    | anyone => exact .inl asked
    | authenticated => exact .inr (.inl ⟨asked, met⟩)
    | role name => exact .inr (.inr ⟨name, asked, met⟩)
  · rintro (asked | ⟨asked, met⟩ | ⟨name, asked, met⟩)
    · exact ⟨.anyone, asked, rfl⟩
    · exact ⟨.authenticated, asked, met⟩
    · exact ⟨.role name, asked, met⟩

instance (rule : PolicyRule) (subject : S) : Decidable (rule.Addresses subject) :=
  decidable_of_iff _ (rule.anyMetBy_iff subject)

end PolicyRule

/-! ## Fields and constraints -/

namespace FieldList

/-- The fields that are listed one by one, each with what is demanded of its values. -/
def listed : FieldList → List (String × Option ConstraintSpec)
  | .flag _ => []
  | .name field => [(field, none)]
  | .names fields => fields.map fun field => (field, none)
  | .constrained fields => fields

/-- What is demanded of the values of a field, if the field is mentioned. Where every field is meant
nothing is demanded of any. -/
def demand? (list : FieldList) (field : String) : Option (Option ConstraintSpec) :=
  if list.isAll then some none else Fields.last? list.listed field

/-- Whether the fields are given as the word for none. -/
def isNo : FieldList → Bool
  | .flag value => !value
  | _ => false

/-- Whether no field is given: by the word for none, an empty list or an empty map. -/
def isVoid : FieldList → Bool
  | .flag value => !value
  | .name _ => false
  | .names fields => fields.isEmpty
  | .constrained fields => fields.isEmpty

end FieldList

/-- The constraint that a demand stands for, for a subject of which conditions see a value. A
condition that is no expression stands for none. -/
def ConstraintSpec.constraint? [Cel.Evaluation] (auth : Value) :
    Option ConstraintSpec → Option Constraint
  | none => some .unconstrained
  | some (.literal value) => some (.literal value)
  | some (.range limits) => some (.range
    { lower := (limits.min.map Bound.included).getD .unbounded
      upper := (limits.max.map
        (if limits.exclusive then .excluded else .included)).getD .unbounded })
  | some (.condition source) =>
    (Cel.Condition.ofText source).toOption.map fun condition => .ofCondition condition auth

/-! ## Entries -/

/-- What a rule says about the action of a name. -/
structure PolicyEntry where
  /-- Whether fields are granted; else they are withdrawn. -/
  grants : Bool
  /-- The name of the action. -/
  name : String
  /-- The fields. -/
  fields : FieldList

namespace PolicyEntry

/-- The action that an entry is for. -/
def action (entry : PolicyEntry) : Action := Action.ofName entry.name

/-- Whether an entry is for an action and mentions a field. -/
def concerns (action : Action) (field : String) (entry : PolicyEntry) : Bool :=
  decide (entry.action = action) && (entry.fields.demand? field).isSome

/-- What an entry leaves for a field that it mentions: the constraint that it demands, or nothing if
it withdraws. -/
def outcome [Cel.Evaluation] (auth : Value) (field : String) (entry : PolicyEntry) :
    Option Constraint :=
  if entry.grants then (entry.fields.demand? field).bind (ConstraintSpec.constraint? auth)
  else none

/-- The last entry for an action that mentions a field. -/
def last? (action : Action) (field : String) (entries : List PolicyEntry) : Option PolicyEntry :=
  (entries.filter (concerns action field)).getLast?

/-- The last entry for destroying that is not for nothing. -/
def lastDestroy? (entries : List PolicyEntry) : Option PolicyEntry :=
  (entries.filter fun entry => decide (entry.action = .destroy) && !entry.fields.isNo).getLast?

end PolicyEntry

/-- The entries of a rule: what it grants, and then what it withdraws. -/
def PolicyRule.entries (rule : PolicyRule) : List PolicyEntry :=
  (rule.can.map fun given => ⟨true, given.1, given.2⟩) ++
    rule.cannot.map fun given => ⟨false, given.1, given.2⟩

namespace Policy

variable {S : Type} [Principal S]

/-- The rules of a table; none if the policy has no entry for it. -/
def tableRules (policy : Policy) (table : Table) : List PolicyRule :=
  (policy.rules? table.name).getD []

/-- The rules of a table that address a subject. -/
def rulesFor (policy : Policy) (table : Table) (subject : S) : List PolicyRule :=
  (policy.tableRules table).filter fun rule => decide (rule.Addresses subject)

/-- What a policy says to a subject about a table. -/
def entriesFor (policy : Policy) (table : Table) (subject : S) : List PolicyEntry :=
  (policy.rulesFor table subject).flatMap PolicyRule.entries

end Policy

/-! ## Leaving out what gives no field -/

/-- A rule without the entries that give no field. -/
def PolicyRule.pruned (rule : PolicyRule) : PolicyRule :=
  { rule with
    can := rule.can.filter fun given => !given.2.isVoid
    cannot := rule.cannot.filter fun given => !given.2.isVoid }

/-- A policy without the entries that give no field. -/
def Policy.pruned (policy : Policy) : Policy :=
  { tables := policy.tables.mapValues fun rules => rules.map PolicyRule.pruned }

/-- Pruning a rule prunes its entries. -/
theorem PolicyRule.entries_pruned (rule : PolicyRule) :
    rule.pruned.entries = rule.entries.filter fun entry => !entry.fields.isVoid := by
  rw [entries, entries, List.filter_append, List.filter_map, List.filter_map]
  rfl

/-- Pruning a policy prunes the rules of every table. -/
theorem Policy.tableRules_pruned (policy : Policy) (table : Table) :
    policy.pruned.tableRules table = (policy.tableRules table).map PolicyRule.pruned := by
  rw [tableRules, tableRules, rules?, pruned, Fields.get?_mapValues, ← rules?]
  cases policy.rules? table.name <;> rfl

end Warden
