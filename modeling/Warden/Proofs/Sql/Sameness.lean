import Warden.Proofs.Binary64
import Warden.Proofs.Sql.Columns
/-! # Conditions of the same form
Whether a condition is in a query already is decided by equality of form. This equality passes from
one condition to the next (`Sql.Condition.same_trans`), but it could not recognise a condition that
mentions a binary64 which is not a number. Conditions that are of their own form are **proper**.
The values that documents can hold have proper literals (`Sql.Literal.isProper_ofValue`), and so
clauses made of such values have proper conditions (`Sql.Clause.isProper_of_conditions`). -/

namespace Warden

/-! ## Literals -/

/-- Whether a value can stand in a document: no binary64 in it, at any depth, is infinite or not a
number. -/
inductive Value.IsJson : Value → Prop where
  /-- No value. -/
  | null : IsJson .null
  /-- A truth value. -/
  | bool (value : Bool) : IsJson (.bool value)
  /-- An integer. -/
  | int (value : Int) : IsJson (.number (.int value))
  /-- A finite binary64. -/
  | float {value : Float} (finite : value.isFinite = true) : IsJson (.number (.float value))
  /-- A text. -/
  | string (value : String) : IsJson (.string value)
  /-- A list. -/
  | array {items : List Value} (each : ∀ item ∈ items, IsJson item) : IsJson (.array items)
  /-- A field map. -/
  | object {fields : List (String × Value)} (each : ∀ entry ∈ fields, IsJson entry.2) :
    IsJson (.object fields)

namespace Sql

namespace Literal

/-- Equality of literals passes from one to the next. -/
theorem same_trans {first second third : Literal} (one : first.same second = true)
    (other : second.same third = true) : first.same third = true := by
  cases first with
  | double x =>
    cases second with
    | double y =>
      cases third with
      | double z => exact BEq.trans one other
      | _ => cases other
    | _ => cases one
  | null =>
    cases second with
    | null => exact other
    | _ => cases one
  | _ =>
    -- Literals of these kinds are equal only if they are the same.
    cases second <;> first | cases one | cases eq_of_beq one
    exact other

/-- Whether a literal is **proper**, that is to say equal to itself. -/
def IsProper (literal : Literal) : Prop := literal.same literal = true

/-- **The literal of a value** that a document can hold is proper. -/
theorem isProper_ofValue {value : Value} (json : value.IsJson) : (ofValue value).IsProper := by
  have double {x : Float} (number : x.isNaN = false) : (double x).IsProper :=
    Float.beq_self_of_number number
  have text (content : String) : (text content).IsProper := beq_self_eq_true content
  cases json with
  | null => rfl
  | bool value => exact beq_self_eq_true value
  | int n =>
    rw [ofValue]
    -- What is no signed word is written as a binary64.
    cases foreign : (Number.int n).word? with
    | some word => exact beq_self_eq_true word
    | none => exact double (Number.isNaN_toFloat foreign)
  | float finite => exact double (Float.isNaN_of_isFinite finite)
  | string content => exact text content
  | array => exact text _
  | object => exact text _

end Literal

namespace Condition

/-! ## Conditions -/

/-- Equality of lists of literals passes from one to the next. -/
theorem sameLiterals_trans {first second third : List Literal}
    (one : sameLiterals first second = true) (other : sameLiterals second third = true) :
    sameLiterals first third = true := by
  induction first generalizing second third with
  | nil =>
    cases second with
    | nil => exact other
    | cons => cases one
  | cons head rest ih =>
    cases second with
    | nil => cases one
    | cons head' rest' =>
      cases third with
      | nil => cases other
      | cons =>
        obtain ⟨heads, rests⟩ := Bool.and_eq_true_iff.mp one
        obtain ⟨heads', rests'⟩ := Bool.and_eq_true_iff.mp other
        exact Bool.and_eq_true_iff.mpr ⟨Literal.same_trans heads heads', ih rests rests'⟩

/-- **Equality of form** passes from one condition to the next. -/
theorem same_trans {first second third : Condition} (one : first.same second = true)
    (other : second.same third = true) : first.same third = true := by
  induction first generalizing second third with
  | never => cases second <;> first | exact other | cases one
  | always => cases second <;> first | exact other | cases one
  | isNull column => cases second <;> first | cases eq_of_beq one; exact other | cases one
  | isNotNull column => cases second <;> first | cases eq_of_beq one; exact other | cases one
  | like column pattern =>
    cases second with
    | like column' pattern' =>
      obtain ⟨columns, patterns⟩ := Bool.and_eq_true_iff.mp one
      cases eq_of_beq columns
      cases eq_of_beq patterns
      exact other
    | _ => cases one
  | compare comparison column literal =>
    cases second with
    | compare comparison' column' literal' =>
      cases third with
      | compare =>
        simp only [same, Bool.and_eq_true, beq_iff_eq] at one other ⊢
        exact ⟨⟨one.1.1.trans other.1.1, one.1.2.trans other.1.2⟩,
          Literal.same_trans one.2 other.2⟩
      | _ => cases other
    | _ => cases one
  | isIn column literals =>
    cases second with
    | isIn column' literals' =>
      cases third with
      | isIn =>
        simp only [same, Bool.and_eq_true, beq_iff_eq] at one other ⊢
        exact ⟨one.1.trans other.1, sameLiterals_trans one.2 other.2⟩
      | _ => cases other
    | _ => cases one
  | isNotIn column literals =>
    cases second with
    | isNotIn column' literals' =>
      cases third with
      | isNotIn =>
        simp only [same, Bool.and_eq_true, beq_iff_eq] at one other ⊢
        exact ⟨one.1.trans other.1, sameLiterals_trans one.2 other.2⟩
      | _ => cases other
    | _ => cases one
  | both left right ihLeft ihRight =>
    cases second with
    | both left' right' =>
      cases third with
      | both =>
        simp only [same, Bool.and_eq_true] at one other ⊢
        exact ⟨ihLeft one.1 other.1, ihRight one.2 other.2⟩
      | _ => cases other
    | _ => cases one
  | either left right ihLeft ihRight =>
    cases second with
    | either left' right' =>
      cases third with
      | either =>
        simp only [same, Bool.and_eq_true] at one other ⊢
        exact ⟨ihLeft one.1 other.1, ihRight one.2 other.2⟩
      | _ => cases other
    | _ => cases one

/-- Whether a condition is **proper**, that is to say of its own form. -/
def IsProper (condition : Condition) : Prop := condition.same condition = true

variable {column : ColumnName}

@[simp] theorem isProper_never : never.IsProper := rfl

@[simp] theorem isProper_always : always.IsProper := rfl

@[simp] theorem isProper_isNull : (isNull column).IsProper := beq_self_eq_true column

@[simp] theorem isProper_isNotNull : (isNotNull column).IsProper := beq_self_eq_true column

@[simp] theorem isProper_like (pattern : String) : (like column pattern).IsProper := by
  simp [IsProper, same]

theorem isProper_compare (comparison : Comparison) {literal : Literal} (proper : literal.IsProper) :
    (compare comparison column literal).IsProper := by
  rw [IsProper, same, beq_self_eq_true, beq_self_eq_true]
  exact proper

/-- Proper literals, one by one, are equal to themselves. -/
theorem sameLiterals_self {literals : List Literal}
    (proper : ∀ literal ∈ literals, literal.IsProper) : sameLiterals literals literals = true := by
  induction literals with
  | nil => rfl
  | cons first rest ih =>
    obtain ⟨one, others⟩ := List.forall_mem_cons.mp proper
    exact Bool.and_eq_true_iff.mpr ⟨one, ih others⟩

theorem isProper_both {left right : Condition} (one : left.IsProper) (other : right.IsProper) :
    (both left right).IsProper := Bool.and_eq_true_iff.mpr ⟨one, other⟩

theorem isProper_either {left right : Condition} (one : left.IsProper) (other : right.IsProper) :
    (either left right).IsProper := Bool.and_eq_true_iff.mpr ⟨one, other⟩

/-- Joined conditions are proper if each is. -/
theorem isProper_foldl {join : Condition → Condition → Condition}
    (joins : ∀ left right, left.IsProper → right.IsProper → (join left right).IsProper)
    {first : Condition} {rest : List Condition} (proper : first.IsProper)
    (others : ∀ condition ∈ rest, condition.IsProper) : (rest.foldl join first).IsProper := by
  induction rest generalizing first with
  | nil => exact proper
  | cons second rest ih =>
    obtain ⟨one, more⟩ := List.forall_mem_cons.mp others
    exact ih (joins _ _ proper one) more

/-- Conditions together are proper if each is. -/
theorem isProper_allOf {conditions : List Condition}
    (proper : ∀ condition ∈ conditions, condition.IsProper) : (allOf conditions).IsProper := by
  cases conditions with
  | nil => rfl
  | cons first rest =>
    obtain ⟨one, others⟩ := List.forall_mem_cons.mp proper
    exact isProper_foldl (fun _ _ => isProper_both) one others

/-- So are alternatives. -/
theorem isProper_anyOf {conditions : List Condition}
    (proper : ∀ condition ∈ conditions, condition.IsProper) : (anyOf conditions).IsProper := by
  cases conditions with
  | nil => rfl
  | cons first rest =>
    obtain ⟨one, others⟩ := List.forall_mem_cons.mp proper
    exact isProper_foldl (fun _ _ => isProper_either) one others

/-- The literals of values that documents can hold are equal to themselves. -/
theorem sameLiterals_ofValue {values : List Value} (json : ∀ value ∈ values, value.IsJson) :
    sameLiterals (values.map Literal.ofValue) (values.map Literal.ofValue) = true := by
  refine sameLiterals_self fun literal mem => ?_
  obtain ⟨value, given, rfl⟩ := List.mem_map.mp mem
  exact Literal.isProper_ofValue (json value given)

/-- A condition of equality with such a value is proper. -/
theorem isProper_hasValue {value : Value} (json : value.IsJson) :
    (hasValue column value).IsProper := by
  have proper : (compare .eq column (.ofValue value)).IsProper :=
    isProper_compare .eq (Literal.isProper_ofValue json)
  cases json with
  | null => exact isProper_isNull
  | _ => exact proper

/-- So is one of equality with one of several. -/
theorem isProper_hasAnyValue {values : List Value} (json : ∀ value ∈ values, value.IsJson) :
    (hasAnyValue column values).IsProper := by
  cases values with
  | nil => rfl
  | cons first rest =>
    exact Bool.and_eq_true_iff.mpr ⟨beq_self_eq_true column, sameLiterals_ofValue json⟩

end Condition

/-! ## Clauses -/

open Condition

/-- The condition of an operator is proper if a document can hold the operand. -/
theorem Operator.isProper_condition {operator : Operator} {column : ColumnName} {operand : Value}
    {condition : Condition} (json : operand.IsJson)
    (stands : operator.condition column operand = .ok condition) : condition.IsProper := by
  unfold Operator.condition at stands
  have compares (comparison : Comparison) :
      (Condition.compare comparison column (.ofValue operand)).IsProper :=
    isProper_compare comparison (Literal.isProper_ofValue json)
  cases operator with
  | eq =>
    cases stands
    exact isProper_hasValue json
  | like =>
    cases operand with
    | string pattern =>
      cases stands
      exact isProper_like pattern
    | _ => cases stands
  | isIn =>
    cases json with
    | array each =>
      cases stands
      exact isProper_hasAnyValue each
    | _ => cases stands
  | isNotIn =>
    cases json with
    | @array items each =>
      cases items with
      | nil =>
        cases stands
        rfl
      | cons =>
        cases stands
        exact Bool.and_eq_true_iff.mpr ⟨beq_self_eq_true column, sameLiterals_ofValue each⟩
    | _ => cases stands
  | _ =>
    dsimp only at stands
    split at stands <;> cases stands <;> simp [compares]

namespace Clause

variable {table : String} {wanted : List Condition}

/-- Whether a document can hold a clause. -/
def IsJson (clause : Clause) : Prop := ∀ entry ∈ clause, entry.2.IsJson

/-- The conditions of several operators are proper. -/
theorem isProper_operatorConditions {column : ColumnName} {operators : List (String × Value)}
    (json : IsJson operators) (given : operatorConditions column operators = .ok wanted) :
    ∀ condition ∈ wanted, condition.IsProper := by
  induction operators generalizing wanted with
  | nil =>
    cases given
    exact nofun
  | cons entry rest ih =>
    obtain ⟨operand, others⟩ := List.forall_mem_cons.mp json
    rw [operatorConditions] at given
    cases named : Operator.ofName? entry.1 with
    | none =>
      rw [named] at given
      cases given
    | some operator =>
      rw [named] at given
      obtain ⟨condition, stands, given⟩ := bind_eq_ok_iff.mp given
      obtain ⟨conditions, later, same⟩ := bind_eq_ok_iff.mp given
      cases same
      exact List.forall_mem_cons.mpr ⟨operator.isProper_condition operand stands, ih others later⟩

/-- The conditions of a column are proper. -/
theorem isProper_columnConditions {column : ColumnName} {value : Value} (json : value.IsJson)
    (given : columnConditions column value = .ok wanted) :
    ∀ condition ∈ wanted, condition.IsProper := by
  have one : (hasValue column value).IsProper := isProper_hasValue json
  cases json with
  | object each => exact isProper_operatorConditions each given
  | array => cases given
  | _ =>
    cases given
    exact List.forall_mem_singleton.mpr one

/-- The condition of a group is proper if those of its clauses are. -/
theorem isProper_groupCondition {key : String} {groups : List Condition}
    (proper : ∀ group ∈ groups, group.IsProper) : (groupCondition key groups).IsProper := by
  rw [groupCondition]
  split
  · exact isProper_anyOf proper
  · exact isProper_allOf proper

/-- **The conditions of a clause** that a document can hold are proper. -/
theorem isProper_of_conditions {clause : Clause} (json : clause.IsJson)
    (given : conditions table clause = .ok wanted) : ∀ condition ∈ wanted, condition.IsProper := by
  induction clause using groupInduction generalizing wanted with
  | step clause ih =>
    intro condition mem
    obtain ⟨parts, each, rfl⟩ := conditions_eq_ok_iff.mp given
    obtain ⟨part, ofPart, inPart⟩ := List.mem_flatten.mp mem
    obtain ⟨⟨key, value⟩, entry, made⟩ := exists_of_mem_right each ofPart
    have held : value.IsJson := json _ entry
    by_cases grouped : isGroupKey key = true
    · obtain ⟨shaped, groups, makes, rfl⟩ := (entryConditions_eq_ok_iff grouped).mp made
      obtain ⟨items, rfl, objects⟩ := items_of_shape shaped
      cases List.mem_singleton.mp inPart
      refine isProper_groupCondition fun group ofGroup => ?_
      rw [groupConditions, itemConditions_eq, mapM_eq_ok_iff] at makes
      obtain ⟨item, member, made⟩ := exists_of_mem_right makes ofGroup
      obtain ⟨inner, rfl⟩ := objects item member
      obtain ⟨others, givenInner, rfl⟩ := itemCondition_eq_ok_iff.mp made
      -- The clause in the group is held by the document that holds the group.
      have heldInner : IsJson inner := by
        cases held with
        | array all =>
          cases all _ member with
          | object all => exact all
      exact isProper_allOf (ih key items inner entry member heldInner givenInner)
    · rw [entryConditions, if_neg grouped] at made
      exact isProper_columnConditions held made condition inPart

end Clause

end Sql

end Warden
