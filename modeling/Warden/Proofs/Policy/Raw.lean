import Mathlib.Data.List.Forall2
import Mathlib.Data.Option.Basic
import Warden.Policy.Document
import Warden.Proofs.Policy.Entries
import Warden.Proofs.Run
import Warden.Proofs.Yaml.Written
/-! # What stands in a policy document
A policy document gives fields and scopes in several forms. A **raw** policy has all the parts of a
policy, with the data that stand in the document in the places of what is made of them, so that a
rule that was read can be held against its own words. Every policy that is read from a document
*puts into forms* the raw policy of the same document (`Policy.raw_of_ofText`).

The two readers go through the document side by side: whatever the reader of policies returns, the
reader of raw policies has returned something related by then, and has followed as many references
(`Reading.Refines`). -/

namespace Warden

/-! ## Related maps -/

namespace Fields

variable {α β : Type} {related : α → β → Prop}

/-- Maps are **related** if they have the same names in the same order, with related values. -/
def Related (related : α → β → Prop) (fields : Fields α) (others : Fields β) : Prop :=
  List.Forall₂ (fun field other => field.1 = other.1 ∧ related field.2 other.2) fields others

/-- Storing related values under one name keeps maps related. -/
theorem Related.insert {fields : Fields α} {others : Fields β}
    (each : Related related fields others) (name : String) {a : α} {b : β} (values : related a b) :
    Related related (fields.insert name a) (others.insert name b) := by
  induction each with
  | nil => exact .cons ⟨rfl, values⟩ .nil
  | @cons field other _ _ one more ih =>
    obtain ⟨key, value⟩ := field
    obtain ⟨key', value'⟩ := other
    obtain ⟨rfl, same⟩ := one
    unfold Fields.insert
    split
    · exact .cons ⟨rfl, values⟩ more
    · split
      · exact .cons ⟨rfl, values⟩ (.cons ⟨rfl, same⟩ more)
      · exact .cons ⟨rfl, same⟩ ih

/-- Maps made from related pairs are related. -/
theorem Related.ofList {pairs : List (String × α)} {others : List (String × β)}
    (each : List.Forall₂ (fun pair other => pair.1 = other.1 ∧ related pair.2 other.2) pairs
      others) : Related related (Fields.ofList pairs) (Fields.ofList others) := by
  suffices general : ∀ (fields : Fields α) (stored : Fields β), Related related fields stored →
      Related related (fields.insertAll pairs) (stored.insertAll others) from general [] [] .nil
  induction each with
  | nil => exact fun _ _ before => before
  | @cons pair other _ _ one _ ih =>
    obtain ⟨name, value⟩ := pair
    obtain ⟨name', value'⟩ := other
    obtain ⟨rfl, same⟩ := one
    exact fun _ _ before => ih _ _ (before.insert name same)

/-- Related maps hold related values under every name. -/
theorem Related.get? {fields : Fields α} {others : Fields β} (each : Related related fields others)
    (name : String) : Option.Rel related (fields.get? name) (others.get? name) := by
  induction each with
  | nil => exact .none
  | @cons field other _ _ one _ ih =>
    obtain ⟨key, value⟩ := field
    obtain ⟨key', value'⟩ := other
    obtain ⟨rfl, same⟩ := one
    rw [get?_cons, get?_cons]
    split
    · exact .some same
    · exact ih

/-- So they do where a default stands in for what is missing. -/
theorem Related.getD {fields : Fields α} {others : Fields β} (each : Related related fields others)
    (name : String) {a : α} {b : β} (default : related a b) :
    related ((fields.get? name).getD a) ((others.get? name).getD b) := by
  have held := each.get? name
  generalize fields.get? name = value at held
  generalize others.get? name = other at held
  cases held with
  | none => exact default
  | some values => exact values

/-- A value of the first of two related maps is related to one of the second. -/
theorem Related.of_mem {fields : Fields α} {others : Fields β}
    (each : Related related fields others) {name : String} {a : α} (mem : (name, a) ∈ fields) :
    ∃ b, (name, b) ∈ others ∧ related a b := by
  obtain ⟨⟨other, b⟩, found, same, values⟩ := exists_of_mem_right each.flip mem
  dsimp only at same
  subst same
  exact ⟨b, found, values⟩

/-- The last of related pairs with a name are related. -/
theorem Related.last? {pairs : List (String × α)}
    {others : List (String × β)} (each : Related related pairs others) (name : String) :
    Option.Rel related (Fields.last? pairs name) (Fields.last? others name) := by
  have reversed : Related related pairs.reverse others.reverse := List.rel_reverse each
  exact reversed.get? name

end Fields

/-! ## Readers side by side -/

namespace Yaml

namespace Reading

variable {α β γ δ : Type} {related : β → α → Prop} {result : δ → γ → Prop}

/-- A reader **refines** another one if whatever it returns, the other returns something related
that follows as many references. -/
def Refines (reader : Reading α) (other : Reading β) (related : β → α → Prop) : Prop :=
  ∀ document followed a left, reader document followed = some (a, left) →
    ∃ b, other document followed = some (b, left) ∧ related b a

theorem refines_self (reader : Reading α) : reader.Refines reader fun b a => b = a :=
  fun _ _ a _ returned => ⟨a, returned, rfl⟩

theorem refines_pure {a : α} {b : β} (values : related b a) :
    (pure a : Reading α).Refines (pure b) related := by
  intro document followed c left returned
  cases returned
  exact ⟨b, rfl, values⟩

/-- Readers in a row refine each other if the first ones do, and the second ones after related
results. -/
theorem Refines.bind {reader : Reading α} {other : Reading β} {next : α → Reading γ}
    {more : β → Reading δ} (first : reader.Refines other related)
    (rest : ∀ b a, related b a → (next a).Refines (more b) result) :
    (reader >>= next).Refines (other >>= more) result := by
  intro document followed c left returned
  obtain ⟨⟨a, between⟩, found, returned⟩ := Option.bind_eq_some_iff.mp returned
  obtain ⟨b, alike, values⟩ := first document followed a between found
  obtain ⟨d, returns, results⟩ := rest b a values document between c left returned
  exact ⟨d, Option.bind_eq_some_iff.mpr ⟨(b, between), alike, returns⟩, results⟩

/-- What is made of something read, if anything, refines reading alone. -/
theorem refines_ofOption (reader : Reading β) (make : β → Option α) :
    (reader >>= fun b => ofOption (make b)).Refines reader fun b a => make b = some a := by
  intro document followed a left returned
  obtain ⟨⟨b, between⟩, found, returned⟩ := Option.bind_eq_some_iff.mp returned
  obtain ⟨_, makes, same⟩ := Option.map_eq_some_iff.mp returned
  cases same
  exact ⟨b, found, makes⟩

/-- Several items are read side by side. -/
theorem refines_mapM {item : Type} {items : List item} {reader : item → Reading α}
    {other : item → Reading β} (each : ∀ i, (reader i).Refines (other i) related) :
    (items.mapM reader).Refines (items.mapM other) (List.Forall₂ related) := by
  induction items with
  | nil => exact refines_pure .nil
  | cons first rest ih =>
    rw [List.mapM_cons, List.mapM_cons]
    exact (each first).bind fun b a values => ih.bind fun bs as more =>
      refines_pure (.cons values more)

end Reading

namespace Node

open Reading

variable {α β : Type} {related : β → α → Prop} {reader : Node → Reading α}
  {other : Node → Reading β}

/-- A part of a record is read side by side if the defaults are related. -/
theorem refines_part (record : Fields Node) (name : String) {a : α} {b : β}
    (default : related b a) (each : ∀ node, (reader node).Refines (other node) related) :
    (part record name a reader).Refines (part record name b other) related := by
  unfold part
  split
  · exact refines_pure default
  · exact each _

/-- So is a part that may be absent. -/
theorem refines_optional (each : ∀ node, (reader node).Refines (other node) related)
    (node : Node) :
    (optional reader node).Refines (optional other node) (Option.Rel related) := by
  refine (refines_self _).bind ?_
  rintro target _ rfl
  split
  · exact refines_pure .none
  · exact (each target).bind fun b a values => refines_pure (.some values)

/-- So are texts and what they are mapped to. -/
theorem refines_fields (each : ∀ node, (reader node).Refines (other node) related) (node : Node) :
    (fields reader node).Refines (fields other node) (Fields.Related related) := by
  refine (refines_self _).bind ?_
  rintro entries _ rfl
  have pair (entry : Node × Node) :
      (entry.1.text >>= fun name => reader entry.2 >>= fun a => pure (name, a)).Refines
        (entry.1.text >>= fun name => other entry.2 >>= fun b => pure (name, b))
        fun pair other => pair.1 = other.1 ∧ related pair.2 other.2 := by
    refine (refines_self _).bind ?_
    rintro name _ rfl
    exact (each entry.2).bind fun b a values => refines_pure ⟨rfl, values⟩
  exact (refines_mapM pair).bind fun _ _ pairs => refines_pure (Fields.Related.ofList pairs)

end Node

end Yaml

/-! ## Raw policies -/

open Yaml

/-- A rule as it stands in a document. -/
structure RawRule where
  /-- For whom the rule counts. -/
  roles : List RoleRequirement
  /-- What is given as granted, by action. -/
  can : Fields Datum
  /-- What is given as withdrawn, by action. -/
  cannot : Fields Datum
  /-- What is given as the scope. -/
  scope : Option Datum

/-- A policy as it stands in a document. -/
structure RawPolicy where
  /-- The rules of each table. -/
  tables : Fields (List RawRule)

namespace RawRule

/-- Read a rule as it stands. -/
def ofNode (depth : Nat) (node : Node) : Reading RawRule := do
  let record ← node.record PolicyRule.parts
  let grants := Node.fields (Datum.ofNode (depth - 1))
  let roles ← Node.part record "roles" [] PolicyRule.rolesOf
  let can ← Node.part record "can" [] grants
  let cannot ← Node.part record "cannot" [] grants
  let scope ← Node.part record "scope" none (Node.optional (Datum.ofNode depth))
  return { roles, can, cannot, scope }

/-- A rule **puts into forms** what stands in the document. -/
structure Forms (raw : RawRule) (rule : PolicyRule) : Prop where
  /-- The requirements are the same. -/
  roles : raw.roles = rule.roles
  /-- Granted fields are read from what is given as granted. -/
  can : Fields.Related (fun datum list => FieldList.ofDatum? datum = some list) raw.can rule.can
  /-- Withdrawn fields are read from what is given as withdrawn. -/
  cannot : Fields.Related (fun datum list => FieldList.ofDatum? datum = some list)
    raw.cannot rule.cannot
  /-- The scope is read from what is given as the scope. -/
  scope : Option.Rel (fun datum spec => ScopeSpec.ofDatum? datum = some spec) raw.scope rule.scope

/-- Rules are read side by side. -/
theorem refines_ofNode (depth : Nat) (node : Node) :
    (PolicyRule.ofNode depth node).Refines (ofNode depth node) Forms := by
  have grants (node : Node) : (Node.fields (PolicyRule.fieldsOf (depth - 1)) node).Refines
      (Node.fields (Datum.ofNode (depth - 1)) node)
      (Fields.Related fun datum list => FieldList.ofDatum? datum = some list) :=
    Node.refines_fields (fun entry => Reading.refines_ofOption (Datum.ofNode (depth - 1) entry)
      FieldList.ofDatum?) node
  refine (Reading.refines_self _).bind ?_
  rintro record _ rfl
  refine (Node.refines_part record "roles" rfl fun _ => Reading.refines_self _).bind ?_
  rintro roles _ rfl
  refine (Node.refines_part record "can" .nil grants).bind fun can _ granted => ?_
  refine (Node.refines_part record "cannot" .nil grants).bind fun cannot _ withdrawn => ?_
  refine (Node.refines_part record "scope" .none
    (Node.refines_optional fun part => Reading.refines_ofOption (Datum.ofNode depth part)
      ScopeSpec.ofDatum?)).bind fun scope _ confined => ?_
  exact Reading.refines_pure ⟨rfl, granted, withdrawn, confined⟩

end RawRule

namespace RawPolicy

/-- Read the rules of a table as they stand. -/
def rulesOf (depth : Nat) (node : Node) : Reading (List RawRule) := do
  match ← node.target with
  | .sequence items => items.mapM (RawRule.ofNode (depth - 2))
  | .mapping entries => return [← RawRule.ofNode (depth - 1) (.mapping entries)]
  | _ => failure

/-- Read a policy as it stands. -/
def ofNode (node : Node) : Reading RawPolicy := do
  let record ← node.record ["tables"]
  let tables ← Node.part record "tables" [] (Node.fields (rulesOf (maxDepth - 2)))
  return { tables }

/-- Read a policy document as it stands. -/
def ofText? (text : String) : Option RawPolicy :=
  (Document.ofText? text).bind (·.read? ofNode)

/-- The rules of a table as they stand; none if the policy has no entry for it. -/
def tableRules (raw : RawPolicy) (table : Table) : List RawRule :=
  (raw.tables.get? table.name).getD []

/-- The rules of a table are read side by side. -/
theorem refines_rulesOf (depth : Nat) (node : Node) :
    (Policy.rulesOf depth node).Refines (rulesOf depth node) (List.Forall₂ RawRule.Forms) := by
  refine (Reading.refines_self _).bind ?_
  rintro target _ rfl
  cases target with
  | sequence items => exact Reading.refines_mapM fun item => RawRule.refines_ofNode _ item
  | mapping entries =>
    exact (RawRule.refines_ofNode _ _).bind fun raw rule forms =>
      Reading.refines_pure (.cons forms .nil)
  | scalar => exact fun _ _ _ _ never => nomatch never
  | «alias» => exact fun _ _ _ _ never => nomatch never

/-- Policies are read side by side. -/
theorem refines_ofNode (node : Node) :
    (Policy.ofNode node).Refines (ofNode node)
      fun raw policy => Fields.Related (List.Forall₂ RawRule.Forms) raw.tables policy.tables := by
  refine (Reading.refines_self _).bind ?_
  rintro record _ rfl
  exact (Node.refines_part record "tables" .nil
    (Node.refines_fields (refines_rulesOf _))).bind fun raw rules forms =>
      Reading.refines_pure forms

end RawPolicy

/-- **A policy that was read** puts into forms what stands in the document, rule by rule. -/
theorem Policy.raw_of_ofText {text : String} {policy : Policy}
    (parsed : ofText text = .ok policy) :
    ∃ raw, RawPolicy.ofText? text = some raw ∧
      ∀ table, List.Forall₂ RawRule.Forms (raw.tableRules table) (policy.tableRules table) := by
  rw [ofText] at parsed
  split at parsed
  · next found =>
    cases parsed
    obtain ⟨document, isDocument, read⟩ := Option.bind_eq_some_iff.mp found
    obtain ⟨⟨_, left⟩, returned, rfl⟩ := Option.map_eq_some_iff.mp read
    obtain ⟨raw, alike, tables⟩ := RawPolicy.refines_ofNode document.root document 0 _ left returned
    refine ⟨raw, ?_, fun table => ?_⟩
    · rw [RawPolicy.ofText?, isDocument]
      exact Option.map_eq_some_iff.mpr ⟨(raw, left), alike, rfl⟩
    · exact tables.getD table.name .nil
  · cases parsed

end Warden
