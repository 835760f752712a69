import Mathlib
import Warden.Policy.Document
import Warden.Proofs.Yaml.Written
import Warden.Value.Json
/-! # Reading written policies
A policy is written table by table, the rules of a table as a record with one part, `rules`. Read
back, that record is taken for a **single rule**, of which no part is known; what it says is passed
over. Every table thus comes back with one rule that says nothing (`Policy.reread_of_sorted`), so
that of the policies of documents only those with just such rules survive. -/

namespace Warden

open Yaml

/-- Records without known parts are read as a rule that says nothing. -/
theorem PolicyRule.ofNode_of_unknown (depth : Nat) {node : Node}
    (unknown : node.record parts = pure []) : ofNode depth node = pure {} := by
  rw [ofNode, unknown, pure_bind]
  rfl

namespace Policy

/-- The written rules of a table. -/
def writtenRules (rules : List PolicyRule) : Value :=
  .object [("rules", .array (rules.map PolicyRule.toValue))]

/-- What is made of a policy after it was written. -/
def reread (policy : Policy) : Option Policy :=
  (Document.ofValue policy.toValue).read? ofNode

/-- The written rules of a table are read as one rule that says nothing. -/
theorem rulesOf_writtenRules (depth : Nat) (rules : List PolicyRule) :
    rulesOf depth (.ofValue (writtenRules rules)) = pure [{}] := by
  -- `rules` is no part of a rule, so that what stands there is never looked at.
  have unknown : (Node.ofValue (writtenRules rules)).record PolicyRule.parts = pure [] := by
    rw [writtenRules, Node.record_ofValue _ (List.pairwise_singleton _ _)]
    rfl
  rw [writtenRules, Node.ofValue] at unknown
  rw [rulesOf, writtenRules, Node.ofValue, Node.target_mapping, pure_bind]
  dsimp only
  rw [PolicyRule.ofNode_of_unknown _ unknown, pure_bind]

/-- The tables of a policy that was read are sorted. -/
theorem sorted_of_ofText {text : String} {policy : Policy} (parsed : ofText text = .ok policy) :
    policy.tables.Sorted := by
  have ensures (node : Node) : (ofNode node).Ensures fun policy => policy.tables.Sorted := by
    refine (Reading.ensures_true _).bind fun record _ => ?_
    have tables : (Node.part record "tables" [] (Node.fields (rulesOf (maxDepth - 2)))).Ensures
        Fields.Sorted := by
      rw [Node.part]
      split
      · exact Reading.ensures_pure Fields.sorted_nil
      · exact (Reading.ensures_true _).bind fun entries _ =>
          (Reading.ensures_true _).bind fun pairs _ =>
            Reading.ensures_pure (Fields.sorted_ofList pairs)
    exact tables.bind fun tables sorted => Reading.ensures_pure sorted
  rw [ofText] at parsed
  split at parsed
  · next found =>
    cases parsed
    obtain ⟨document, -, read⟩ := Option.bind_eq_some_iff.mp found
    have kept := Document.of_read? (ensures document.root) read
    exact kept
  · cases parsed

/-- Every table of a written policy comes back with one rule that says nothing. -/
theorem reread_of_sorted {policy : Policy} (sorted : policy.tables.Sorted) :
    policy.reread = some { tables := policy.tables.mapValues fun _ => [{}] } := by
  refine Document.read?_of_pure ?_
  have tables : Node.fields (rulesOf (maxDepth - 2))
      (.ofValue (.object (policy.tables.mapValues writtenRules))) =
        pure (policy.tables.mapValues fun _ => [{}]) := by
    have each : ∀ entry ∈ policy.tables,
        rulesOf (maxDepth - 2) (.ofValue (writtenRules entry.2)) = pure [{}] :=
      fun entry _ => rulesOf_writtenRules _ entry.2
    rw [Node.fields_ofValue (fun _ => [{}]) each, Fields.ofList_of_sorted (Fields.sorted_mapValues _ sorted)]
  show ofNode (.ofValue (.object [("tables", .object (policy.tables.mapValues writtenRules))])) = _
  rw [ofNode, Node.record_ofValue _ (List.pairwise_singleton _ _), pure_bind]
  show (Node.fields _ _ >>= fun tables => _) = _
  rw [tables, pure_bind]

/-- **Writing a policy loses its rules.** A policy that was read from a document comes back from
writing with the same tables, each with one rule that says nothing. It comes back as it was iff it
had no other rules than these. -/
theorem reread_eq {text : String} {policy : Policy} (parsed : ofText text = .ok policy) :
    ∃ again, policy.reread = some again ∧
      again.tables.keys = policy.tables.keys ∧
      (∀ table, again.rules? table = (policy.rules? table).map fun _ => [{}]) ∧
      (again = policy ↔ ∀ entry ∈ policy.tables, entry.2 = [{}]) := by
  have sorted : policy.tables.Sorted := sorted_of_ofText parsed
  let lost : List PolicyRule → List PolicyRule := fun _ => [{}]
  refine ⟨_, reread_of_sorted sorted, ?_, fun table => ?_, ?_⟩
  · exact Fields.keys_mapValues lost policy.tables
  · exact Fields.get?_mapValues lost policy.tables table
  · rw [← Fields.mapValues_const_eq_self]
    exact ⟨fun same => congrArg tables same, fun same => by rw [same]⟩

/-- A policy without any rules for its table comes back with one. -/
theorem reread_eq_without_rules :
    ofText "{tables: {notes: []}}" = .ok { tables := [("notes", [])] } ∧
      ∃ again, ({ tables := [("notes", [])] } : Policy).reread = some again ∧
        again.rules? "notes" = some [{}] := by
  have parsed : ofText "{tables: {notes: []}}" = .ok { tables := [("notes", [])] } := by cbv
  obtain ⟨again, reread, -, rules, -⟩ := reread_eq parsed
  exact ⟨parsed, again, reread, rules "notes"⟩

set_option maxRecDepth 4096 in
/-- A policy with a rule that grants reading comes back without it, also by way of the text that is
written. -/
theorem reread_loses_rules :
    let policy : Policy := { tables := [("notes", [{ can := [("read", .flag true)] }])] }
    ofText "{tables: {notes: {can: {read: true}}}}" = .ok policy ∧
      policy.reread = some { tables := [("notes", [{}])] } ∧
      policy.reread ≠ some policy ∧
      ofText policy.toValue.json = .ok { tables := [("notes", [{}])] } := by
  intro policy
  have parsed : ofText "{tables: {notes: {can: {read: true}}}}" = .ok policy := by cbv
  have reread : policy.reread = some { tables := [("notes", [{}])] } :=
    reread_of_sorted (sorted_of_ofText parsed)
  refine ⟨parsed, reread, ?_, by cbv⟩
  rw [reread]
  intro same
  have kept : [("notes", [({} : PolicyRule)])] = policy.tables :=
    congrArg tables (Option.some.inj same)
  simp [policy] at kept

end Policy

end Warden
