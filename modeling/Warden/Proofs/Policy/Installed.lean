import Warden.Proofs.Policy.Checking
/-! # Installed policies
Installing a policy **succeeds** iff all its rules for the model's table check
(`Policy.install_succeeds_iff`), and then registers one rule of the model for each. Such a rule
*amounts to* what the policy's rule says (`CheckedRule.amountsTo_script`): for a subject that it
addresses to the calls of its entries and to the narrowing of its scope, for anyone else to nothing.
The permissions of a subject are therefore filled from what the policy says to the subject, and from
nothing else (`Policy.evaluate_of_install`). -/

namespace Warden

/-! ## Rules that check -/

/-- A rule **checks** for a table if the table has the columns of its scope and all its entries
check. -/
structure PolicyRule.Checks (table : Table) (rule : PolicyRule) : Prop where
  /-- The columns of the scope are fields of the table. -/
  scope : ∀ column ∈ (rule.scope.map ScopeSpec.columns).getD [], table.hasField column = true
  /-- The fields of every entry can be applied. -/
  entries : ∀ entry ∈ rule.entries, entry.Checks table

namespace Grant

variable {table : Table} {given : List (String × FieldList)} {grants : List (Action × Grant)}

/-- The checked fields of a name are those for its action. -/
def Checked (table : Table) (given : String × FieldList) (grant : Action × Grant) : Prop :=
  grant.1 = Action.ofName given.1 ∧ ofFields table grant.1 given.2 = .ok grant.2

/-- Actions check one by one. -/
theorem ofActions_eq_ok_iff :
    ofActions table given = .ok grants ↔ List.Forall₂ (Checked table) given grants := by
  induction given generalizing grants with
  | nil =>
    rw [ofActions, List.forall₂_nil_left_iff]
    exact ⟨fun same => by cases same; rfl, fun same => by rw [same]⟩
  | cons first rest ih =>
    obtain ⟨name, list⟩ := first
    simp only [ofActions, bind_eq_ok_iff, List.forall₂_cons_left_iff, ih]
    constructor
    · rintro ⟨grant, checked, others, checkedRest, same⟩
      cases same
      exact ⟨(_, grant), others, ⟨rfl, checked⟩, checkedRest, rfl⟩
    · rintro ⟨⟨action, grant⟩, others, ⟨rfl, checked⟩, checkedRest, rfl⟩
      exact ⟨grant, checked, others, checkedRest, rfl⟩

/-- The fields of actions check iff the entries that they give do, whether these grant or
withdraw. -/
theorem exists_ofActions_iff (grants : Bool) :
    (∃ checked, ofActions table given = .ok checked) ↔
      ∀ entry ∈ given.map fun given => PolicyEntry.mk grants given.1 given.2,
        entry.Checks table := by
  simp only [ofActions_eq_ok_iff, exists_forall₂_iff, List.forall_mem_map]
  refine forall₂_congr fun fields _ => ?_
  constructor
  · rintro ⟨⟨action, grant⟩, rfl, checked⟩
    exact ⟨grant, checked⟩
  · rintro ⟨grant, checked⟩
    exact ⟨(_, grant), rfl, checked⟩

variable [Cel.Evaluation] {S Q : Type} (auth : Value)

/-- The script of a checked entry that grants, or of one that withdraws. -/
def entryScript (grants : Bool) (grant : Action × Grant) : Script S Q :=
  if grants then grantScript auth grant else withdrawScript auth grant

/-- The script of a checked entry amounts to the calls of the entry. -/
theorem amountsTo_entryScript (grants : Bool) {fields : String × FieldList}
    {grant : Action × Grant} (checked : Checked table fields grant) :
    (entryScript auth grants grant : Script S Q).AmountsTo
      (PolicyEntry.calls table auth ⟨grants, fields.1, fields.2⟩) [] := by
  obtain ⟨action, grant⟩ := grant
  obtain ⟨rfl, checked⟩ := checked
  have calls : PolicyEntry.calls table auth ⟨grants, fields.1, fields.2⟩ =
      PolicyEntry.callsOf auth ⟨grants, fields.1, fields.2⟩ grant :=
    PolicyEntry.calls_of_checked checked
  rw [calls, PolicyEntry.callsOf]
  unfold entryScript grantScript withdrawScript
  cases grant.specs? auth with
  | none =>
    rw [ite_self]
    exact Script.amountsTo_done
  | some specs =>
    cases grants with
    | true => exact Script.amountsTo_grant _ specs
    | false => exact Script.amountsTo_withdraw _ specs

/-- Checked actions in order amount to the calls of their entries. -/
theorem amountsTo_actions (grants : Bool) {given : List (String × FieldList)}
    {actions : List (Action × Grant)} (checked : ofActions table given = .ok actions) :
    (Script.sequence (actions.map (entryScript auth grants)) : Script S Q).AmountsTo
      ((given.map fun fields => ⟨grants, fields.1, fields.2⟩).flatMap
        (PolicyEntry.calls table auth)) [] := by
  have pairwise : List.Forall₂ (fun (fields : String × FieldList) (script : Script S Q) =>
      script.AmountsTo (PolicyEntry.calls table auth ⟨grants, fields.1, fields.2⟩) [])
      given (actions.map (entryScript auth grants)) :=
    List.forall₂_map_right_iff.mpr
      ((ofActions_eq_ok_iff.mp checked).imp fun _ _ => amountsTo_entryScript auth grants)
  have unscoped : (given.flatMap fun _ => []) = ([] : List (Q → Q)) :=
    List.flatMap_eq_nil_iff.mpr fun _ _ => rfl
  have total := Script.amountsTo_sequence pairwise
  rwa [unscoped, ← List.flatMap_map] at total

end Grant

namespace CheckedRule

variable {table : Table} {rule : PolicyRule} {checked : CheckedRule}

/-- Checking a rule checks its scope, its grants and its withdrawals. -/
theorem ofRule_eq_ok_iff :
    ofRule table rule = .ok checked ↔
      (∀ column ∈ (rule.scope.map ScopeSpec.columns).getD [], table.hasField column = true) ∧
        Grant.ofActions table rule.can = .ok checked.can ∧
        Grant.ofActions table rule.cannot = .ok checked.cannot ∧
        checked.roles = rule.roles ∧ checked.scope = rule.scope := by
  obtain ⟨roles, can, cannot, scope⟩ := checked
  simp only [ofRule, bind_eq_ok_iff, liftM_eq_ok_iff, ← Table.requireAll_eq_ok_iff]
  constructor
  · rintro ⟨_, columns, grants, granted, withdrawals, withdrawn, same⟩
    cases same
    exact ⟨columns, granted, withdrawn, rfl, rfl⟩
  · rintro ⟨columns, granted, withdrawn, rfl, rfl⟩
    exact ⟨(), columns, can, granted, cannot, withdrawn, rfl⟩

/-- There is a checked rule iff the rule checks. -/
theorem exists_ofRule_iff : (∃ checked, ofRule table rule = .ok checked) ↔ rule.Checks table := by
  constructor
  · rintro ⟨checked, ok⟩
    obtain ⟨columns, granted, withdrawn, -, -⟩ := ofRule_eq_ok_iff.mp ok
    refine ⟨columns, List.forall_mem_append.mpr ⟨?_, ?_⟩⟩
    · exact (Grant.exists_ofActions_iff true).mp ⟨_, granted⟩
    · exact (Grant.exists_ofActions_iff false).mp ⟨_, withdrawn⟩
  · rintro ⟨columns, entries⟩
    obtain ⟨granting, withdrawing⟩ := List.forall_mem_append.mp entries
    obtain ⟨can, granted⟩ := (Grant.exists_ofActions_iff true).mpr granting
    obtain ⟨cannot, withdrawn⟩ := (Grant.exists_ofActions_iff false).mpr withdrawing
    exact ⟨⟨rule.roles, can, cannot, rule.scope⟩,
      ofRule_eq_ok_iff.mpr ⟨columns, granted, withdrawn, rfl, rfl⟩⟩

end CheckedRule

/-! ## What a rule says -/

namespace PolicyRule

variable [Cel.Evaluation] {S Q : Type} [Query Q] [Principal S]

/-- The calls that a rule comes to for a subject. -/
def calls (table : Table) (rule : PolicyRule) (subject : S) : List Call :=
  if rule.Addresses subject then
    rule.entries.flatMap (PolicyEntry.calls table (Principal.authValue subject))
  else []

/-- The narrowings that a rule comes to for a subject. -/
def narrowings (rule : PolicyRule) (subject : S) : List (Q → Q) :=
  if rule.Addresses subject then (rule.scope.map fun spec => spec.narrow subject).toList else []

end PolicyRule

/-- The narrowing of a scope amounts to itself. -/
theorem ScopeSpec.amountsTo_narrow {S Q : Type} [Query Q] [Principal S] (scope : Option ScopeSpec)
    (subject : S) :
    (Script.sequence (scope.map fun spec => .narrow (spec.narrow subject)).toList :
      Script S Q).AmountsTo [] (scope.map fun spec => spec.narrow subject).toList := by
  cases scope with
  | none => exact Script.amountsTo_done
  | some spec => exact (Script.amountsTo_narrow _).andThen Script.amountsTo_done

/-- A checked rule **amounts to** what the rule says to the subject. -/
theorem CheckedRule.amountsTo_script [Cel.Evaluation] {S Q : Type} [Query Q] [Principal S]
    {table : Table} {rule : PolicyRule} {checked : CheckedRule}
    (ok : ofRule table rule = .ok checked) (subject : S) :
    (checked.script subject : Script S Q).AmountsTo (rule.calls table subject)
      (rule.narrowings subject) := by
  obtain ⟨-, granted, withdrawn, roles, scope⟩ := ofRule_eq_ok_iff.mp ok
  rw [script, PolicyRule.calls, PolicyRule.narrowings, roles, scope]
  by_cases addressed : rule.Addresses subject
  · -- Grants come first, then withdrawals, and the scope comes last.
    let auth := Principal.authValue subject
    have granting := Grant.amountsTo_actions (S := S) (Q := Q) auth true granted
    have withdrawing := Grant.amountsTo_actions (S := S) (Q := Q) auth false withdrawn
    have all := (granting.andThen withdrawing).andThen
      (ScopeSpec.amountsTo_narrow rule.scope subject)
    rw [if_pos ((rule.anyMetBy_iff subject).mpr addressed), if_pos addressed, if_pos addressed,
      Script.sequence_append, Script.sequence_append, PolicyRule.entries, List.flatMap_append]
    rwa [List.append_nil] at all
  · rw [if_neg addressed, if_neg addressed,
      if_neg fun met => addressed ((rule.anyMetBy_iff subject).mp met)]
    exact Script.amountsTo_done

namespace Policy

variable {S Q : Type} [Query Q] [Principal S] {policy : Policy} {site installed : Site S Q}
  {model : Model} {count : Nat}

/-! ## Installing -/

/-- The scopes of the rules that address a subject. -/
def scopesFor (policy : Policy) (table : Table) (subject : S) : List ScopeSpec :=
  (policy.rulesFor table subject).filterMap PolicyRule.scope

/-- The scopes of the rules that address a subject come to the narrowings of these rules. -/
theorem narrowings_scopesFor (policy : Policy) (table : Table) (subject : S) :
    (policy.tableRules table).flatMap (fun rule => rule.narrowings subject) =
      (policy.scopesFor table subject).map fun spec => (spec.narrow subject : Q → Q) := by
  rw [scopesFor, rulesFor]
  induction policy.tableRules table with
  | nil => rfl
  | cons rule rest ih =>
    rw [List.flatMap_cons, ih, List.filter_cons, PolicyRule.narrowings]
    by_cases addressed : rule.Addresses subject
    · rw [if_pos addressed, if_pos (decide_eq_true addressed), List.filterMap_cons]
      cases rule.scope <;> rfl
    · rw [if_neg addressed, if_neg (by simpa using addressed), List.nil_append]

/-- Checking a policy checks the rules of the table one by one. -/
theorem checked_eq_ok_iff {table : Table} {rules : List CheckedRule} :
    policy.checked table = .ok rules ↔
      List.Forall₂ (fun rule checked => CheckedRule.ofRule table rule = .ok checked)
        (policy.tableRules table) rules :=
  mapM_eq_ok_iff

variable [Cel.Evaluation]

/-- The entries of the rules that address a subject come to the calls of these rules. -/
theorem calls_entriesFor (policy : Policy) (table : Table) (subject : S) :
    (policy.tableRules table).flatMap (fun rule => rule.calls table subject) =
      (policy.entriesFor table subject).flatMap
        (PolicyEntry.calls table (Principal.authValue subject)) := by
  rw [entriesFor, rulesFor, List.flatMap_assoc]
  induction policy.tableRules table with
  | nil => rfl
  | cons rule rest ih =>
    rw [List.flatMap_cons, ih, List.filter_cons, PolicyRule.calls]
    by_cases addressed : rule.Addresses subject
    · rw [if_pos addressed, if_pos (decide_eq_true addressed), List.flatMap_cons]
    · rw [if_neg addressed, if_neg (by simpa using addressed), List.nil_append]

/-- A policy that is installed was checked, and its checked rules are registered in order. -/
theorem install_eq_ok_iff :
    policy.install site model = .ok (installed, count) ↔
      ∃ rules, policy.checked model.table = .ok rules ∧
        installed = site.protectAll model (rules.map CheckedRule.toRule) ∧
        count = rules.length := by
  simp only [install, bind_eq_ok_iff, Site.protectAll, List.foldl_map]
  refine exists_congr fun rules => and_congr_right fun _ => ?_
  constructor
  · intro same
    cases same
    exact ⟨rfl, rfl⟩
  · rintro ⟨rfl, rfl⟩
    rfl

/-- **Installing succeeds** iff all rules of the table check. -/
theorem install_succeeds_iff :
    (∃ result, policy.install site model = .ok result) ↔
      ∀ rule ∈ policy.tableRules model.table, rule.Checks model.table := by
  simp only [← CheckedRule.exists_ofRule_iff, ← exists_forall₂_iff, ← checked_eq_ok_iff]
  constructor
  · rintro ⟨⟨installed, count⟩, installs⟩
    obtain ⟨rules, checked, -⟩ := install_eq_ok_iff.mp installs
    exact ⟨rules, checked⟩
  · rintro ⟨rules, checked⟩
    exact ⟨_, install_eq_ok_iff.mpr ⟨rules, checked, rfl, rfl⟩⟩

/-- Every rule of the table is counted. -/
theorem count_of_install (installs : policy.install site model = .ok (installed, count)) :
    count = (policy.tableRules model.table).length := by
  obtain ⟨rules, checked, -, number⟩ := install_eq_ok_iff.mp installs
  rw [number, (checked_eq_ok_iff.mp checked).length_eq]

/-- A policy whose rules check can be installed. -/
theorem exists_install_of_checks
    (checks : ∀ rule ∈ policy.tableRules model.table, rule.Checks model.table) :
    ∃ installed, policy.install site model =
      .ok (installed, (policy.tableRules model.table).length) := by
  have possible : ∃ result, policy.install site model = .ok result :=
    install_succeeds_iff.mpr checks
  obtain ⟨⟨installed, count⟩, installs⟩ := possible
  exact ⟨installed, count_of_install installs ▸ installs⟩

/-- Settings and rows stay as they are. -/
theorem store_of_install (known : model.rules < site.book.sets.length)
    (installs : policy.install site model = .ok (installed, count)) :
    installed.config = site.config ∧ installed.store = site.store := by
  obtain ⟨rules, -, rfl, -⟩ := install_eq_ok_iff.mp installs
  exact (Site.protectAll_eq known _).2

/-- **What is evaluated** under a policy alone: the permissions of a subject are filled with the
calls of the entries and the narrowings of the scopes that the policy has for the subject. -/
theorem evaluate_of_install (known : model.rules < site.book.sets.length)
    (unruled : site.book.rules model.rules = [])
    (installs : policy.install site model = .ok (installed, count)) (subject : S)
    (entry : Option Row) (trust : Trust) :
    (installed.evaluate model subject entry).startFrom trust =
      (.ok ((model.noPermissions site.config).filled
        ((policy.entriesFor model.table subject).flatMap
          (PolicyEntry.calls model.table (Principal.authValue subject)))
        ((policy.scopesFor model.table subject).map fun spec => spec.narrow subject)), trust) := by
  obtain ⟨rules, checked, rfl, -⟩ := install_eq_ok_iff.mp installs
  obtain ⟨book, config, -⟩ := Site.protectAll_eq known (rules.map CheckedRule.toRule)
  -- There were no rules before, so the registered ones are all that will be run.
  rw [unruled, List.nil_append] at book
  have each : List.Forall₂ (fun (policyRule : PolicyRule) (rule : Rule S Q) =>
      (rule.script subject entry).AmountsTo (policyRule.calls model.table subject)
        (policyRule.narrowings subject))
      (policy.tableRules model.table) (rules.map CheckedRule.toRule) :=
    List.forall₂_map_right_iff.mpr ((checked_eq_ok_iff.mp checked).imp
      fun _ _ ok => CheckedRule.amountsTo_script ok subject)
  rw [← book] at each
  rw [Site.evaluate_of_amounts each, config, calls_entriesFor, narrowings_scopesFor]

end Policy

end Warden
