import Mathlib
import Warden.Proofs.Policy.Installed
/-! # Subjects that may be absent
Where a subject may be absent, one that is there is **wrapped**, and a policy asks the wrapped
subject. It is told the same identity, the same roles and the same value for expressions as by the
subject itself. Only whether it is authenticated the subject is not asked: a wrapped subject counts
as authenticated iff it has an identity (`Principal.ByIdentity` says that this is its own answer,
too).

So a rule makes the same of both, if it addresses both (`Policy.evaluate_wrapped`), and it does
unless it asks for an authenticated subject and the two answers differ
(`PolicyRule.addresses_some_iff_of_byIdentity`). Then policies do tell them apart
(`Policy.wraps_iff_byIdentity`). -/

namespace Warden

variable {S Q : Type} [Principal S]

/-! ## What a wrapped subject answers -/

namespace Principal

@[simp] theorem sub_some (subject : S) : sub (some subject) = sub subject := rfl

@[simp] theorem hasRole_some (subject : S) (role : String) :
    hasRole (some subject) role = hasRole subject role := rfl

@[simp] theorem authValue_some (subject : S) : authValue (some subject) = authValue subject := rfl

/-- Wrapped, a subject counts as authenticated iff it has an identity. -/
@[simp] theorem isAuthenticated_some (subject : S) :
    isAuthenticated (some subject) = (sub subject).isSome := rfl

/-- A subject is authenticated **by identity** if it counts as authenticated iff it has an
identity. -/
def ByIdentity (subject : S) : Prop := isAuthenticated subject = (sub subject).isSome

end Principal

open Principal (ByIdentity)

/-! ## Rules -/

namespace PolicyRule

variable {rule : PolicyRule} {subject : S}

/-- A rule addresses a wrapped subject if it asks for nothing, or for something that the subject is;
it is authenticated if it has an identity. -/
theorem addresses_some_iff :
    rule.Addresses (some subject) ↔ rule.roles = [] ∨ .anyone ∈ rule.roles ∨
      (.authenticated ∈ rule.roles ∧ (Principal.sub subject).isSome = true) ∨
      ∃ name, .role name ∈ rule.roles ∧ Principal.hasRole subject name = true := Iff.rfl

/-- A rule that asks for no authenticated subject addresses a subject wrapped or not. -/
theorem addresses_some_iff_of_not_mem (unasked : .authenticated ∉ rule.roles) :
    rule.Addresses (some subject) ↔ rule.Addresses subject := by
  rw [addresses_some_iff, Addresses]
  simp only [unasked, false_and]

/-- Every rule addresses a subject that is authenticated by identity wrapped or not. -/
theorem addresses_some_iff_of_byIdentity (byIdentity : ByIdentity subject) :
    rule.Addresses (some subject) ↔ rule.Addresses subject := by
  rw [addresses_some_iff, Addresses, byIdentity]

end PolicyRule

/-- A scope narrows queries for a wrapped subject as for the subject. -/
theorem ScopeSpec.narrow_some [Query Q] (spec : ScopeSpec) (subject : S) :
    (spec.narrow (some subject) : Q → Q) = spec.narrow subject := by
  cases spec <;> rfl

/-! ## Policies -/

namespace Policy

section Wrapping

variable [Cel.Evaluation] [Query Q] {policy : Policy} {model : Model}

/-- A policy **governs** a model if the rules of the model are those of the policy and no
others. -/
def Governs {S : Type} [Principal S] (policy : Policy) (site : Site S Q) (model : Model) : Prop :=
  ∃ before count, model.rules < before.book.sets.length ∧ before.book.rules model.rules = [] ∧
    policy.install before model = .ok (site, count)

/-- What is evaluated of a model that a policy governs. -/
theorem Governs.evaluate {site : Site S Q} (governs : policy.Governs site model) (subject : S)
    (entry : Option Row) (trust : Trust) :
    (site.evaluate model subject entry).startFrom trust =
      (.ok ((model.noPermissions site.config).filled
        ((policy.entriesFor model.table subject).flatMap
          (PolicyEntry.calls model.table (Principal.authValue subject)))
        ((policy.scopesFor model.table subject).map fun spec => spec.narrow subject)), trust) := by
  obtain ⟨before, count, known, unruled, installs⟩ := governs
  rw [(store_of_install known installs).1]
  exact evaluate_of_install known unruled installs subject entry trust

/-- A policy whose rules check governs a model of a site of one's own. -/
theorem exists_governs (S Q : Type) [Principal S] [Query Q] {policy : Policy} {table : Table}
    (checks : ∀ rule ∈ policy.tableRules table, rule.Checks table) :
    ∃ site : Site S Q, policy.Governs site { table, rules := 0 } ∧ site.config = {} := by
  let before : Site S Q := { book := RuleBook.empty.create.1 }
  let model : Model := { table, rules := 0 }
  have known : model.rules < before.book.sets.length := Nat.zero_lt_one
  have unruled : before.book.rules model.rules = [] := RuleBook.rules_of_root rfl
  obtain ⟨site, installs⟩ : ∃ site, policy.install before model =
      .ok (site, (policy.tableRules model.table).length) := exists_install_of_checks checks
  exact ⟨site, ⟨before, _, known, unruled, installs⟩, (store_of_install known installs).1⟩

/-- **What the same rules make** of a subject is the same if it is wrapped. -/
theorem evaluate_wrapped {site : Site S Q} {wrapped : Site (Option S) Q}
    (governs : policy.Governs site model) (governsWrapped : policy.Governs wrapped model)
    (config : wrapped.config = site.config) {subject : S}
    (same : ∀ rule ∈ policy.tableRules model.table,
      (rule.Addresses (some subject) ↔ rule.Addresses subject))
    (entry : Option Row) (trust : Trust) :
    (wrapped.evaluate model (some subject) entry).startFrom trust =
      (site.evaluate model subject entry).startFrom trust := by
  have rules : policy.rulesFor model.table (some subject) = policy.rulesFor model.table subject :=
    List.filter_congr fun rule listed => decide_eq_decide.mpr (same rule listed)
  have narrow : (fun spec : ScopeSpec => (spec.narrow (some subject) : Q → Q)) =
      fun spec => spec.narrow subject := funext fun spec => spec.narrow_some subject
  rw [governs.evaluate, governsWrapped.evaluate, config, entriesFor, entriesFor, scopesFor,
    scopesFor, rules, narrow, Principal.authValue_some]

/-! ## Subjects with an answer of their own -/

/-- A rule that lets authenticated subjects delete records. -/
def authenticatedDelete : PolicyRule where
  roles := [.authenticated]
  can := [("destroy", .flag true)]

omit [Cel.Evaluation] in
/-- The rule checks for every table. -/
theorem checks_authenticatedDelete (table : Table) : authenticatedDelete.Checks table where
  scope := nofun
  entries := by
    have action : Action.ofName "destroy" = .destroy := by cbv
    exact List.forall_mem_singleton.mpr (.of_action action (show _ = Except.ok .flag from rfl))

/-- The rule comes to one call. -/
theorem calls_authenticatedDelete (table : Table) (auth : Value) :
    authenticatedDelete.entries.flatMap (PolicyEntry.calls table auth) = [.can .destroy []] := by
  let entry : PolicyEntry := ⟨true, "destroy", .flag true⟩
  have action : entry.action = .destroy := by cbv
  show entry.calls table auth ++ [] = _
  rw [PolicyEntry.calls_of_isAll rfl, ← action]
  rfl

/-- It governs the notes of two sites with the same settings, one for subjects and one for subjects
that may be absent. -/
theorem exists_governs_notes (S Q : Type) [Principal S] [Query Q] :
    let policy : Policy := { tables := [("notes", [authenticatedDelete])] }
    let notes : Model := { table := { name := "notes" }, rules := 0 }
    ∃ (site : Site S Q) (wrapped : Site (Option S) Q), policy.Governs site notes ∧
      policy.Governs wrapped notes ∧ wrapped.config = site.config := by
  intro policy notes
  have checks : ∀ rule ∈ policy.tableRules notes.table, rule.Checks notes.table :=
    List.forall_mem_singleton.mpr (checks_authenticatedDelete notes.table)
  obtain ⟨site, governs, config⟩ := exists_governs S Q checks
  obtain ⟨wrapped, governsWrapped, configWrapped⟩ := exists_governs (Option S) Q checks
  exact ⟨site, wrapped, governs, governsWrapped, configWrapped.trans config.symm⟩

/-- Under a policy with this rule alone the authenticated subjects may delete records. -/
theorem destroyable_authenticatedDelete {site : Site S Q}
    (rules : policy.tableRules model.table = [authenticatedDelete])
    (governs : policy.Governs site model) (subject : S) :
    ∃ perms, (site.evaluate model subject none).startFrom {} = (.ok perms, {}) ∧
      perms.destroyable = Principal.isAuthenticated subject := by
  have addressed : authenticatedDelete.Addresses subject ↔
      Principal.isAuthenticated subject = true := by
    simp [PolicyRule.Addresses, authenticatedDelete]
  refine ⟨_, governs.evaluate subject none {}, ?_⟩
  rw [entriesFor, rulesFor, rules]
  cases authenticated : Principal.isAuthenticated subject with
  | true =>
    rw [List.filter_cons, if_pos (decide_eq_true (addressed.mpr authenticated)), List.filter_nil,
      List.flatMap_singleton, calls_authenticatedDelete]
    rfl
  | false =>
    rw [List.filter_cons, if_neg (by simp [addressed, authenticated]), List.filter_nil]
    rfl

/-- **Wrapping a subject goes unnoticed** by all policies iff the subject is authenticated by
identity. A rule addresses it wrapped or not unless it asks for an authenticated subject and this
one is not so by identity; and where all rules of a table address it wrapped or not, evaluating
makes the same permissions of it, with the same fields, constraints, scopes and permission to
delete. -/
theorem wraps_iff_byIdentity (Q : Type) [Query Q] (subject : S) :
    (∀ rule : PolicyRule, (rule.Addresses (some subject) ↔ rule.Addresses subject) ∨
      (.authenticated ∈ rule.roles ∧ ¬ ByIdentity subject)) ∧
    (∀ (policy : Policy) (site : Site S Q) (wrapped : Site (Option S) Q) (model : Model),
      policy.Governs site model → policy.Governs wrapped model → wrapped.config = site.config →
      (∀ rule ∈ policy.tableRules model.table,
        (rule.Addresses (some subject) ↔ rule.Addresses subject)) →
      ∀ entry trust, (wrapped.evaluate model (some subject) entry).startFrom trust =
        (site.evaluate model subject entry).startFrom trust) ∧
    ((∀ (policy : Policy) (site : Site S Q) (wrapped : Site (Option S) Q) (model : Model),
      policy.Governs site model → policy.Governs wrapped model → wrapped.config = site.config →
      ∀ entry trust, (wrapped.evaluate model (some subject) entry).startFrom trust =
        (site.evaluate model subject entry).startFrom trust) ↔ ByIdentity subject) := by
  refine ⟨fun rule => ?_, fun policy site wrapped model governs governsWrapped config same =>
    evaluate_wrapped governs governsWrapped config same, fun unnoticed => ?_, fun byIdentity => ?_⟩
  · by_cases byIdentity : ByIdentity subject
    · exact .inl (PolicyRule.addresses_some_iff_of_byIdentity byIdentity)
    · by_cases asked : .authenticated ∈ rule.roles
      · exact .inr ⟨asked, byIdentity⟩
      · exact .inl (PolicyRule.addresses_some_iff_of_not_mem asked)
  · -- A policy for authenticated subjects tells how the subject answers, and how it does wrapped.
    obtain ⟨site, wrapped, governs, governsWrapped, config⟩ := exists_governs_notes S Q
    obtain ⟨perms, evaluated, answer⟩ := destroyable_authenticatedDelete rfl governs subject
    obtain ⟨permsWrapped, evaluatedWrapped, answerWrapped⟩ :=
      destroyable_authenticatedDelete rfl governsWrapped (some subject)
    have same := unnoticed _ site wrapped _ governs governsWrapped config none {}
    rw [evaluated, evaluatedWrapped] at same
    cases same
    exact answer.symm.trans answerWrapped
  · intro policy site wrapped model governs governsWrapped config
    exact evaluate_wrapped governs governsWrapped config fun rule _ =>
      PolicyRule.addresses_some_iff_of_byIdentity byIdentity

end Wrapping

/-- A key that counts as authenticated by its identity may delete notes, wrapped or not. -/
theorem wraps_iff_byIdentity_key :
    let key : AuthContext := .ofKey "key 1" []
    let policy : Policy := { tables := [("notes", [authenticatedDelete])] }
    ByIdentity key ∧ ∃ (site : Site AuthContext Unit) (wrapped : Site (Option AuthContext) Unit)
      (model : Model), policy.Governs site model ∧ policy.Governs wrapped model ∧
        wrapped.config = site.config ∧
        (wrapped.evaluate model (some key) none).startFrom {} =
          (site.evaluate model key none).startFrom {} := by
  intro key policy
  have byIdentity : ByIdentity key := rfl
  obtain ⟨site, wrapped, governs, governsWrapped, config⟩ := exists_governs_notes AuthContext Unit
  obtain ⟨-, -, unnoticed⟩ := wraps_iff_byIdentity Unit key
  exact ⟨byIdentity, site, wrapped, _, governs, governsWrapped, config,
    unnoticed.mpr byIdentity policy site wrapped _ governs governsWrapped config none {}⟩

end Policy

/-- A machine of one's own network. -/
inductive Machine where
  /-- The only one that is known. -/
  | neighbour
  deriving DecidableEq

/-- The machine counts as authenticated without having an identity. -/
instance : Principal Machine where
  sub _ := none
  hasRole _ _ := false
  isAuthenticated _ := true

namespace Policy

/-- The machine may delete notes, but not if it is wrapped. -/
theorem wrapped_neighbour_refused :
    let policy : Policy := { tables := [("notes", [authenticatedDelete])] }
    ∃ (site : Site Machine Unit) (wrapped : Site (Option Machine) Unit) (model : Model)
      (perms permsWrapped : Permissions Unit),
      policy.Governs site model ∧ policy.Governs wrapped model ∧ wrapped.config = site.config ∧
        (site.evaluate model .neighbour none).startFrom {} = (.ok perms, {}) ∧
        (wrapped.evaluate model (some .neighbour) none).startFrom {} = (.ok permsWrapped, {}) ∧
        perms.destroyable = true ∧ permsWrapped.destroyable = false := by
  intro policy
  obtain ⟨site, wrapped, governs, governsWrapped, config⟩ := exists_governs_notes Machine Unit
  obtain ⟨perms, evaluated, answer⟩ :=
    destroyable_authenticatedDelete rfl governs Machine.neighbour
  obtain ⟨permsWrapped, evaluatedWrapped, answerWrapped⟩ :=
    destroyable_authenticatedDelete rfl governsWrapped (some Machine.neighbour)
  exact ⟨site, wrapped, _, perms, permsWrapped, governs, governsWrapped, config, evaluated,
    evaluatedWrapped, answer, answerWrapped⟩

end Policy

end Warden
