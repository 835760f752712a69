import Mathlib.Data.List.Forall2
import Warden.Proofs.Evaluation
/-! # Registered rules
A rule that is registered on a model runs after those that the model had, and nothing else about
the site changes (`Site.protectAll_eq`). What a rule does is plain to see if its script is a plain
list of instructions: such a script **amounts to** some calls and some scopes
(`Script.AmountsTo`), whatever permissions it fills, and where rows are never counted. Calls and
scopes do not interfere, so that those of several scripts in a row add up
(`Permissions.filled_filled`), and evaluating a model whose rules all amount to something is
filling its empty permissions (`Site.evaluate_of_amounts`). -/

namespace Warden

/-! ## Registering -/

namespace RuleBook

variable {S Q : Type} {book : RuleBook S Q} {id : RuleSetId}

/-- The rules of a set are those of its parent, if it has one, and its own. -/
theorem rules_of_found {set : RuleSet S Q} (found : book.sets[id]? = some set) :
    book.rules id = (set.parent.map book.rules).getD [] ++ set.own := by
  rw [rules]
  split
  · next missing =>
    rw [missing] at found
    cases found
  · next other present =>
    rw [present] at found
    cases found
    split
    · next root =>
      rw [root]
      rfl
    · next parent child =>
      have inherited : set.parent.map book.rules = some (book.rules parent) := by
        rw [child]
        rfl
      rw [inherited]
      rfl

/-- A set that is not in the book has no rules. -/
theorem rules_of_missing (missing : book.sets[id]? = none) : book.rules id = [] := by
  rw [rules]
  split
  · rfl
  · next present =>
    rw [present] at missing
    cases missing

/-- Registering a rule on a set changes nothing for older sets. -/
theorem rules_register_of_lt (rule : Rule S Q) {other : RuleSetId} (older : other < id) :
    (book.register id rule).rules other = book.rules other := by
  -- The parents of an older set are older still, so that none of them is the changed one.
  induction other using Nat.strongRecOn with
  | ind other ih =>
    have same : (book.register id rule).sets[other]? = book.sets[other]? :=
      List.getElem?_modify_ne _ _ older.ne'
    cases found : book.sets[other]? with
    | none => rw [rules_of_missing found, rules_of_missing (same.trans found)]
    | some set =>
      rw [rules_of_found found, rules_of_found (same.trans found)]
      cases isParent : set.parent with
      | none => rfl
      | some parent =>
        have before : parent < other := book.parent_lt other set parent found isParent
        rw [Option.map_some, Option.map_some, ih parent before (before.trans older)]

/-- A registered rule runs after those that were there. -/
theorem rules_register (known : id < book.sets.length) (rule : Rule S Q) :
    (book.register id rule).rules id = book.rules id ++ [rule] := by
  have found : book.sets[id]? = some book.sets[id] := List.getElem?_eq_getElem known
  have changed : (book.register id rule).sets[id]? =
      some { book.sets[id] with own := book.sets[id].own ++ [rule] } := by
    show (book.sets.modify id _)[id]? = _
    rw [List.getElem?_modify_eq, found]
    rfl
  rw [rules_of_found found, rules_of_found changed, List.append_assoc]
  cases isParent : book.sets[id].parent with
  | none => rfl
  | some parent =>
    rw [Option.map_some, Option.map_some,
      rules_register_of_lt rule (book.parent_lt id _ parent found isParent)]

/-- Registering a rule adds no set. -/
@[simp] theorem length_register (book : RuleBook S Q) (id : RuleSetId) (rule : Rule S Q) :
    (book.register id rule).sets.length = book.sets.length :=
  List.length_modify _ _ _

end RuleBook

/-- Register several rules on a model in turn. -/
def Site.protectAll {S Q : Type} (site : Site S Q) (model : Model) (rules : List (Rule S Q)) :
    Site S Q :=
  rules.foldl (fun site rule => site.protect model rule) site

/-- Registered rules are added to the rules of the model, and settings and rows stay. -/
theorem Site.protectAll_eq {S Q : Type} {site : Site S Q} {model : Model}
    (known : model.rules < site.book.sets.length) (rules : List (Rule S Q)) :
    (site.protectAll model rules).book.rules model.rules = site.book.rules model.rules ++ rules ∧
      (site.protectAll model rules).config = site.config ∧
      (site.protectAll model rules).store = site.store := by
  induction rules generalizing site with
  | nil => exact ⟨(List.append_nil _).symm, rfl, rfl⟩
  | cons rule rest ih =>
    have still : model.rules < (site.protect model rule).book.sets.length := by
      rw [protect, RuleBook.length_register]
      exact known
    obtain ⟨rules, config, store⟩ := ih still
    refine ⟨rules.trans ?_, config, store⟩
    rw [protect, RuleBook.rules_register known, List.append_assoc]
    rfl

/-! ## Filling permissions -/

namespace Permissions

variable {Q : Type}

/-- Permissions after some calls, with further scopes. -/
def filled (perms : Permissions Q) (calls : List Call) (scopes : List (Q → Q)) : Permissions Q :=
  { perms.after calls with scopes := perms.scopes ++ scopes }

/-- A call does not look at the scopes. -/
theorem apply_with_scopes (perms : Permissions Q) (call : Call) (scopes : List (Q → Q)) :
    call.apply { perms with scopes } = { call.apply perms with scopes } := by
  by_cases destroying : call.action = .destroy
  · rw [apply_destroy perms destroying, apply_destroy _ destroying]
  · rw [Call.apply_eq, Call.apply_eq]
    cases call.grants with
    | true =>
      rw [if_pos rfl, if_pos rfl, can_fieldwise perms destroying, can_fieldwise _ destroying]
      rfl
    | false =>
      rw [if_neg Bool.false_ne_true, if_neg Bool.false_ne_true]
      unfold cannot
      rw [if_neg destroying, if_neg destroying]
      cases call.specs with
      | nil => rfl
      | cons spec rest =>
        dsimp only
        cases perms.access.get? call.action <;> rfl

/-- Calls do not look at the scopes. -/
theorem after_with_scopes (perms : Permissions Q) (calls : List Call) (scopes : List (Q → Q)) :
    ({ perms with scopes } : Permissions Q).after calls = { perms.after calls with scopes } := by
  induction calls generalizing perms with
  | nil => rfl
  | cons call rest ih =>
    show (call.apply { perms with scopes }).after rest = _
    rw [apply_with_scopes, ih]
    rfl

/-- Without further scopes the calls are all. -/
theorem filled_nil (perms : Permissions Q) (calls : List Call) :
    perms.filled calls [] = perms.after calls := by
  rw [filled, List.append_nil]
  exact (after_with_scopes perms calls perms.scopes).symm

/-- What is filled in one after the other adds up. -/
theorem filled_filled (perms : Permissions Q) (first second : List Call)
    (scopes others : List (Q → Q)) :
    (perms.filled first scopes).filled second others
      = perms.filled (first ++ second) (scopes ++ others) := by
  rw [filled, filled, filled, after_with_scopes, after, after, after, List.foldl_append,
    List.append_assoc]

end Permissions

/-! ## Scripts that amount to calls and scopes -/

namespace Script

variable {S Q : Type}

/-- Of two scripts in a row the second one goes on with what the first one left. -/
theorem run_andThen {census : Census S} (first second : Script S Q) (perms : Permissions Q) :
    (first.andThen second).run census perms =
      first.run census perms >>= fun filled => second.run census filled := by
  induction first generalizing perms with
  | done => rfl
  | abort message => rfl
  | can action specs next ih => exact ih _
  | cannot action specs next ih => exact ih _
  | scope narrow next ih => exact ih _
  | depth next ih =>
    show (Run.depth >>= fun depth => ((next depth).andThen second).run census perms) = _
    simp only [ih]
    exact (bind_assoc _ _ _).symm
  | check constraint value next ih =>
    show (constraint.check value >>= fun passed =>
      ((next passed).andThen second).run census perms) = _
    simp only [ih]
    exact (bind_assoc _ _ _).symm
  | insecurely body next _ ih =>
    show (Run.insecurely (body.run census perms) >>= fun filled =>
      (next.andThen second).run census filled) = _
    simp only [ih]
    exact (bind_assoc _ _ _).symm
  | count model subject next ih =>
    show (census model subject >>= fun rows => ((next rows).andThen second).run census perms) = _
    simp only [ih]
    exact (bind_assoc _ _ _).symm

/-- Three scripts in a row. -/
theorem andThen_assoc (first second third : Script S Q) :
    (first.andThen second).andThen third = first.andThen (second.andThen third) := by
  induction first with
  | done => rfl
  | abort message => rfl
  | can action specs next ih => exact congrArg _ ih
  | cannot action specs next ih => exact congrArg _ ih
  | scope narrow next ih => exact congrArg _ ih
  | depth next ih => exact congrArg _ (funext ih)
  | check constraint value next ih => exact congrArg _ (funext ih)
  | insecurely body next _ ih => exact congrArg _ ih
  | count model subject next ih => exact congrArg _ (funext ih)

/-- Two sequences in a row. -/
theorem sequence_append (front back : List (Script S Q)) :
    sequence (front ++ back) = (sequence front).andThen (sequence back) := by
  induction front with
  | nil => rfl
  | cons script rest ih =>
    show script.andThen (sequence (rest ++ back)) = _
    rw [ih, ← andThen_assoc]
    rfl

/-- A script **amounts to** calls and scopes if they are all that it fills in. -/
def AmountsTo (script : Script S Q) (calls : List Call) (scopes : List (Q → Q)) : Prop :=
  ∀ (census : Census S) (perms : Permissions Q),
    script.run census perms = pure (perms.filled calls scopes)

theorem amountsTo_done : (done : Script S Q).AmountsTo [] [] := by
  intro census perms
  rw [Permissions.filled_nil]
  rfl

theorem amountsTo_grant (action : Action) (specs : List FieldSpec) :
    (grant action specs : Script S Q).AmountsTo [.can action specs] [] := by
  intro census perms
  rw [Permissions.filled_nil]
  rfl

theorem amountsTo_withdraw (action : Action) (specs : List FieldSpec) :
    (withdraw action specs : Script S Q).AmountsTo [.cannot action specs] [] := by
  intro census perms
  rw [Permissions.filled_nil]
  rfl

theorem amountsTo_narrow (change : Q → Q) : (narrow change : Script S Q).AmountsTo [] [change] :=
  fun _ _ => rfl

theorem AmountsTo.andThen {first second : Script S Q} {calls others : List Call}
    {scopes further : List (Q → Q)} (one : first.AmountsTo calls scopes)
    (two : second.AmountsTo others further) :
    (first.andThen second).AmountsTo (calls ++ others) (scopes ++ further) := by
  intro census perms
  rw [run_andThen, one, pure_bind, two, Permissions.filled_filled]

/-- Scripts in order amount to what each of them amounts to. -/
theorem amountsTo_sequence {α : Type} {items : List α} {scripts : List (Script S Q)}
    {calls : α → List Call} {scopes : α → List (Q → Q)}
    (each : List.Forall₂ (fun item script => AmountsTo script (calls item) (scopes item))
      items scripts) :
    (sequence scripts).AmountsTo (items.flatMap calls) (items.flatMap scopes) := by
  induction each with
  | nil => exact amountsTo_done
  | cons first _ ih => exact first.andThen ih

end Script

/-- Rules whose scripts amount to something fill permissions with all of it. -/
theorem Rule.runAll_of_amounts {S Q α : Type} {census : Census S} {items : List α}
    {rules : List (Rule S Q)} {subject : S} {entry : Option Row} {calls : α → List Call}
    {scopes : α → List (Q → Q)}
    (each : List.Forall₂ (fun item rule =>
      (Rule.script rule subject entry).AmountsTo (calls item) (scopes item)) items rules)
    (perms : Permissions Q) :
    Rule.runAll census rules subject entry perms =
      pure (perms.filled (items.flatMap calls) (items.flatMap scopes)) := by
  induction each generalizing perms with
  | nil =>
    rw [List.flatMap_nil, List.flatMap_nil, Permissions.filled_nil]
    rfl
  | cons first _ ih =>
    rw [Rule.runAll, first, pure_bind, ih, Permissions.filled_filled]
    rfl

/-- **Evaluating** a model whose rules amount to something fills its empty permissions with it. -/
theorem Site.evaluate_of_amounts {S Q α : Type} [Query Q] {site : Site S Q} {model : Model}
    {items : List α} {subject : S} {entry : Option Row} {calls : α → List Call}
    {scopes : α → List (Q → Q)}
    (each : List.Forall₂ (fun item rule =>
      (Rule.script rule subject entry).AmountsTo (calls item) (scopes item))
      items (site.book.rules model.rules))
    (trust : Trust) :
    (site.evaluate model subject entry).startFrom trust =
      (.ok ((model.noPermissions site.config).filled (items.flatMap calls) (items.flatMap scopes)),
        trust) := by
  rw [Site.evaluate_of_rules rfl, Rule.runAll_of_amounts each]
  rfl

end Warden
