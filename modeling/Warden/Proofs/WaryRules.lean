import Warden.Proofs.Permissions.Wary
import Warden.Proofs.Registration
/-! # Wary rules
As a predicate may be wary, so may a rule: each step of its script then panics with a text of one's
choice unless it runs deeper in trusted execution than a limit. On a **wary** site all rules are,
and so are all predicates that they mention. Evaluating permissions at the limit does not notice
(`Site.evaluate_wary`), as rules run inside a guard: every step of a rule and every predicate runs
deeper than the evaluation was asked for. -/

namespace Warden

section Wary

variable {S Q : Type} (limit : Nat) (message : String)

/-- A script that panics unless it runs deeper than a limit. -/
def Script.ifDeeper (script : Script S Q) : Script S Q :=
  .depth fun depth => if depth ≤ limit then .abort message else script

/-- A script each step of which panics unless it runs deeper than a limit. -/
def Script.wary : Script S Q → Script S Q
  | .done => ifDeeper limit message .done
  | .abort text => ifDeeper limit message (.abort text)
  | .can action specs next =>
    ifDeeper limit message (.can action (specs.map (FieldSpec.wary limit message)) next.wary)
  | .cannot action specs next =>
    ifDeeper limit message (.cannot action (specs.map (FieldSpec.wary limit message)) next.wary)
  | .scope narrow next => ifDeeper limit message (.scope narrow next.wary)
  | .depth next => ifDeeper limit message (.depth fun depth => (next depth).wary)
  | .check constraint value next =>
    ifDeeper limit message
      (.check (constraint.wary limit message) value fun passed => (next passed).wary)
  | .insecurely body next => ifDeeper limit message (.insecurely body.wary next.wary)
  | .count model subject next =>
    ifDeeper limit message (.count model subject fun rows => (next rows).wary)

/-- A rule with a wary script. -/
def Rule.wary : Rule S Q → Rule S Q
  | .plain script => .plain (script.wary limit message)
  | .subject script => .subject fun subject => (script subject).wary limit message
  | .entry script => .entry fun subject entry => (script subject entry).wary limit message

/-- A rule book with wary rules. -/
def RuleBook.wary (book : RuleBook S Q) : RuleBook S Q where
  sets := book.sets.map fun set => { set with own := set.own.map (Rule.wary limit message) }
  parent_lt := by
    intro id set parent found isParent
    rw [List.getElem?_map] at found
    obtain ⟨before, present, rfl⟩ := Option.map_eq_some_iff.mp found
    exact book.parent_lt id before parent present isParent

/-- A site with wary rules. -/
def Site.wary (site : Site S Q) : Site S Q := { site with book := site.book.wary limit message }

end Wary

variable {S Q : Type} {limit : Nat} {message : String} {trust : Trust}

/-- Deep enough a script runs as it would anyway. -/
theorem Script.startFrom_ifDeeper {census : Census S} (deep : limit < trust.depth)
    (script : Script S Q) (perms : Permissions Q) :
    ((ifDeeper limit message script).run census perms).startFrom trust =
      (script.run census perms).startFrom trust := by
  have deeper : ¬ trust.depth ≤ limit := Nat.not_le.mpr deep
  rw [ifDeeper, run, Run.startFrom_bind, Run.startFrom_depth]
  dsimp only
  rw [if_neg deeper]

/-- **A script below the limit** does not notice that it is wary. -/
theorem Script.run_wary {census : Census S} (steady : ∀ name subject, (census name subject).Steady)
    (deep : limit < trust.depth) (script : Script S Q) (perms : Permissions Q) :
    ((script.wary limit message).run census (perms.wary limit message)).startFrom trust =
      (((script.run census perms).startFrom trust).1.map (Permissions.wary limit message),
        trust) := by
  -- By induction on the script; a part inside one more guard runs deeper still.
  induction script generalizing perms trust with
  | done =>
    rw [wary, startFrom_ifDeeper deep]
    rfl
  | abort text =>
    rw [wary, startFrom_ifDeeper deep]
    rfl
  | can action specs next ih =>
    rw [wary, startFrom_ifDeeper deep, run, Permissions.can_wary]
    exact ih deep _
  | cannot action specs next ih =>
    rw [wary, startFrom_ifDeeper deep, run, Permissions.cannot_wary]
    exact ih deep _
  | scope narrow next ih =>
    rw [wary, startFrom_ifDeeper deep]
    exact ih deep (perms.scope narrow)
  | depth next ih =>
    rw [wary, startFrom_ifDeeper deep]
    exact ih trust.depth deep perms
  | check constraint value next ih =>
    have checked := constraint.steady_check value
    rw [wary, startFrom_ifDeeper deep, run, Run.startFrom_bind,
      constraint.check_wary (Nat.le_of_lt deep), checked.startFrom_eq, run, checked.startFrom_bind]
    rcases ((constraint.check value).startFrom trust).1 with panic | passed
    · rfl
    · exact ih passed deep perms
  | insecurely body next ihBody ih =>
    have deeper : limit < trust.enter.depth := by
      rw [Trust.depth_enter]
      omega
    have guarded := (steady_run steady body perms).insecurely
    rw [wary, startFrom_ifDeeper deep, run, Run.startFrom_bind, Run.startFrom_insecurely,
      ihBody deeper, run, guarded.startFrom_bind, Run.startFrom_insecurely]
    dsimp only
    rcases ((body.run census perms).startFrom trust.enter).1 with panic | filled
    · rfl
    · exact ih deep filled
  | count model subject next ih =>
    have counted := steady model subject
    rw [wary, startFrom_ifDeeper deep, run, counted.startFrom_bind, run, counted.startFrom_bind]
    rcases ((census model subject).startFrom trust).1 with panic | rows
    · rfl
    · exact ih rows deep perms

/-- A wary rule has a wary script. -/
theorem Rule.script_wary (rule : Rule S Q) (subject : S) (entry : Option Row) :
    (rule.wary limit message).script subject entry =
      (rule.script subject entry).wary limit message := by
  cases rule <;> rfl

/-- **Rules below the limit** do not notice that they are wary. -/
theorem Rule.runAll_wary {census : Census S} (steady : ∀ name subject, (census name subject).Steady)
    (deep : limit < trust.depth) (rules : List (Rule S Q)) (subject : S) (entry : Option Row)
    (perms : Permissions Q) :
    (runAll census (rules.map (wary limit message)) subject entry
        (perms.wary limit message)).startFrom trust =
      (((runAll census rules subject entry perms).startFrom trust).1.map
        (Permissions.wary limit message), trust) := by
  induction rules generalizing perms with
  | nil => rfl
  | cons rule rest ih =>
    have ran := Script.steady_run steady (rule.script subject entry) perms
    rw [List.map_cons, runAll, Run.startFrom_bind, rule.script_wary,
      Script.run_wary steady deep, runAll, ran.startFrom_bind]
    rcases (((rule.script subject entry).run census perms).startFrom trust).1 with panic | filled
    · rfl
    · exact ih filled

/-- The rules of a wary book are wary. -/
theorem RuleBook.rules_wary (book : RuleBook S Q) (id : RuleSetId) :
    (book.wary limit message).rules id = (book.rules id).map (Rule.wary limit message) := by
  -- A parent is an older set.
  induction id using Nat.strongRecOn with
  | ind id ih =>
    have each : (book.wary limit message).sets[id]? = _ := List.getElem?_map
    cases found : book.sets[id]? with
    | none =>
      rw [found] at each
      rw [rules_of_missing found, rules_of_missing each]
      rfl
    | some set =>
      rw [found] at each
      rw [rules_of_found found, rules_of_found each, List.map_append]
      dsimp only
      cases isParent : set.parent with
      | none => rfl
      | some parent =>
        have older := book.parent_lt id set parent found isParent
        rw [Option.map_some, Option.map_some, ih parent older]
        rfl

/-- **Evaluating at the limit** does not notice that rules and predicates are wary. -/
theorem Site.evaluate_wary [Query Q] (site : Site S Q) (within : limit ≤ trust.depth)
    (model : Model) (subject : S) (entry : Option Row) :
    ((site.wary limit message).evaluate model subject entry).startFrom trust =
      (((site.evaluate model subject entry).startFrom trust).1.map
        (Permissions.wary limit message), trust) := by
  have deep : limit < trust.enter.depth := by
    rw [Trust.depth_enter]
    omega
  have steady : ∀ name subject,
      (site.censusBy (site.evaluateNested 0) name subject).Steady :=
    site.steady_censusBy (site.steady_evaluateNested 0)
  have rules : (site.wary limit message).book.rules model.rules = _ :=
    site.book.rules_wary model.rules
  rw [evaluate_of_rules rules, evaluate_of_rules rfl, Run.startFrom_insecurely,
    Run.startFrom_insecurely]
  -- Counting does not depend on the rules, and there are no permissions yet that could be wary.
  have ran : ((Rule.runAll ((site.wary limit message).censusBy
      ((site.wary limit message).evaluateNested 0)) ((site.book.rules model.rules).map
        (Rule.wary limit message)) subject entry
      (model.noPermissions (site.wary limit message).config)).startFrom trust.enter) = _ :=
    Rule.runAll_wary steady deep _ subject entry (model.noPermissions site.config)
  rw [ran]
  rfl

end Warden
