import Warden.Evaluation
import Warden.Proofs.Permissions.FieldChecks
import Warden.Proofs.Permissions.LastCall
import Warden.Proofs.Run
/-! # What every evaluation keeps
Working out permissions runs the rules of a model, and rules may count rows, which again might work
out permissions. Two facts hold however the rules are written. An evaluation is **steady**
(`Site.steady_evaluate`): it leaves trusted execution as it found it. And the **frame** of the
permissions, that is to say the table, its fields and whether the table is paranoid, is that of the
model (`Site.frame_of_evaluate`): rules fill permissions, but do not redirect them. -/

namespace Warden

namespace Permissions

variable {Q : Type}

/-- What permissions are about, apart from what is granted: the fields, the table, and whether the
table is paranoid. -/
def frame (perms : Permissions Q) : List String × Table × Bool :=
  (perms.fields, perms.table, perms.paranoid)

@[simp] theorem frame_scope (perms : Permissions Q) (narrow : Q → Q) :
    (perms.scope narrow).frame = perms.frame := rfl

@[simp] theorem frame_can (perms : Permissions Q) (action : Action) (specs : List FieldSpec) :
    (perms.can action specs).frame = perms.frame := by
  by_cases destroying : action = .destroy
  · rw [destroying, can_destroy]
    rfl
  · rw [can_fieldwise perms destroying]
    rfl

@[simp] theorem frame_cannot (perms : Permissions Q) (action : Action) (specs : List FieldSpec) :
    (perms.cannot action specs).frame = perms.frame := by
  by_cases destroying : action = .destroy
  · rw [destroying, cannot_destroy]
    rfl
  · obtain ⟨access, changed, -⟩ := cannot_fieldwise perms destroying specs
    rw [changed]
    rfl

end Permissions

/-! ## Running rules -/

section Rules

variable {S Q : Type} {census : Census S}

/-- A script keeps the frame of the permissions that it fills. -/
theorem Script.frame_of_run {script : Script S Q} {perms filled : Permissions Q}
    {trust after : Trust} (ran : (script.run census perms).startFrom trust = (.ok filled, after)) :
    filled.frame = perms.frame := by
  -- A look, a check or a count only decides which smaller script comes next.
  induction script generalizing perms filled trust after with
  | done =>
    rw [Script.run, Run.startFrom_pure] at ran
    cases ran
    rfl
  | abort message => cases ran
  | can action specs next ih => rw [ih ran, Permissions.frame_can]
  | cannot action specs next ih => rw [ih ran, Permissions.frame_cannot]
  | scope narrow next ih => rw [ih ran, Permissions.frame_scope]
  | depth next ih =>
    obtain ⟨depth, between, -, rest⟩ := Run.ok_of_bind ran
    exact ih depth rest
  | check constraint value next ih =>
    obtain ⟨passed, between, -, rest⟩ := Run.ok_of_bind ran
    exact ih passed rest
  | insecurely body next ihBody ih =>
    obtain ⟨inner, between, guarded, rest⟩ := Run.ok_of_bind ran
    have inside : ((body.run census perms).startFrom trust.enter).1 = .ok inner :=
      congrArg Prod.fst guarded
    rw [ih rest, ihBody (Prod.ext inside rfl)]
  | count model subject next ih =>
    obtain ⟨rows, between, -, rest⟩ := Run.ok_of_bind ran
    exact ih rows rest

/-- A script is steady if its counts are. -/
theorem Script.steady_run (steady : ∀ name subject, (census name subject).Steady)
    (script : Script S Q) (perms : Permissions Q) : (script.run census perms).Steady := by
  induction script generalizing perms with
  | done => exact Run.steady_pure perms
  | abort message => exact Run.steady_abandon message
  | can action specs next ih => exact ih _
  | cannot action specs next ih => exact ih _
  | scope narrow next ih => exact ih _
  | depth next ih => exact Run.steady_depth.bind fun depth => ih depth perms
  | check constraint value next ih =>
    exact (constraint.steady_check value).bind fun passed => ih passed perms
  | insecurely body next ihBody ih => exact (ihBody perms).insecurely.bind fun filled => ih filled
  | count model subject next ih =>
    exact (steady model subject).bind fun rows => ih rows perms

/-- Rules keep the frame of the permissions that they fill. -/
theorem Rule.frame_of_runAll {rules : List (Rule S Q)} {subject : S} {entry : Option Row}
    {perms filled : Permissions Q} {trust after : Trust}
    (ran : (Rule.runAll census rules subject entry perms).startFrom trust = (.ok filled, after)) :
    filled.frame = perms.frame := by
  induction rules generalizing perms trust with
  | nil =>
    rw [Rule.runAll, Run.startFrom_pure] at ran
    cases ran
    rfl
  | cons rule rest ih =>
    obtain ⟨between, state, first, others⟩ := Run.ok_of_bind ran
    rw [ih others, Script.frame_of_run first]

/-- Rules are steady if their counts are. -/
theorem Rule.steady_runAll (steady : ∀ name subject, (census name subject).Steady)
    (rules : List (Rule S Q)) (subject : S) (entry : Option Row) (perms : Permissions Q) :
    (Rule.runAll census rules subject entry perms).Steady := by
  induction rules generalizing perms with
  | nil => exact Run.steady_pure perms
  | cons rule rest ih => exact (Script.steady_run steady _ perms).bind fun filled => ih filled

end Rules

/-! ## Bindings -/

namespace Binding

variable {S Q : Type} {evaluate : S → Run (Permissions Q)}

theorem steady_permissions (steady : ∀ subject, (evaluate subject).Steady) :
    (permissions evaluate).Steady := by
  refine RunOn.steady_object.bind fun binding => ?_
  cases binding.restriction with
  | unbound => exact RunOn.steady_pure _
  | bound subject =>
    cases binding.memo with
    | some perms => exact RunOn.steady_pure _
    | none =>
      exact (RunOn.steady_beside (steady subject)).bind fun perms =>
        (RunOn.steady_change _).bind fun _ => RunOn.steady_pure _

theorem steady_enforced (steady : ∀ subject, (evaluate subject).Steady) :
    (enforced evaluate).Steady := by
  refine RunOn.steady_object.bind fun binding => ?_
  refine (RunOn.steady_beside Run.steady_trust).bind fun trust => ?_
  split
  · refine (steady_permissions steady).bind fun found => ?_
    cases found <;> exact RunOn.steady_pure _
  · exact RunOn.steady_pure _

end Binding

namespace Relation

variable {S Q : Type} {evaluate : Evaluator S Q}

theorem steady_enforcedBy (steady : ∀ model subject entry, (evaluate model subject entry).Steady) :
    (enforcedBy evaluate).Steady :=
  RunOn.steady_object.bind fun rel =>
    (Binding.steady_enforced fun subject => steady rel.model subject none).focus _ _

theorem steady_restrictedQueryBy [Query Q]
    (steady : ∀ model subject entry, (evaluate model subject entry).Steady) :
    (restrictedQueryBy evaluate).Steady := by
  refine RunOn.steady_object.bind fun rel => ?_
  refine (steady_enforcedBy steady).bind fun perms => ?_
  cases perms with
  | none => exact RunOn.steady_pure _
  | some perms =>
    dsimp only
    cases perms.relation <;> exact RunOn.steady_pure _

end Relation

/-! ## Evaluating a model -/

/-- A rule set without parent has its own rules only. -/
theorem RuleBook.rules_of_root {S Q : Type} {book : RuleBook S Q} {id : RuleSetId}
    {rules : List (Rule S Q)} (found : book.sets[id]? = some { own := rules }) :
    book.rules id = rules := by
  rw [RuleBook.rules]
  split
  · next missing =>
    rw [missing] at found
    cases found
  · next set present =>
    rw [present] at found
    cases found
    rfl

namespace Site

variable {S Q : Type}

/-- Evaluating by steady counts is steady. -/
theorem steady_evaluateWith (site : Site S Q) {census : Census S}
    (steady : ∀ name subject, (census name subject).Steady) (model : Model) (subject : S)
    (entry : Option Row) : (site.evaluateWith census model subject entry).Steady :=
  (Rule.steady_runAll steady _ subject entry _).insecurely

variable [Query Q]

/-- Evaluating a model runs its rules inside a guard. -/
theorem evaluate_of_rules {site : Site S Q} {model : Model} {rules : List (Rule S Q)}
    (book : site.book.rules model.rules = rules) (subject : S) (entry : Option Row) :
    site.evaluate model subject entry =
      Run.insecurely (Rule.runAll (site.censusBy (site.evaluateNested 0)) rules subject entry
        (model.noPermissions site.config)) := by
  rw [← book]
  rfl

/-- Counting rows is steady if the evaluations that it calls for are. -/
theorem steady_censusBy (site : Site S Q) {evaluate : Evaluator S Q}
    (steady : ∀ model subject entry, (evaluate model subject entry).Steady) (name : String)
    (subject : S) : (site.censusBy evaluate name subject).Steady := by
  unfold censusBy
  split
  · exact Run.steady_pure 0
  · next model _ =>
    have counting : (Relation.countBy evaluate site.store).Steady :=
      (Relation.steady_restrictedQueryBy steady).bind fun query => RunOn.steady_pure _
    exact (counting.on _).bind fun counted => Run.steady_pure counted.1

theorem steady_evaluateNested (site : Site S Q) (levels : Nat) (model : Model) (subject : S)
    (entry : Option Row) : (site.evaluateNested levels model subject entry).Steady := by
  -- The counts of one level call for evaluations of the level below.
  induction levels generalizing model subject entry with
  | zero => exact Run.steady_abandon _
  | succ levels ih => exact site.steady_evaluateWith (site.steady_censusBy ih) model subject entry

/-- **Steadiness**: working out permissions leaves trusted execution as it was. -/
theorem steady_evaluate (site : Site S Q) (model : Model) (subject : S) (entry : Option Row) :
    (site.evaluate model subject entry).Steady :=
  site.steady_evaluateNested 1 model subject entry

/-- **Frame**: the permissions are about the model's table. -/
theorem frame_of_evaluate {site : Site S Q} {model : Model} {subject : S} {entry : Option Row}
    {trust : Trust} {perms : Permissions Q}
    (evaluated : ((site.evaluate model subject entry).startFrom trust).1 = .ok perms) :
    perms.frame = (model.fields, model.table, model.isParanoid site.config) := by
  rw [evaluate_of_rules rfl] at evaluated
  rw [Rule.frame_of_runAll (Prod.ext evaluated rfl)]
  rfl

end Site

end Warden
