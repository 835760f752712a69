import Warden.Proofs.Enforcement
import Warden.Proofs.Memory.Narrowing
/-! # Rules that count rows
While permissions are worked out, a rule may count the rows that some subject sees of some model,
its own model included. Counting the rows that a subject sees calls for that subject's permissions,
whose rules may count rows in turn. How evaluations follow from one another in this way, with no
bound on their nesting, is written down in `Site.Evaluates`, which also lists the rules that are
**executed** on the way, those of nested evaluations among them.

Rules run in trusted execution, and there a count calls for no permissions: it is the number of all
rows (`Site.counts_iff`). So every evaluation comes to an end, it executes the rules of its own
model and no others, and it is of no importance how deep evaluations may be nested
(`Site.evaluation_executes_own_rules`). -/

namespace Warden

/-- Inside a guard execution is trusted. -/
@[simp] theorem Trust.isActive_enter (trust : Trust) : trust.enter.isActive = true := by
  rw [isActive, depth_enter]
  exact decide_eq_true (Nat.succ_pos _)

/-- The rules that were executed, each with the model whose permissions were worked out. -/
abbrev Executions (S Q : Type) : Type := List (Model × Rule S Q)

namespace Site

variable {S Q : Type} [Query Q]

/-! ## What is executed -/

mutual

/-- A script is **performed**: it ends in permissions or in a panic, and executes rules where it
counts rows. -/
inductive Performs (site : Site S Q) : Trust → Script S Q → Permissions Q → Executions S Q →
    Except Panic (Permissions Q) → Prop where
  /-- Nothing is left to do. -/
  | done {trust perms} : Performs site trust .done perms [] (.ok perms)
  /-- The script panics. -/
  | abort {trust perms message} : Performs site trust (.abort message) perms [] (.error ⟨message⟩)
  /-- An action is granted. -/
  | can {trust perms executed outcome action specs next}
    (rest : Performs site trust next (perms.can action specs) executed outcome) :
    Performs site trust (.can action specs next) perms executed outcome
  /-- An action is withdrawn. -/
  | cannot {trust perms executed outcome action specs next}
    (rest : Performs site trust next (perms.cannot action specs) executed outcome) :
    Performs site trust (.cannot action specs next) perms executed outcome
  /-- A narrowing is registered. -/
  | scope {trust perms executed outcome narrow next}
    (rest : Performs site trust next (perms.scope narrow) executed outcome) :
    Performs site trust (.scope narrow next) perms executed outcome
  /-- The depth of trusted execution is looked at. -/
  | depth {trust perms executed outcome next}
    (rest : Performs site trust (next trust.depth) perms executed outcome) :
    Performs site trust (.depth next) perms executed outcome
  /-- A value is checked. -/
  | check {trust perms executed outcome constraint value next passed}
    (checked : ((constraint.check value).startFrom trust).1 = .ok passed)
    (rest : Performs site trust (next passed) perms executed outcome) :
    Performs site trust (.check constraint value next) perms executed outcome
  /-- The check of a value panics. -/
  | checkPanics {trust perms constraint value next panic}
    (checked : ((constraint.check value).startFrom trust).1 = .error panic) :
    Performs site trust (.check constraint value next) perms [] (.error panic)
  /-- A part of the work is done inside a guard. -/
  | insecurely {trust perms inner inside executed outcome body next}
    (guarded : Performs site trust.enter body perms inside (.ok inner))
    (rest : Performs site trust next inner executed outcome) :
    Performs site trust (.insecurely body next) perms (inside ++ executed) outcome
  /-- A part of the work panics inside a guard. -/
  | insecurelyPanics {trust perms inside body next panic}
    (guarded : Performs site trust.enter body perms inside (.error panic)) :
    Performs site trust (.insecurely body next) perms inside (.error panic)
  /-- The rows that a subject sees of the model of a name are counted. -/
  | count {trust perms counting executed outcome name subject rows next}
    (counted : Counts site trust name subject counting (.ok rows))
    (rest : Performs site trust (next rows) perms executed outcome) :
    Performs site trust (.count name subject next) perms (counting ++ executed) outcome
  /-- Counting the rows panics. -/
  | countPanics {trust perms counting name subject next panic}
    (counted : Counts site trust name subject counting (.error panic)) :
    Performs site trust (.count name subject next) perms counting (.error panic)

/-- The rows that a subject sees of the model of a name are **counted**. -/
inductive Counts (site : Site S Q) : Trust → String → S → Executions S Q → Except Panic Nat →
    Prop where
  /-- A name without model has no rows. -/
  | unknown {trust name subject} (missing : site.models.get? name = none) :
    Counts site trust name subject [] (.ok 0)
  /-- In trusted execution all rows are counted. -/
  | trusted {trust name subject} {model : Model} (found : site.models.get? name = some model)
    (active : trust.isActive = true) :
    Counts site trust name subject [] (.ok ((site.store.count (Query.base model.table)).getD 0))
  /-- Elsewhere the permissions of the subject are worked out, and the rows are counted to which
  they confine it. -/
  | confined {trust name subject executed} {model : Model} {perms : Permissions Q}
    (found : site.models.get? name = some model) (inactive : trust.isActive = false)
    (evaluated : Evaluates site trust model subject none executed (.ok perms)) :
    Counts site trust name subject executed
      (.ok ((site.store.count (perms.confine (Query.base model.table))).getD 0))
  /-- Working out the permissions panics. -/
  | panics {trust name subject executed panic} {model : Model}
    (found : site.models.get? name = some model) (inactive : trust.isActive = false)
    (evaluated : Evaluates site trust model subject none executed (.error panic)) :
    Counts site trust name subject executed (.error panic)

/-- The permissions of a subject for a model are **evaluated**: the rules of the model are executed
inside a guard, starting from no permissions. -/
inductive Evaluates (site : Site S Q) : Trust → Model → S → Option Row → Executions S Q →
    Except Panic (Permissions Q) → Prop where
  /-- All rules of the model are executed. -/
  | rules {trust model subject entry executed outcome}
    (all : Executes site trust.enter model (site.book.rules model.rules) subject entry
      (model.noPermissions site.config) executed outcome) :
    Evaluates site trust model subject entry executed outcome

/-- Rules are **executed** for a model, each on the permissions that the former ones left. -/
inductive Executes (site : Site S Q) : Trust → Model → List (Rule S Q) → S → Option Row →
    Permissions Q → Executions S Q → Except Panic (Permissions Q) → Prop where
  /-- No rule is left. -/
  | nil {trust model subject entry perms} :
    Executes site trust model [] subject entry perms [] (.ok perms)
  /-- A rule is executed, and then the others. -/
  | cons {trust model subject entry perms filled inside executed outcome} {rule : Rule S Q} {rest}
    (first : Performs site trust (rule.script subject entry) perms inside (.ok filled))
    (others : Executes site trust model rest subject entry filled executed outcome) :
    Executes site trust model (rule :: rest) subject entry perms
      ((model, rule) :: (inside ++ executed)) outcome
  /-- A rule panics, and no other is executed. -/
  | panics {trust model subject entry perms inside panic} {rule : Rule S Q} {rest}
    (first : Performs site trust (rule.script subject entry) perms inside (.error panic)) :
    Executes site trust model (rule :: rest) subject entry perms ((model, rule) :: inside)
      (.error panic)

end

variable {site : Site S Q} {trust : Trust}

/-! ## Counting in trusted execution -/

/-- The number of all rows of the model of a name; a name without model has none. -/
def total (site : Site S Q) (name : String) : Nat :=
  (site.models.get? name).elim 0 fun model => (site.store.count (Query.base model.table)).getD 0

/-- A census that looks at no permissions. -/
def totals (site : Site S Q) : Census S := fun name _ => return site.total name

/-- Where rows are kept in memory, it is the number of stored rows. -/
theorem total_of_stored {site : Site S MemoryQuery} {memory : Memory}
    (stored : site.store = memory.store) (name : String) :
    site.total name =
      (site.models.get? name).elim 0 fun model => memory.size model.table.name := by
  rw [total, stored]
  cases site.models.get? name with
  | none => rfl
  | some model =>
    show (memory.count (Query.base model.table)).getD 0 = (memory.rows model.table.name).length
    rw [Memory.getD_count, ← MemoryQuery.narrowBy_nil (Query.base model.table),
      Memory.select_narrowBy]
    exact congrArg List.length (List.filter_true _)

theorem steady_totals (site : Site S Q) (name : String) (subject : S) :
    (site.totals name subject).Steady := fun _ => rfl

/-- **A count in trusted execution** is the number of all rows, and executes no rule. -/
theorem counts_iff (trusted : trust.isActive = true) {name : String} {subject : S}
    {executed : Executions S Q} {outcome : Except Panic Nat} :
    site.Counts trust name subject executed outcome ↔
      executed = [] ∧ outcome = .ok (site.total name) := by
  constructor
  · intro counted
    cases counted with
    | unknown missing => exact ⟨rfl, by rw [total, missing]; rfl⟩
    | trusted found => exact ⟨rfl, by rw [total, found]; rfl⟩
    | confined _ inactive => cases trusted.symm.trans inactive
    | panics _ inactive => cases trusted.symm.trans inactive
  · rintro ⟨rfl, rfl⟩
    rw [total]
    cases found : site.models.get? name with
    | none => exact .unknown found
    | some model => exact .trusted found trusted

omit [Query Q] in
/-- In trusted execution a relation enforces nothing, whichever way permissions are worked out. -/
theorem enforcedBy_of_trusted (trusted : trust.isActive = true) (evaluate : Evaluator S Q)
    (rel : Relation S Q) :
    (Relation.enforcedBy evaluate).startFrom rel trust = ((.ok none, rel), trust) := by
  have free : rel.binding.restriction.isEnforced trust = false :=
    Restriction.isEnforced_of_free (.inr trusted)
  have asks : (Relation.enforcedBy evaluate).startFrom rel trust =
      let asked := (Binding.enforced fun subject => evaluate rel.model subject none).startFrom
        rel.binding trust
      ((asked.1.1, { rel with binding := asked.1.2 }), asked.2) := rfl
  rw [asks, Binding.startFrom_enforced_of_not free]

/-- **A census in trusted execution** counts all rows, too. -/
theorem startFrom_censusBy (trusted : trust.isActive = true) (evaluate : Evaluator S Q)
    (name : String) (subject : S) :
    (site.censusBy evaluate name subject).startFrom trust = (.ok (site.total name), trust) := by
  rw [censusBy, total]
  cases site.models.get? name with
  | none => rfl
  | some model =>
    let rel : Relation S Q := Relation.ofSubject model subject
    have counted : (Relation.countBy evaluate site.store).startFrom rel trust =
        ((.ok ((site.store.count (Query.base model.table)).getD 0), rel), trust) := by
      unfold Relation.countBy Relation.restrictedQueryBy
      rw [RunOn.startFrom_bind, RunOn.startFrom_bind, RunOn.startFrom_object]
      dsimp only
      rw [RunOn.startFrom_bind, enforcedBy_of_trusted trusted]
      rfl
    dsimp only
    rw [Run.startFrom_bind, RunOn.startFrom_on, counted]
    rfl

end Site

/-! ## Scripts and rules in trusted execution -/

section Rules

variable {S Q : Type} {one other : Census S} {trust : Trust}

/-- Two ways to count agree in trusted execution. -/
def Census.AgreeTrusted (one other : Census S) : Prop :=
  ∀ name subject trust, trust.isActive = true →
    (one name subject).startFrom trust = (other name subject).startFrom trust

/-- Then they make no difference to a script there. -/
theorem Script.startFrom_run_congr (agree : one.AgreeTrusted other)
    (steady : ∀ name subject, (other name subject).Steady) (script : Script S Q)
    (perms : Permissions Q) (trusted : trust.isActive = true) :
    (script.run one perms).startFrom trust = (script.run other perms).startFrom trust := by
  -- By induction on the script, at every depth that is trusted.
  induction script generalizing perms trust with
  | done => rfl
  | abort message => rfl
  | can action specs next ih => exact ih _ trusted
  | cannot action specs next ih => exact ih _ trusted
  | scope narrow next ih => exact ih _ trusted
  | depth next ih => exact ih trust.depth perms trusted
  | check constraint value next ih =>
    rw [run, run, (constraint.steady_check value).startFrom_bind,
      (constraint.steady_check value).startFrom_bind]
    cases ((constraint.check value).startFrom trust).1 with
    | error panic => rfl
    | ok passed => exact ih passed perms trusted
  | insecurely body next ihBody ih =>
    rw [run, run, Run.startFrom_bind, Run.startFrom_bind, Run.startFrom_insecurely,
      Run.startFrom_insecurely, ihBody perms trust.isActive_enter,
      steady_run steady body perms trust.enter, Trust.leave_enter]
    cases ((body.run other perms).startFrom trust.enter).1 with
    | error panic => rfl
    | ok inner => exact ih inner trusted
  | count model subject next ih =>
    rw [run, run, Run.startFrom_bind, Run.startFrom_bind, agree model subject trust trusted,
      (steady model subject).startFrom_eq trust]
    cases ((other model subject).startFrom trust).1 with
    | error panic => rfl
    | ok rows => exact ih rows perms trusted

/-- Nor to rules. -/
theorem Rule.startFrom_runAll_congr (agree : one.AgreeTrusted other)
    (steady : ∀ name subject, (other name subject).Steady) (rules : List (Rule S Q)) (subject : S)
    (entry : Option Row) (perms : Permissions Q) (trusted : trust.isActive = true) :
    (Rule.runAll one rules subject entry perms).startFrom trust =
      (Rule.runAll other rules subject entry perms).startFrom trust := by
  induction rules generalizing perms with
  | nil => rfl
  | cons rule rest ih =>
    have first := Script.steady_run steady (rule.script subject entry) perms
    rw [runAll, runAll, Run.startFrom_bind, Run.startFrom_bind,
      Script.startFrom_run_congr agree steady _ perms trusted, first.startFrom_eq trust]
    cases (((rule.script subject entry).run other perms).startFrom trust).1 with
    | error panic => rfl
    | ok filled => exact ih filled

end Rules

namespace Site

variable {S Q : Type} [Query Q] {site : Site S Q} {trust : Trust}

/-! ## What a script executes -/

/-- **A script in trusted execution** executes no rule, and it counts all rows wherever it counts
any. -/
theorem performs_iff (trusted : trust.isActive = true) {script : Script S Q}
    {perms : Permissions Q} {executed : Executions S Q}
    {outcome : Except Panic (Permissions Q)} :
    site.Performs trust script perms executed outcome ↔
      executed = [] ∧ outcome = ((script.run site.totals perms).startFrom trust).1 := by
  -- By induction on the script. A step that changes the permissions only is followed by the rest of
  -- the script; the others may panic, and each side of the equivalence decides which case it is.
  induction script generalizing perms trust executed outcome with
  | done =>
    constructor
    · rintro ⟨⟩
      exact ⟨rfl, rfl⟩
    · rintro ⟨rfl, rfl⟩
      exact .done
  | abort message =>
    constructor
    · rintro ⟨⟩
      exact ⟨rfl, rfl⟩
    · rintro ⟨rfl, rfl⟩
      exact .abort
  | can action specs next ih =>
    rw [Script.run, ← ih trusted]
    constructor
    · intro performed
      cases performed with
      | can rest => exact rest
    · exact .can
  | cannot action specs next ih =>
    rw [Script.run, ← ih trusted]
    constructor
    · intro performed
      cases performed with
      | cannot rest => exact rest
    · exact .cannot
  | scope narrow next ih =>
    rw [Script.run, ← ih trusted]
    constructor
    · intro performed
      cases performed with
      | scope rest => exact rest
    · exact .scope
  | depth next ih =>
    have looked : (((Script.depth next).run site.totals perms).startFrom trust).1 =
        (((next trust.depth).run site.totals perms).startFrom trust).1 := rfl
    rw [looked, ← ih trust.depth trusted]
    constructor
    · intro performed
      cases performed with
      | depth rest => exact rest
    · exact .depth
  | check constraint value next ih =>
    rw [Script.run, (constraint.steady_check value).startFrom_bind]
    cases checked : ((constraint.check value).startFrom trust).1 with
    | error panic =>
      constructor
      · intro performed
        cases performed with
        | check passes => cases checked.symm.trans passes
        | checkPanics panics =>
          cases checked.symm.trans panics
          exact ⟨rfl, rfl⟩
      · rintro ⟨rfl, rfl⟩
        exact .checkPanics checked
    | ok passed =>
      dsimp only
      rw [← ih passed trusted]
      constructor
      · intro performed
        cases performed with
        | check passes rest =>
          cases checked.symm.trans passes
          exact rest
        | checkPanics panics => cases checked.symm.trans panics
      · exact .check checked
  | insecurely body next ihBody ih =>
    rw [Script.run, (Script.steady_run site.steady_totals body perms).insecurely.startFrom_bind,
      Run.startFrom_insecurely]
    -- What is done inside the guard is trusted as well.
    have inside : ∀ log ends, site.Performs trust.enter body perms log ends ↔
        log = [] ∧ ends = ((body.run site.totals perms).startFrom trust.enter).1 :=
      fun _ _ => ihBody trust.isActive_enter
    cases guarded : ((body.run site.totals perms).startFrom trust.enter).1 with
    | error panic =>
      rw [guarded] at inside
      constructor
      · intro performed
        cases performed with
        | insecurely guards => cases ((inside _ _).mp guards).2
        | insecurelyPanics guards =>
          obtain ⟨rfl, same⟩ := (inside _ _).mp guards
          exact ⟨rfl, same⟩
      · rintro ⟨rfl, rfl⟩
        exact .insecurelyPanics ((inside _ _).mpr ⟨rfl, rfl⟩)
    | ok inner =>
      rw [guarded] at inside
      dsimp only
      rw [← ih trusted]
      constructor
      · intro performed
        cases performed with
        | insecurely guards rest =>
          obtain ⟨rfl, same⟩ := (inside _ _).mp guards
          cases same
          exact rest
        | insecurelyPanics guards => cases ((inside _ _).mp guards).2
      · intro rest
        exact .insecurely ((inside _ _).mpr ⟨rfl, rfl⟩) rest
  | count name subject next ih =>
    rw [Script.run, (site.steady_totals name subject).startFrom_bind]
    -- Since execution is trusted, the rows are not counted as the subject sees them.
    show _ ↔ _ ∧ outcome = (((next (site.total name)).run site.totals perms).startFrom trust).1
    rw [← ih (site.total name) trusted]
    constructor
    · intro performed
      cases performed with
      | count counted rest =>
        obtain ⟨rfl, same⟩ := (counts_iff trusted).mp counted
        cases same
        exact rest
      | countPanics counted => cases ((counts_iff trusted).mp counted).2
    · exact .count ((counts_iff trusted).mpr ⟨rfl, rfl⟩)

/-! ## What an evaluation executes -/

/-- The rules that are begun: all of them, or those up to the first that panics. -/
def begun (site : Site S Q) (trust : Trust) (model : Model) (rules : List (Rule S Q)) (subject : S)
    (entry : Option Row) (perms : Permissions Q) : Executions S Q :=
  match rules with
  | [] => []
  | rule :: rest =>
    (model, rule) ::
      match (((rule.script subject entry).run site.totals perms).startFrom trust).1 with
      | .ok filled => site.begun trust model rest subject entry filled
      | .error _ => []

/-- The rules that are begun are the first ones, and none is left out unless one panics. -/
theorem begun_prefix (site : Site S Q) (trust : Trust) (model : Model) (rules : List (Rule S Q))
    (subject : S) (entry : Option Row) (perms : Permissions Q) :
    site.begun trust model rules subject entry perms <+: rules.map (model, ·) ∧
      ∀ filled,
        ((Rule.runAll site.totals rules subject entry perms).startFrom trust).1 = .ok filled →
        site.begun trust model rules subject entry perms = rules.map (model, ·) := by
  induction rules generalizing perms with
  | nil => exact ⟨List.prefix_rfl, fun _ _ => rfl⟩
  | cons rule rest ih =>
    have first := Script.steady_run site.steady_totals (rule.script subject entry) perms
    rw [begun, Rule.runAll, first.startFrom_bind, List.map_cons, List.prefix_cons_inj,
      List.cons.injEq]
    cases (((rule.script subject entry).run site.totals perms).startFrom trust).1 with
    | error panic =>
      refine ⟨List.nil_prefix, ?_⟩
      intro filled ran
      cases ran
    | ok between => exact ⟨(ih between).1, fun filled ran => ⟨rfl, (ih between).2 filled ran⟩⟩

/-- **Rules in trusted execution** are executed one after the other, and no other rule is. -/
theorem executes_iff (trusted : trust.isActive = true) {model : Model} {rules : List (Rule S Q)}
    {subject : S} {entry : Option Row} {perms : Permissions Q} {executed : Executions S Q}
    {outcome : Except Panic (Permissions Q)} :
    site.Executes trust model rules subject entry perms executed outcome ↔
      executed = site.begun trust model rules subject entry perms ∧
        outcome = ((Rule.runAll site.totals rules subject entry perms).startFrom trust).1 := by
  -- By induction on the rules: the others start from the permissions that the first one left.
  induction rules generalizing perms executed outcome with
  | nil =>
    constructor
    · rintro ⟨⟩
      exact ⟨rfl, rfl⟩
    · rintro ⟨rfl, rfl⟩
      exact .nil
  | cons rule rest ih =>
    have steady := Script.steady_run site.steady_totals (rule.script subject entry) perms
    -- The script of a rule executes none itself.
    have performs : ∀ log ends, site.Performs trust (rule.script subject entry) perms log ends ↔
        log = [] ∧ ends = (((rule.script subject entry).run site.totals perms).startFrom trust).1 :=
      fun _ _ => performs_iff trusted
    rw [begun, Rule.runAll, steady.startFrom_bind]
    cases ran : (((rule.script subject entry).run site.totals perms).startFrom trust).1 with
    | error panic =>
      rw [ran] at performs
      constructor
      · intro executes
        cases executes with
        | cons first => cases ((performs _ _).mp first).2
        | panics first =>
          obtain ⟨rfl, same⟩ := (performs _ _).mp first
          exact ⟨rfl, same⟩
      · rintro ⟨rfl, rfl⟩
        exact .panics ((performs _ _).mpr ⟨rfl, rfl⟩)
    | ok filled =>
      rw [ran] at performs
      constructor
      · intro executes
        cases executes with
        | cons first others =>
          obtain ⟨rfl, same⟩ := (performs _ _).mp first
          cases same
          obtain ⟨rfl, ends⟩ := ih.mp others
          exact ⟨rfl, ends⟩
        | panics first => cases ((performs _ _).mp first).2
      · rintro ⟨rfl, rfl⟩
        exact .cons ((performs _ _).mpr ⟨rfl, rfl⟩) (ih.mpr ⟨rfl, rfl⟩)

/-- **An evaluation** executes the rules of the model and no others, at whatever depth of trusted
execution it is called for. -/
theorem evaluates_iff {model : Model} {subject : S} {entry : Option Row}
    {executed : Executions S Q} {outcome : Except Panic (Permissions Q)} :
    site.Evaluates trust model subject entry executed outcome ↔
      executed = site.begun trust.enter model (site.book.rules model.rules) subject entry
          (model.noPermissions site.config) ∧
        outcome = ((Rule.runAll site.totals (site.book.rules model.rules) subject entry
          (model.noPermissions site.config)).startFrom trust.enter).1 := by
  rw [← executes_iff trust.isActive_enter]
  constructor
  · intro evaluated
    cases evaluated with
    | rules all => exact all
  · exact .rules

/-- A census by evaluations agrees with one that looks at no permissions. -/
theorem censusBy_agreeTrusted (site : Site S Q) (evaluate : Evaluator S Q) :
    (site.censusBy evaluate).AgreeTrusted site.totals :=
  fun name subject _ trusted => startFrom_censusBy trusted evaluate name subject

/-- Rules run with the numbers of all rows, however deep evaluations may be nested. -/
theorem startFrom_evaluateNested (site : Site S Q) (levels : Nat) (model : Model) (subject : S)
    (entry : Option Row) (trust : Trust) :
    (site.evaluateNested (levels + 1) model subject entry).startFrom trust =
      (((Rule.runAll site.totals (site.book.rules model.rules) subject entry
        (model.noPermissions site.config)).startFrom trust.enter).1, trust) := by
  have steady := site.steady_evaluateNested (levels + 1) model subject entry
  rw [steady.startFrom_eq trust, evaluateNested, evaluateWith, Run.startFrom_insecurely,
    Rule.startFrom_runAll_congr (site.censusBy_agreeTrusted _) site.steady_totals _ _ _ _
      trust.isActive_enter]

end Site

/-- **Rules may count rows of any models**, in circles too. An evaluation over rows in memory comes
to an end at exactly one outcome, and it executes exactly the rules of the model, with those that
it inherits, each once and in their order; a panic keeps back the rules after the one that panics.
No rule of a counted model is executed, and what is counted in trusted execution is the number of
all stored rows. The outcome is the one of `Site.evaluate` and of any other bound on the nesting of
evaluations. -/
theorem Site.evaluation_executes_own_rules {S : Type} (site : Site S MemoryQuery)
    (memory : Memory) (model : Model) (subject : S) (entry : Option Row) (trust : Trust) :
    let site := { site with store := memory.store }
    let size (name : String) : Nat :=
      (site.models.get? name).elim 0 fun counted => memory.size counted.table.name
    let rules := site.book.rules model.rules
    ∃ executed outcome,
      (∀ log ends, site.Evaluates trust model subject entry log ends ↔
        log = executed ∧ ends = outcome) ∧
      (site.evaluate model subject entry).startFrom trust = (outcome, trust) ∧
      (∀ levels, (site.evaluateNested (levels + 1) model subject entry).startFrom trust =
        (outcome, trust)) ∧
      outcome = ((Rule.runAll (fun name _ => return size name) rules subject entry
        (model.noPermissions site.config)).startFrom trust.enter).1 ∧
      executed <+: rules.map (model, ·) ∧
      (∀ perms, outcome = .ok perms → executed = rules.map (model, ·)) ∧
      ∀ inside : Trust, inside.isActive = true → ∀ name counter log rows,
        site.Counts inside name counter log rows ↔ log = [] ∧ rows = .ok (size name) := by
  intro site size rules
  have totals : site.totals = fun name _ => return size name := by
    funext name counter
    rw [Site.totals, site.total_of_stored rfl]
  have first := site.begun_prefix trust.enter model rules subject entry
    (model.noPermissions site.config)
  refine ⟨_, _, fun log ends => evaluates_iff, ?_, fun levels => ?_, ?_, first.1, ?_, ?_⟩
  · exact site.startFrom_evaluateNested 0 model subject entry trust
  · exact site.startFrom_evaluateNested levels model subject entry trust
  · rw [totals]
  · exact fun perms => first.2 perms
  · intro inside trusted name counter log rows
    rw [counts_iff trusted, site.total_of_stored rfl]

end Warden
