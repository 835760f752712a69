import Warden.Proofs.Questions
import Warden.Proofs.WaryRules
/-! # Unwinding
Whatever needs permissions may panic, as rules and predicates may. However it ends, trusted
execution is **restored** to the depth at which it began, and all that rules and predicates did was
done deeper (`Site.unwinds`). For this records and relations are made as wary as the site, so that
the permissions that they know are wary too; no operation notices.

A rule that panics leaves nothing behind. The object is the same as before, so that it knows no
permissions, and whatever is done next evaluates all rules from the beginning. -/

namespace Warden

variable {S Q : Type} {limit : Nat} {message : String} {trust : Trust}

/-! ## Wary objects -/

/-- A binding that knows wary permissions if it knows any. -/
def Binding.wary (limit : Nat) (message : String) (binding : Binding S Q) : Binding S Q :=
  { binding with memo := binding.memo.map (Permissions.wary limit message) }

/-- A record that knows wary permissions if it knows any. -/
def Guarded.wary (limit : Nat) (message : String) (record : Guarded S Q) : Guarded S Q :=
  { record with binding := record.binding.wary limit message }

/-- A relation that knows wary permissions if it knows any. -/
def Relation.wary (limit : Nat) (message : String) (rel : Relation S Q) : Relation S Q :=
  { rel with binding := rel.binding.wary limit message }

/-- A wary binding finds wary permissions. -/
theorem Binding.found_wary {binding : Binding S Q}
    {evaluate evaluateWary : S → Run (Permissions Q)}
    (same : ∀ subject, ((evaluateWary subject).startFrom trust).1 =
      ((evaluate subject).startFrom trust).1.map (Permissions.wary limit message))
    (strictly : Bool) :
    (binding.wary limit message).found evaluateWary strictly trust =
      (binding.found evaluate strictly trust).map
        (Option.map (Permissions.wary limit message)) := by
  obtain ⟨restriction, memo⟩ := binding
  cases restriction with
  | unbound => rfl
  | bound subject =>
    rw [found, found]
    dsimp only [wary]
    split
    · rfl
    · cases memo with
      | some perms => rfl
      | none =>
        dsimp only [Option.map_none]
        rw [same subject]
        cases ((evaluate subject).startFrom trust).1 <;> rfl

/-- A wary binding keeps what it finds. -/
theorem Binding.keeping_wary (binding : Binding S Q)
    (found : Except Panic (Option (Permissions Q))) :
    (binding.wary limit message).keeping
        (found.map (Option.map (Permissions.wary limit message))) =
      (binding.keeping found).wary limit message := by
  rcases found with _ | _ | _ <;> rfl

/-! ## Answers -/

namespace Guarded

theorem shown_wary (model : Model) (row : Row) (found : Option (Permissions Q)) (field : String) :
    shown model row (found.map (Permissions.wary limit message)) field =
      shown model row found field := by
  cases found with
  | none => rfl
  | some perms =>
    rw [Option.map_some, shown, shown, Permissions.isReadable_wary]

theorem shownEach_wary (model : Model) (row : Row) (found : Option (Permissions Q))
    (fields : List String) :
    shownEach model row (found.map (Permissions.wary limit message)) fields =
      shownEach model row found fields := by
  induction fields with
  | nil => rfl
  | cons field rest ih => rw [shownEach, shownEach, shown_wary, ih]

/-- A check at the limit does not notice that permissions are wary. -/
theorem checked_wary {check : Permissions Q → Run Bool} (found : Option (Permissions Q))
    (same : ∀ perms, (check (Permissions.wary limit message perms)).startFrom trust =
      (check perms).startFrom trust) :
    (checked (found.map (Permissions.wary limit message)) check).startFrom trust =
      (checked found check).startFrom trust := by
  cases found with
  | none => rfl
  | some perms =>
    rw [Option.map_some, checked, checked, Run.startFrom_bind, same, Run.startFrom_bind]

/-- The answer to a question with wary permissions, if it tells permissions. -/
def Question.waryAnswer (limit : Nat) (message : String) :
    (question : Question) → question.Answer Q → question.Answer Q
  | .permissions, answer => answer.map (Permissions.wary limit message)
  | .read _, answer => answer
  | .readableValues, answer => answer
  | .creatable, answer => answer
  | .updatable, answer => answer
  | .destroyable, answer => answer
  | .allows _ _, answer => answer
  | .validate _, answer => answer
  | .allowsDestroy, answer => answer
  | .visible, answer => answer

/-- **An answer at the limit** is the same by wary permissions. -/
theorem answer_wary [Query Q] (site : Site S Q) (within : limit ≤ trust.depth) (model : Model)
    (row : Row) (found : Option (Permissions Q)) (question : Question) :
    ((question.answer (site.wary limit message) model row
        (found.map (Permissions.wary limit message))).startFrom trust).1 =
      ((question.answer site model row found).startFrom trust).1.map
        (question.waryAnswer limit message) := by
  -- Only the question for permissions has an answer that can be wary itself.
  have unchanged {α : Type} (outcome : Except Panic α) : outcome = outcome.map fun a => a := by
    cases outcome <;> rfl
  cases question with
  | permissions => cases found <;> rfl
  | read field => exact congrArg Except.ok (shown_wary model row found field)
  | readableValues => exact congrArg Except.ok (shownEach_wary model row found model.fields)
  | creatable =>
    refine Eq.trans ?_ (unchanged _)
    exact congrArg Prod.fst (checked_wary found fun perms =>
      perms.isModifiable_wary within .create row.changes)
  | updatable =>
    refine Eq.trans ?_ (unchanged _)
    exact congrArg Prod.fst (checked_wary found fun perms =>
      perms.isModifiable_wary within .update row.changes)
  | destroyable => cases found <;> rfl
  | allows action field =>
    cases found with
    | none => rfl
    | some perms =>
      exact congrArg (fun allowed => Except.ok (Except.ok allowed)) (perms.allows_wary action field)
  | validate lookup =>
    refine Eq.trans ?_ (unchanged _)
    cases found with
    | none => rfl
    | some perms =>
      dsimp only [Option.map_some, Question.answer]
      rw [Run.startFrom_bind, perms.firstUnmodifiable_wary within, Run.startFrom_bind]
  | allowsDestroy => cases found <;> rfl
  | visible => cases found <;> rfl

/-! ## Operations on records -/

/-- An **operation** on a record asks or assigns. -/
inductive Operation where
  /-- A question is asked. -/
  | ask (question : Question)
  /-- The values that the subject may write are assigned. -/
  | assign (values : FieldValues)

namespace Operation

/-- What an operation returns. -/
abbrev Answer (Q : Type) : Operation → Type
  | .ask question => question.Answer Q
  | .assign _ => List String

/-- Whether an operation needs permissions even in trusted execution. -/
def isStrict : Operation → Bool
  | .ask question => question.isStrict
  | .assign _ => false

/-- Perform an operation. -/
def perform [Query Q] (site : Site S Q) :
    (operation : Operation) → RunOn (Guarded S Q) (operation.Answer Q)
  | .ask question => question.ask site
  | .assign values => assignPermitted site values

/-- What an operation returns, with wary permissions if it returns permissions. -/
def waryAnswer (limit : Nat) (message : String) :
    (operation : Operation) → operation.Answer Q → operation.Answer Q
  | .ask question, answer => question.waryAnswer limit message answer
  | .assign _, answer => answer

end Operation

variable [Query Q] {site : Site S Q} {record : Guarded S Q}

/-- A wary record finds wary permissions. -/
theorem found_wary (site : Site S Q) (within : limit ≤ trust.depth) (strictly : Bool)
    (record : Guarded S Q) :
    (record.wary limit message).found (site.wary limit message) strictly trust =
      (record.found site strictly trust).map (Option.map (Permissions.wary limit message)) :=
  Binding.found_wary (fun subject =>
    congrArg Prod.fst (site.evaluate_wary within record.model subject (some record.row))) strictly

omit [Query Q] in
/-- The values are sorted in the same way. -/
theorem sorted_wary (site : Site S Q) (row : Row) (values : FieldValues)
    (found : Option (Permissions Q)) :
    sorted (site.wary limit message) row values (found.map (Permissions.wary limit message)) =
      sorted site row values found := by
  cases found with
  | none => rfl
  | some perms =>
    dsimp only [Option.map_some, sorted]
    simp only [Permissions.allows_wary, Permissions.permitted_wary]
    rfl

/-- **An operation** leaves trusted execution as it was. -/
theorem perform_restores (operation : Operation) (record : Guarded S Q) (trust : Trust) :
    ((operation.perform site).startFrom record trust).2 = trust := by
  cases operation with
  | ask question =>
    rw [Operation.perform, startFrom_ask]
    rfl
  | assign values =>
    rw [Operation.perform, startFrom_assignPermitted]
    cases record.found site false trust <;> rfl

/-- **An operation at the limit** does not notice that rules and predicates are wary. -/
theorem perform_wary (site : Site S Q) (within : limit ≤ trust.depth) (operation : Operation)
    (record : Guarded S Q) :
    (operation.perform (site.wary limit message)).startFrom (record.wary limit message) trust =
      let performed := (operation.perform site).startFrom record trust
      ((performed.1.1.map (operation.waryAnswer limit message),
        performed.1.2.wary limit message), trust) := by
  cases operation with
  | ask question =>
    rw [Operation.perform, Operation.perform, startFrom_ask, startFrom_ask, outcome, outcome,
      found_wary site within]
    have kept : (record.wary limit message).keeping ((record.found site question.isStrict trust).map
        (Option.map (Permissions.wary limit message))) =
        (record.keeping (record.found site question.isStrict trust)).wary limit message :=
      congrArg (fun binding => { record with binding }) (record.binding.keeping_wary _)
    dsimp only
    rw [kept]
    rcases record.found site question.isStrict trust with panic | found
    · rfl
    · exact congrArg (fun answer => ((answer, _), trust))
        (answer_wary site within record.model record.row found question)
  | assign values =>
    rw [Operation.perform, Operation.perform, startFrom_assignPermitted,
      startFrom_assignPermitted, found_wary site within]
    rcases record.found site false trust with panic | found
    · rfl
    · have kept : (record.wary limit message).keeping
          (.ok (found.map (Permissions.wary limit message))) =
          (record.keeping (.ok found)).wary limit message :=
        congrArg (fun binding => { record with binding }) (record.binding.keeping_wary (.ok found))
      dsimp only [Except.map]
      rw [kept, show (record.wary limit message).row = record.row from rfl, sorted_wary]
      rfl

/-- If finding permissions panics, an operation leaves the record as it was. -/
theorem perform_of_panic {operation : Operation} {panic : Panic}
    (panicked : record.found site operation.isStrict trust = .error panic) :
    (operation.perform site).startFrom record trust = ((.error panic, record), trust) := by
  cases operation with
  | ask question =>
    have asked : record.found site question.isStrict trust = .error panic := panicked
    rw [Operation.perform, startFrom_ask, outcome, asked]
    rfl
  | assign values =>
    have enforced : record.found site false trust = .error panic := panicked
    rw [Operation.perform, startFrom_assignPermitted, enforced]

/-- After an operation that found permissions the record knows them. -/
theorem memo_perform {operation : Operation} {perms : Permissions Q}
    (finds : record.found site operation.isStrict trust = .ok (some perms)) :
    ((operation.perform site).startFrom record trust).1.2.binding.memo = some perms := by
  cases operation with
  | ask question =>
    have asked : record.found site question.isStrict trust = .ok (some perms) := finds
    rw [Operation.perform, startFrom_ask, outcome, asked]
    rfl
  | assign values =>
    have enforced : record.found site false trust = .ok (some perms) := finds
    rw [Operation.perform, startFrom_assignPermitted, enforced]
    rfl

end Guarded

/-! ## Operations on relations -/

namespace Relation

/-- The answer to a question with wary permissions, if it tells permissions. -/
def Question.waryAnswer (limit : Nat) (message : String) :
    (question : Question) → question.Answer S Q → question.Answer S Q
  | .permissions, answer => answer.map (Permissions.wary limit message)
  | .query, answer => answer
  | .count, answer => answer
  | .hasRows, answer => answer
  | .fetch, answer => answer
  | .build _, answer => answer

variable [Query Q] {site : Site S Q}

/-- A wary relation wants the same rows. -/
theorem wanted_wary (rel : Relation S Q) (found : Option (Permissions Q)) :
    (rel.wary limit message).wanted (found.map (Permissions.wary limit message)) =
      rel.wanted found := by
  cases found <;> rfl

/-- **An answer** is the same by wary permissions. -/
theorem answer_wary (site : Site S Q) (rel : Relation S Q) (found : Option (Permissions Q))
    (question : Question) :
    question.answer (site.wary limit message) (rel.wary limit message)
        (found.map (Permissions.wary limit message)) =
      question.waryAnswer limit message (question.answer site rel found) := by
  cases question with
  | permissions => cases found <;> rfl
  | query => exact rel.wanted_wary found
  | count =>
    exact congrArg (fun query => (site.store.count query).getD 0) (rel.wanted_wary found)
  | hasRows =>
    exact congrArg (fun query => decide (0 < (site.store.count query).getD 0))
      (rel.wanted_wary found)
  | fetch =>
    exact congrArg (fun query => (site.store.fetch query).map fun row =>
      Guarded.inheriting rel.model row rel.binding.restriction) (rel.wanted_wary found)
  | build values =>
    cases found with
    | none => rfl
    | some perms =>
      dsimp only [Option.map_some, Question.answer, Option.elim_some]
      rw [perms.permitted_wary]
      rfl

/-- **A question at the limit** does not notice that rules and predicates are wary. -/
theorem ask_wary (site : Site S Q) (within : limit ≤ trust.depth) (question : Question)
    (rel : Relation S Q) :
    (question.ask (site.wary limit message)).startFrom (rel.wary limit message) trust =
      let asked := (question.ask site).startFrom rel trust
      ((asked.1.1.map (question.waryAnswer limit message), asked.1.2.wary limit message),
        trust) := by
  have found : (rel.wary limit message).found (site.wary limit message) question.isStrict trust =
      (rel.found site question.isStrict trust).map (Option.map (Permissions.wary limit message)) :=
    Binding.found_wary (fun subject =>
      congrArg Prod.fst (site.evaluate_wary within rel.model subject none)) question.isStrict
  have kept : (rel.wary limit message).keeping ((rel.found site question.isStrict trust).map
      (Option.map (Permissions.wary limit message))) =
      (rel.keeping (rel.found site question.isStrict trust)).wary limit message :=
    congrArg (fun binding => { rel with binding }) (rel.binding.keeping_wary _)
  rw [startFrom_ask, startFrom_ask, outcome, outcome, found]
  dsimp only
  rw [kept]
  rcases rel.found site question.isStrict trust with panic | found
  · rfl
  · exact congrArg (fun answer => ((Except.ok answer, _), trust))
      (answer_wary site rel found question)

end Relation

/-! ## Panicking rules -/

section Rules

variable {census : Census S}

/-- Rules in two parts run one part after the other. -/
theorem Rule.runAll_append (first second : List (Rule S Q)) (subject : S) (entry : Option Row)
    (perms : Permissions Q) :
    runAll census (first ++ second) subject entry perms =
      runAll census first subject entry perms >>= runAll census second subject entry := by
  induction first generalizing perms with
  | nil => exact (pure_bind _ _).symm
  | cons rule rest ih =>
    rw [List.cons_append, runAll, runAll, bind_assoc]
    exact bind_congr fun filled => ih filled

/-- Running rules panics iff one of them does after those before it have run. -/
theorem Rule.runAll_eq_error_iff (steady : ∀ name subject, (census name subject).Steady)
    {rules : List (Rule S Q)} {subject : S} {entry : Option Row} {perms : Permissions Q}
    {panic : Panic} :
    ((runAll census rules subject entry perms).startFrom trust).1 = .error panic ↔
      ∃ before rule after filled, rules = before ++ rule :: after ∧
        ((runAll census before subject entry perms).startFrom trust).1 = .ok filled ∧
        (((rule.script subject entry).run census filled).startFrom trust).1 = .error panic := by
  constructor
  · intro panicked
    -- By induction on the rules: the first one panics, or it passes and the panic comes later.
    induction rules generalizing perms with
    | nil => cases panicked
    | cons rule rest ih =>
      have ran := Script.steady_run steady (rule.script subject entry) perms
      rw [runAll, ran.startFrom_bind] at panicked
      cases first : (((rule.script subject entry).run census perms).startFrom trust).1 with
      | error other =>
        rw [first] at panicked
        cases panicked
        exact ⟨[], rule, rest, perms, rfl, rfl, first⟩
      | ok between =>
        rw [first] at panicked
        obtain ⟨before, later, after, filled, rfl, passed, panics⟩ := ih panicked
        refine ⟨rule :: before, later, after, filled, rfl, ?_, panics⟩
        rw [runAll, ran.startFrom_bind, first]
        exact passed
  · rintro ⟨before, rule, after, filled, rfl, passed, panics⟩
    have ran := Script.steady_run steady (rule.script subject entry) filled
    rw [runAll_append, (steady_runAll steady before subject entry perms).startFrom_bind, passed]
    show ((runAll census (rule :: after) subject entry filled).startFrom trust).1 = _
    rw [runAll, ran.startFrom_bind, panics]

end Rules

namespace Site

variable [Query Q]

/-- Run rules on the permissions of a model before any rule has run. -/
def runRules (site : Site S Q) (model : Model) (rules : List (Rule S Q)) (subject : S)
    (entry : Option Row) : Run (Permissions Q) :=
  Rule.runAll (site.censusBy (site.evaluateNested 0)) rules subject entry
    (model.noPermissions site.config)

/-- A rule of a model **panics** in an evaluation if it does so on what the rules before it have
filled. -/
inductive RulePanics (site : Site S Q) (model : Model) (subject : S) (entry : Option Row)
    (trust : Trust) (panic : Panic) : Prop where
  /-- Some rules have run, and the next one panics. -/
  | next {filled : Permissions Q} (before : List (Rule S Q)) (rule : Rule S Q)
    (after : List (Rule S Q)) (listed : site.book.rules model.rules = before ++ rule :: after)
    (ran : ((site.runRules model before subject entry).startFrom trust.enter).1 = .ok filled)
    (panicked : (((rule.script subject entry).run (site.censusBy (site.evaluateNested 0))
      filled).startFrom trust.enter).1 = .error panic)

/-- **An evaluation panics** iff one of the rules does. -/
theorem evaluate_eq_error_iff {site : Site S Q} {model : Model} {subject : S} {entry : Option Row}
    {panic : Panic} :
    ((site.evaluate model subject entry).startFrom trust).1 = .error panic ↔
      site.RulePanics model subject entry trust panic := by
  rw [evaluate_of_rules rfl, Run.startFrom_insecurely,
    Rule.runAll_eq_error_iff (site.steady_censusBy (site.steady_evaluateNested 0))]
  constructor
  · rintro ⟨before, rule, after, filled, listed, ran, panicked⟩
    exact .next before rule after listed ran panicked
  · rintro ⟨before, rule, after, listed, ran, panicked⟩
    exact ⟨before, rule, after, _, listed, ran, panicked⟩

/-- **Trusted execution is restored, and nothing half done survives a panic.** Wherever it begins:

* evaluating permissions, an operation on a record and a question about a relation end at the depth
  at which they began, whether they return or panic;
* they come to the same if everything is wary of that depth, whatever the text that a wary rule or
  predicate would panic with, so that each step of a rule and each predicate runs deeper;
* if a rule panics while the permissions of a bound object are worked out, the object is what it was
  before, and the next operation that needs permissions runs all rules from the beginning and keeps
  what they come to. -/
theorem unwinds (site : Site S Q) (trust : Trust) :
    (∀ model subject entry,
      let evaluated (site : Site S Q) := (site.evaluate model subject entry).startFrom trust
      (evaluated site).2 = trust ∧
      ∀ message, evaluated (site.wary trust.depth message) =
        ((evaluated site).1.map (Permissions.wary trust.depth message), trust)) ∧
    (∀ (record : Guarded S Q) (operation : Guarded.Operation),
      let performed := (operation.perform site).startFrom record trust
      performed.2 = trust ∧
      (∀ message, (operation.perform (site.wary trust.depth message)).startFrom
          (record.wary trust.depth message) trust =
        ((performed.1.1.map (operation.waryAnswer trust.depth message),
          performed.1.2.wary trust.depth message), trust)) ∧
      ∀ subject panic, record.binding = .fresh (.bound subject) →
        operation.isStrict = true ∨ trust.isActive = false →
        site.RulePanics record.model subject (some record.row) trust panic →
        performed = ((.error panic, record), trust) ∧
        ∀ (again : Guarded.Operation) later perms, again.isStrict = true ∨ later.isActive = false →
          ((site.runRules record.model (site.book.rules record.model.rules) subject
            (some record.row)).startFrom later.enter).1 = .ok perms →
          ((again.perform site).startFrom performed.1.2 later).1.2.binding.memo = some perms) ∧
    (∀ (rel : Relation S Q) (question : Relation.Question),
      let asked := (question.ask site).startFrom rel trust
      asked.2 = trust ∧
      (∀ message, (question.ask (site.wary trust.depth message)).startFrom
          (rel.wary trust.depth message) trust =
        ((asked.1.1.map (question.waryAnswer trust.depth message),
          asked.1.2.wary trust.depth message), trust)) ∧
      ∀ subject panic, rel.binding = .fresh (.bound subject) →
        question.isStrict = true ∨ trust.isActive = false →
        site.RulePanics rel.model subject none trust panic →
        asked = ((.error panic, rel), trust) ∧
        ∀ (again : Relation.Question) later perms, again.isStrict = true ∨ later.isActive = false →
          ((site.runRules rel.model (site.book.rules rel.model.rules) subject none).startFrom
            later.enter).1 = .ok perms →
          ((again.ask site).startFrom asked.1.2 later).1.2.binding.memo = some perms) := by
  refine ⟨fun model subject entry => ?_, fun record operation => ?_, fun rel question => ?_⟩
  · exact ⟨site.steady_evaluate model subject entry trust, fun message =>
      site.evaluate_wary le_rfl model subject entry⟩
  · refine ⟨Guarded.perform_restores operation record trust,
      fun message => Guarded.perform_wary site le_rfl operation record, ?_⟩
    -- The panic comes out of finding permissions, before anything is kept or assigned.
    intro subject panic fresh sought panics
    have found : record.found site operation.isStrict trust = .error panic :=
      Binding.found_of_panic fresh sought (evaluate_eq_error_iff.mpr panics)
    have performed := Guarded.perform_of_panic found
    refine ⟨performed, fun again later perms soughtAgain ran => ?_⟩
    -- So the record is as fresh as before, and the next operation finds what it evaluates itself.
    rw [performed]
    exact Guarded.memo_perform (Binding.found_of_evaluated fresh soughtAgain ran)
  · refine ⟨by rw [Relation.startFrom_ask]; rfl,
      fun message => Relation.ask_wary site le_rfl question rel, ?_⟩
    intro subject panic fresh sought panics
    have found : rel.found site question.isStrict trust = .error panic :=
      Binding.found_of_panic fresh sought (evaluate_eq_error_iff.mpr panics)
    have asked := Relation.ask_of_panic question found
    refine ⟨asked, fun again later perms soughtAgain ran => ?_⟩
    rw [asked]
    exact Relation.memo_ask again (Binding.found_of_evaluated fresh soughtAgain ran)

/-- The second of two rules panics when Alice asks what she may do with a note: she is told nothing,
and the note knows nothing. -/
theorem unwinds_aborted :
    let grants : Rule String Unit := .plain (.grant .read [])
    let aborts : Rule String Unit := .plain (.abort "rule failed")
    let site : Site String Unit :=
      { book := (RuleBook.empty.create.1.register 0 grants).register 0 aborts }
    let note : Guarded String Unit := Guarded.inheriting
      { table := Table.withFields "notes" ["title"], rules := 0 } (Row.stored []) (.bound "alice")
    note.binding = .fresh (.bound "alice") ∧
      site.RulePanics note.model "alice" (some note.row) {} ⟨"rule failed"⟩ ∧
      ((Guarded.Operation.ask .permissions).perform site).startFrom note {} =
        ((.error ⟨"rule failed"⟩, note), {}) := by
  intro grants aborts site note
  have rules : site.book.rules note.model.rules = [grants] ++ aborts :: [] :=
    RuleBook.rules_of_root rfl
  have panics : site.RulePanics note.model "alice" (some note.row) {} ⟨"rule failed"⟩ :=
    .next [grants] aborts [] rules rfl rfl
  obtain ⟨-, -, unharmed⟩ := (site.unwinds {}).2.1 note (.ask .permissions)
  exact ⟨rfl, panics, (unharmed "alice" ⟨"rule failed"⟩ rfl (.inl rfl) panics).1⟩

end Site

end Warden
