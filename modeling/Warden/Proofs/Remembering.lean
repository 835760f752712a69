import Warden.Proofs.Questions
/-! # What a record remembers
A record that has found permissions keeps them until its subject changes, whatever becomes of its
row. Between two changes of the subject its life consists of questions and of changes of the row
(`Guarded.Event`). Afterwards the record either remembers nothing, and answers as a copy does, or it
remembers what was found by the **first** question that found anything, for the row as it was then
(`Guarded.memo_after`). Its answers are about the current row in either case, but what it remembers
counts (`Guarded.answers_after`).

Only an entry rule can tell one row from another. Where a model has none, and all questions are
asked at one depth of trusted execution, a record therefore answers as its copy does. -/

namespace Warden

/-! ## Rules that do not look at records -/

/-- A rule that is no entry rule does the same for every record. -/
theorem Rule.script_of_no_entry {S Q : Type} {rule : Rule S Q} (blind : ∀ body, rule ≠ .entry body)
    (subject : S) (one other : Option Row) :
    rule.script subject one = rule.script subject other := by
  cases rule with
  | plain body => rfl
  | subject body => rfl
  | entry body => exact absurd rfl (blind body)

/-- So do several of them. -/
theorem Rule.runAll_of_no_entry {S Q : Type} {census : Census S} {rules : List (Rule S Q)}
    (blind : ∀ rule ∈ rules, ∀ body, rule ≠ .entry body) (subject : S) (one other : Option Row)
    (perms : Permissions Q) :
    runAll census rules subject one perms = runAll census rules subject other perms := by
  induction rules generalizing perms with
  | nil => rfl
  | cons rule rest ih =>
    rw [runAll, runAll, rule.script_of_no_entry (blind rule List.mem_cons_self) subject one other]
    exact bind_congr fun filled =>
      ih (fun later mem => blind later (List.mem_cons_of_mem _ mem)) filled

/-- Without entry rules permissions are the same for every record. -/
theorem Site.evaluate_of_no_entry {S Q : Type} [Query Q] {site : Site S Q} {model : Model}
    (blind : ∀ rule ∈ site.book.rules model.rules, ∀ body, rule ≠ .entry body) (subject : S)
    (one other : Option Row) :
    site.evaluate model subject one = site.evaluate model subject other := by
  rw [evaluate_of_rules rfl, evaluate_of_rules rfl,
    Rule.runAll_of_no_entry blind subject one other]

namespace Guarded

variable {S Q : Type} [Query Q] {site : Site S Q} {model : Model} {subject : S}
  {record : Guarded S Q} {trust : Trust}

/-! ## Events -/

/-- What may happen to a record while it stays bound to one subject. -/
inductive Event where
  /-- A question is asked, at a depth of trusted execution. -/
  | asked (question : Question) (trust : Trust)
  /-- The row is changed without any check. -/
  | changed (change : Row → Row)

/-- What an event leaves of a record. -/
def Event.apply (site : Site S Q) (record : Guarded S Q) : Event → Guarded S Q
  | .asked question trust => ((question.ask site).startFrom record trust).1.2
  | .changed change => record.modifyRow change

/-- What several events leave of a record. -/
def after (site : Site S Q) (record : Guarded S Q) (events : List Event) : Guarded S Q :=
  events.foldl (Event.apply site) record

/-- What an event makes of a row. -/
def Event.change : Event → Row → Row
  | .asked _ _, row => row
  | .changed change, row => change row

/-- What several events make of a row. -/
def rowAfter (row : Row) (events : List Event) : Row :=
  events.foldl (fun row event => event.change row) row

/-- A question leaves a record that keeps what was found. -/
theorem apply_asked (question : Question) (record : Guarded S Q) (trust : Trust) :
    (Event.asked question trust).apply site record =
      record.keeping (record.found site question.isStrict trust) := by
  rw [Event.apply, startFrom_ask]
  rfl

/-- **One event** changes the row as it says, and neither the model nor the subject. -/
theorem clone_apply (site : Site S Q) (event : Event) (record : Guarded S Q) :
    (event.apply site record).clone = record.clone.modifyRow event.change := by
  cases event with
  | asked question trust =>
    rw [apply_asked, clone, Binding.forget, keeping, Binding.restriction_keeping]
    rfl
  | changed change => rfl

theorem model_apply (site : Site S Q) (event : Event) (record : Guarded S Q) :
    (event.apply site record).model = record.model := by
  have copy := congrArg Guarded.model (clone_apply site event record)
  exact copy

theorem row_after_apply (site : Site S Q) (event : Event) (record : Guarded S Q) :
    (event.apply site record).row = event.change record.row := by
  have copy := congrArg Guarded.row (clone_apply site event record)
  exact copy

theorem restriction_apply (site : Site S Q) (event : Event) (record : Guarded S Q) :
    (event.apply site record).binding.restriction = record.binding.restriction := by
  have copy := congrArg (fun record => record.binding.restriction) (clone_apply site event record)
  exact copy

/-- **Several events** change the row as they say, and neither the model nor the subject: a copy
shows nothing else of them. -/
theorem clone_after (record : Guarded S Q) (events : List Event) :
    (record.after site events).clone = record.clone.modifyRow fun row => rowAfter row events := by
  induction events generalizing record with
  | nil => rfl
  | cons event rest ih =>
    rw [after, List.foldl_cons, ← after, ih, clone_apply]
    rfl

/-! ## What is remembered -/

/-- What is known of a subject stays known, whatever happens. -/
theorem memo_after_of_known {perms : Permissions Q}
    (bound : record.binding.restriction = .bound subject)
    (known : record.binding.memo = some perms) (events : List Event) :
    (record.after site events).binding.memo = some perms := by
  induction events generalizing record with
  | nil => exact known
  | cons event rest ih =>
    rw [after, List.foldl_cons, ← after]
    refine ih ((restriction_apply site event record).trans bound) ?_
    cases event with
    | asked question trust =>
      rw [apply_asked]
      rcases found : record.found site question.isStrict trust with panic | _ | other
      · exact known
      · exact known
      · -- What is found is what was known.
        obtain ⟨-, -, before | ⟨unknown, -⟩⟩ := Binding.of_found found
        · cases known.symm.trans before
          rfl
        · cases known.symm.trans unknown
    | changed change => exact known

/-- The permissions that a record **recalls** after events are those that were evaluated for the
first question that found any, and for the row as it was then. -/
inductive Recalls (site : Site S Q) (record : Guarded S Q) (subject : S) :
    List Event → Permissions Q → Prop where
  /-- Before the question nothing was known. -/
  | first {perms : Permissions Q} (before : List Event) (question : Question) (trust : Trust)
    (later : List Event) (unknown : (record.after site before).binding.memo = none)
    (evaluated : ((site.evaluate record.model subject
      (some (rowAfter record.row before))).startFrom trust).1 = .ok perms) :
    Recalls site record subject (before ++ .asked question trust :: later) perms

/-- What is recalled after an event that told nothing is recalled. -/
theorem Recalls.cons {event : Event} {events : List Event} {perms : Permissions Q}
    (recalls : Recalls site (event.apply site record) subject events perms) :
    Recalls site record subject (event :: events) perms := by
  obtain ⟨before, question, trust, later, stillUnknown, evaluated⟩ := recalls
  rw [model_apply, row_after_apply] at evaluated
  exact .first (event :: before) question trust later stillUnknown evaluated

/-- **What is known** of a subject of whom nothing was known is recalled. -/
theorem memo_after (bound : record.binding.restriction = .bound subject)
    (unknown : record.binding.memo = none) (events : List Event) :
    (record.after site events).binding.memo = none ∨
      ∃ perms, (record.after site events).binding.memo = some perms ∧
        Recalls site record subject events perms := by
  -- By induction from the front: until an event finds anything the record knows as little as at the
  -- start, and from then on it knows that for good.
  induction events generalizing record with
  | nil => exact .inl unknown
  | cons event rest ih =>
    have stillBound := (restriction_apply site event record).trans bound
    cases memo : (event.apply site record).binding.memo with
    | none =>
      refine (ih stillBound memo).imp_right ?_
      rintro ⟨perms, known, recalls⟩
      exact ⟨perms, known, recalls.cons⟩
    | some perms =>
      refine .inr ⟨perms, memo_after_of_known stillBound memo rest, ?_⟩
      cases event with
      | changed change => cases unknown.symm.trans memo
      | asked question trust =>
        rw [apply_asked] at memo
        rcases Binding.memo_keeping memo with before | found
        · cases unknown.symm.trans before
        · obtain ⟨other, restriction, before | ⟨-, evaluated⟩⟩ := Binding.of_found found
          · cases unknown.symm.trans before
          · cases bound.symm.trans restriction
            exact .first [] question trust rest unknown evaluated

/-! ## What is answered -/

/-- The answer to a question. -/
def answerTo (site : Site S Q) (record : Guarded S Q) (question : Question) (trust : Trust) :
    Except Panic (question.Answer Q) :=
  ((question.ask site).startFrom record trust).1.1

omit [Query Q] in
/-- A record of which nothing is known is its own copy. -/
theorem clone_of_unknown (unknown : record.binding.memo = none) : record.clone = record := by
  obtain ⟨model, row, restriction, memo⟩ := record
  cases unknown
  rfl

/-- An answer is found by what is known. -/
theorem answerTo_of_known {perms : Permissions Q} (question : Question)
    (bound : record.binding.restriction = .bound subject)
    (sought : question.isStrict = true ∨ trust.isActive = false)
    (known : record.binding.memo = some perms) :
    record.answerTo site question trust =
      ((question.answer site record.model record.row (some perms)).startFrom trust).1 := by
  rw [answerTo, startFrom_ask, outcome, found, Binding.found_of_known bound sought known]
  rfl

/-- Where nothing is known, it is found by what is evaluated. -/
theorem answerTo_of_unknown {perms : Permissions Q} (question : Question)
    (bound : record.binding.restriction = .bound subject)
    (sought : question.isStrict = true ∨ trust.isActive = false)
    (unknown : record.binding.memo = none)
    (evaluated : ((site.evaluate record.model subject (some record.row)).startFrom trust).1 =
      .ok perms) :
    record.answerTo site question trust =
      ((question.answer site record.model record.row (some perms)).startFrom trust).1 := by
  rw [answerTo, startFrom_ask, outcome, found, Binding.found_of_unknown bound sought unknown,
    evaluated]
  rfl

/-- Where nothing is sought, it does not matter what is known. -/
theorem answerTo_of_unsought (question : Question) (lax : question.isStrict = false)
    (trusted : trust.isActive = true) :
    record.answerTo site question trust =
      ((question.answer site record.model record.row none).startFrom trust).1 := by
  rw [answerTo, startFrom_ask, outcome, lax, found, Binding.found_of_trusted trusted]
  rfl

/-- **What was found first decides.** After any events in the life of a record that was bound afresh
to a subject:

* a copy is the record of the current row, as if nothing had been asked;
* the record either is that copy, or it remembers what was evaluated for the first question that
  found anything, with the row as it was then, and answers by that about the current row;
* where permissions are not sought, the record answers as the copy does;
* it also does wherever what it remembers is what an evaluation for the current row comes to;
* hence it always does if the model has no entry rules and every question was asked at the depth of
  trusted execution at which the next one is. -/
theorem answers_after (site : Site S Q) (model : Model) (row : Row) (subject : S)
    (events : List Event) (question : Question) (trust : Trust) :
    let fresh : Guarded S Q := Guarded.inheriting model row (.bound subject)
    let now := fresh.after site events
    let current := rowAfter row events
    let evaluated (row : Row) (trust : Trust) :=
      ((site.evaluate model subject (some row)).startFrom trust).1
    let sought := question.isStrict = true ∨ trust.isActive = false
    now.clone = Guarded.inheriting model current (.bound subject) ∧
    (now = now.clone ∨ ∃ perms, now.binding.memo = some perms ∧
      Recalls site fresh subject events perms ∧
      (sought → now.answerTo site question trust =
        ((question.answer site model current (some perms)).startFrom trust).1)) ∧
    (¬ sought → now.answerTo site question trust = now.clone.answerTo site question trust) ∧
    ((∀ perms, Recalls site fresh subject events perms → evaluated current trust = .ok perms) →
      now.answerTo site question trust = now.clone.answerTo site question trust) ∧
    ((∀ rule ∈ site.book.rules model.rules, ∀ body, rule ≠ .entry body) →
      (∀ other depth, .asked other depth ∈ events → depth = trust) →
      now.answerTo site question trust = now.clone.answerTo site question trust) := by
  intro fresh now current evaluated sought
  have copy : now.clone = Guarded.inheriting model current (.bound subject) :=
    clone_after fresh events
  -- The model, the row and the subject of a record are those of its copy.
  have isModel : now.model = model := by
    have same := congrArg Guarded.model copy
    exact same
  have isRow : now.row = current := by
    have same := congrArg Guarded.row copy
    exact same
  have bound : now.binding.restriction = .bound subject := by
    have same := congrArg (fun record => record.binding.restriction) copy
    exact same
  have remembers : now.binding.memo = none ∨ ∃ perms, now.binding.memo = some perms ∧
      Recalls site fresh subject events perms := memo_after rfl rfl events
  -- Where permissions are not sought, the answer is found without looking at what is remembered.
  have unsoughtSame : ¬ sought →
      now.answerTo site question trust = now.clone.answerTo site question trust := by
    intro unsought
    obtain ⟨strict, untrusted⟩ := not_or.mp unsought
    have lax := Bool.eq_false_iff.mpr strict
    have trusted := Bool.of_not_eq_false untrusted
    rw [answerTo_of_unsought question lax trusted, answerTo_of_unsought question lax trusted]
    rfl
  have agrees : (∀ perms, Recalls site fresh subject events perms →
      evaluated current trust = .ok perms) →
      now.answerTo site question trust = now.clone.answerTo site question trust := by
    intro same
    rcases remembers with unknown | ⟨perms, known, recalls⟩
    · rw [clone_of_unknown unknown]
    -- The copy evaluates for the current row what the record remembers.
    by_cases isSought : sought
    · rw [answerTo_of_known question bound isSought known, copy,
        answerTo_of_unknown question rfl isSought rfl (same perms recalls), isModel, isRow]
      rfl
    · exact unsoughtSame isSought
  refine ⟨copy, ?_, unsoughtSame, agrees, ?_⟩
  · rcases remembers with unknown | ⟨perms, known, recalls⟩
    · exact .inl (clone_of_unknown unknown).symm
    · refine .inr ⟨perms, known, recalls, fun isSought => ?_⟩
      rw [answerTo_of_known question bound isSought known, isModel, isRow]
  · intro blind depths
    -- The evaluation that is recalled was for another row, but rules see no row.
    refine agrees fun perms recalls => ?_
    obtain ⟨before, other, depth, later, -, found⟩ := recalls
    cases depths other depth (by simp)
    rw [← found]
    exact congrArg (fun evaluation => (evaluation.startFrom trust).1)
      (Site.evaluate_of_no_entry blind subject _ _)

/-- Notes may be destroyed by their owners. -/
def ownersDestroy : Site String Unit :=
  { book := RuleBook.empty.create.1.register 0 (.entry fun user entry =>
      match entry.bind fun row => row.get? "owner" with
      | some (.string owner) => if owner = user then .grant .destroy [] else .done
      | _ => .done) }

/-- Alice's note is handed over to Bob. Alice, who asked before whether she may destroy it, still
may; of a copy of the note she may not. -/
theorem answers_after_handed_over :
    let model : Model := { table := Table.withFields "notes" ["owner"], rules := 0 }
    let note : Guarded String Unit :=
      Guarded.inheriting model (Row.stored [("owner", .string "alice")]) (.bound "alice")
    let now := note.after ownersDestroy
      [.asked .allowsDestroy {}, .changed fun row => row.set "owner" (.string "bob")]
    now.answerTo ownersDestroy .allowsDestroy {} = .ok true ∧
      now.clone.answerTo ownersDestroy .allowsDestroy {} = .ok false := by
  intro model note now
  let granted : Permissions Unit := { model.noPermissions {} with destroyable := true }
  let bobs : Row := (Row.stored [("owner", .string "alice")]).set "owner" (.string "bob")
  let copy : Guarded String Unit := Guarded.inheriting model bobs (.bound "alice")
  let kept : Binding String Unit := { restriction := .bound "alice", memo := some granted }
  have rules : ownersDestroy.book.rules model.rules = _ := RuleBook.rules_of_root rfl
  -- When Alice asks, the note is hers.
  have before : ((ownersDestroy.evaluate model "alice" (some note.row)).startFrom {}).1 =
      .ok granted := by
    rw [Site.evaluate_of_rules rules]
    rfl
  -- When the copy is asked, it is Bob's.
  have after : ((ownersDestroy.evaluate copy.model "alice" (some copy.row)).startFrom {}).1 =
      .ok (model.noPermissions {}) := by
    rw [show copy.model = model from rfl, Site.evaluate_of_rules rules]
    rfl
  have found : note.found ownersDestroy false {} = .ok (some granted) :=
    (Binding.found_of_unknown rfl (.inr rfl) rfl).trans (congrArg (Except.map some) before)
  have asked : (Event.asked .allowsDestroy {}).apply ownersDestroy note =
      { note with binding := kept } := by
    rw [apply_asked, Question.isStrict, found]
    rfl
  have same : now = { copy with binding := kept } :=
    congrArg (fun record => record.modifyRow fun row => row.set "owner" (.string "bob")) asked
  have bound : now.binding.restriction = .bound "alice" := by rw [same]
  have known : now.binding.memo = some granted := by rw [same]
  have copied : now.clone = copy := by
    rw [same]
    rfl
  constructor
  · rw [answerTo_of_known .allowsDestroy bound (.inr rfl) known]
    rfl
  · rw [copied, answerTo_of_unknown .allowsDestroy rfl (.inr rfl) rfl after]
    rfl

end Guarded

end Warden
