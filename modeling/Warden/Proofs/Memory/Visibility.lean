import Warden.Proofs.Memory.Batching
import Warden.Proofs.NumericOrder
import Warden.Proofs.Remembering
/-! # Seeing one row and seeing all rows
Whether its subject sees a record is asked of the store with the scope and the key of the record.
Which rows the subject sees is asked with the scope alone. Where no scope limits the number of rows
the two **agree**: a record is visible iff rows are not confined, or a row is fetched whose key
equals its own (`Guarded.visible_iff_fetched`). Keys that are large numbers may be confused, so that
this is said of keys that the store can tell apart (`Guarded.KeyToldApart`), and does not hold of
others (`Guarded.visible_beside_neighbour`).

A record answers by what it knows of its subject, though, and a relation that is bound afresh by
what the rules say now. So what the record knows has to be **up to date** (`Guarded.UpToDate`),
which it is unless a rule has come to another scope in between. A rule that counts rows may do so as
soon as a row is stored (`Guarded.hidden_after_insert`). -/

namespace Warden

/-- Outside trusted execution nothing is nested. -/
theorem Trust.eq_of_untrusted {trust : Trust} (untrusted : trust.isActive = false) :
    trust = {} := by
  obtain ⟨guards, scopes⟩ := trust
  have none : guards + scopes = 0 := Nat.eq_zero_of_not_pos (of_decide_eq_false untrusted)
  obtain ⟨rfl, rfl⟩ := Nat.add_eq_zero_iff.mp none
  rfl

/-- Whether rows are confined for a subject is told by what an evaluation comes to. -/
theorem Site.startFrom_isScopedFor {S Q : Type} [Query Q] (site : Site S Q) (model : Model)
    (subject : S) (trust : Trust) :
    ((site.isScopedFor model subject).startFrom trust).1 =
      ((site.evaluate model subject none).startFrom trust).1.map Permissions.isScoped := by
  unfold isScopedFor
  rw [Run.startFrom_bind]
  rcases (site.evaluate model subject none).startFrom trust with ⟨_ | _, after⟩ <;> rfl

namespace Guarded

variable {S : Type} {site : Site S MemoryQuery} {memory : Memory} {model : Model} {subject : S}
  {record : Guarded S MemoryQuery} {trust : Trust} {perms : Permissions MemoryQuery}
  {scopes : List (List Narrowing)}

/-! ## One row -/

/-- A record with a key is among the rows that permissions leave iff rows are not confined, or one
of those left has an equal key. -/
theorem isAmong_iff {row : Row} (stored : site.store = memory.store)
    (table : perms.table = model.table)
    (registered : perms.scopes = scopes.map fun scope query => query.narrowBy scope)
    (free : ∀ narrowing ∈ perms.confinement scopes, narrowing.limit? = none) :
    isAmong site model row perms = true ↔ perms.isScoped = false ∨
      ∃ key, row.get? model.table.primaryKey = some key ∧
        ∃ other ∈ Narrowing.results (perms.confinement scopes) (memory.rows model.name),
          MemoryQuery.hasValue model.table.primaryKey key other = true := by
  rw [isAmong, Permissions.relation]
  cases perms.isScoped with
  | false => exact ⟨fun _ => .inl rfl, fun _ => rfl⟩
  | true =>
    rw [if_pos rfl, or_iff_right Bool.false_ne_true.symm]
    cases keyed : row.get? model.table.primaryKey with
    | none =>
      refine iff_of_false Bool.false_ne_true ?_
      rintro ⟨key, missing, -⟩
      cases missing
    | some key =>
      -- The scope with the key is one more narrowing, and it is no limit either.
      let keyNarrowing : Narrowing := .hasValue model.table.primaryKey key
      have asked : Query.filterEq (perms.applyTo (Query.base perms.table)) model.table.primaryKey
          key = (Query.base model.table : MemoryQuery).narrowBy
            (perms.confinement scopes ++ [keyNarrowing]) := by
        rw [Permissions.applyTo_narrowBy registered, table, MemoryQuery.narrowBy_append]
        rfl
      have freeToo : ∀ narrowing ∈ perms.confinement scopes ++ [keyNarrowing],
          narrowing.limit? = none := by
        intro narrowing mem
        rcases List.mem_append.mp mem with scope | own
        · exact free narrowing scope
        · rw [List.mem_singleton.mp own]
          rfl
      have counted : (site.store.count (Query.filterEq (perms.applyTo (Query.base perms.table))
          model.table.primaryKey key)).getD 0 = (Narrowing.results
            (perms.confinement scopes ++ [keyNarrowing]) (memory.rows model.name)).length := by
        rw [asked, stored]
        exact (memory.getD_count _).trans (congrArg List.length (memory.select_narrowBy _ _))
      dsimp only
      rw [decide_eq_true_iff, counted, List.length_pos_iff_exists_mem,
        Narrowing.results_of_unlimited (Narrowing.unlimited_of_free free),
        Narrowing.results_of_unlimited (Narrowing.unlimited_of_free freeToo)]
      simp only [List.mem_filter, List.all_append, List.all_cons, List.all_nil, Bool.and_true,
        Bool.and_eq_true, Option.some.injEq, exists_eq_left', ← and_assoc]
      rfl

/-! ## What a record knows -/

/-- What a record knows of its subject is **up to date** if it confines rows as an evaluation for
the subject does now. A record that knows nothing is up to date. -/
def UpToDate (site : Site S MemoryQuery) (trust : Trust) (subject : S)
    (record : Guarded S MemoryQuery) : Prop :=
  ∀ known, record.binding.memo = some known →
    ∃ now, ((site.evaluate record.model subject none).startFrom trust).1 = .ok now ∧
      known.relation = now.relation

/-- What an evaluation came to outside trusted execution it comes to again, for any record, if no
rule looks at records. -/
theorem upToDate_of_recalled {record : Guarded S MemoryQuery} (before : Guarded S MemoryQuery)
    {events : List Event}
    (blind : ∀ rule ∈ site.book.rules record.model.rules, ∀ body, rule ≠ .entry body)
    (untrusted : trust.isActive = false) (sameModel : before.model = record.model)
    (outside : ∀ question depth, .asked question depth ∈ events → depth.isActive = false)
    (recalls : ∀ known, record.binding.memo = some known →
      Recalls site before subject events known) : record.UpToDate site trust subject := by
  intro known memo
  obtain ⟨earlier, question, depth, later, -, evaluated⟩ := recalls known memo
  have sameTrust : depth = trust :=
    (Trust.eq_of_untrusted (outside question depth (by simp))).trans
      (Trust.eq_of_untrusted untrusted).symm
  refine ⟨known, ?_, rfl⟩
  rw [← evaluated, sameTrust, sameModel,
    Site.evaluate_of_no_entry blind subject none (some (rowAfter before.row earlier))]

/-- **Whatever happens to a record** that is bound afresh, it stays up to date as long as questions
are asked outside trusted execution and no rule looks at records. -/
theorem upToDate_after
    (blind : ∀ rule ∈ site.book.rules model.rules, ∀ body, rule ≠ .entry body)
    (untrusted : trust.isActive = false) (row : Row) {events : List Event}
    (outside : ∀ question depth, .asked question depth ∈ events → depth.isActive = false) :
    ((Guarded.inheriting model row (.bound subject) : Guarded S MemoryQuery).after site
      events).UpToDate site trust subject := by
  let fresh : Guarded S MemoryQuery := Guarded.inheriting model row (.bound subject)
  have copy : (fresh.after site events).clone =
      fresh.clone.modifyRow fun row => rowAfter row events := clone_after fresh events
  have isModel : (fresh.after site events).model = model := by
    have same := congrArg Guarded.model copy
    exact same
  refine upToDate_of_recalled fresh (by rw [isModel]; exact blind) untrusted
    isModel.symm outside fun known memo => ?_
  have bound : fresh.binding.restriction = .bound subject := rfl
  rcases memo_after bound rfl events with
    unknown | ⟨perms, same, recalls⟩
  · cases unknown.symm.trans memo
  · cases same.symm.trans memo
    exact recalls

/-- Of a record that is up to date it is asked whether the row is among those that the permissions
of the subject leave now, and if working these out panics, so does the question. -/
theorem isVisible_of_upToDate (bound : record.binding.restriction = .bound subject)
    (untrusted : trust.isActive = false)
    (blind : ∀ rule ∈ site.book.rules record.model.rules, ∀ body, rule ≠ .entry body)
    (current : record.UpToDate site trust subject) :
    ((isVisible site).startFrom record trust).1.1 =
      ((site.evaluate record.model subject none).startFrom trust).1.map
        (isAmong site record.model record.row) := by
  rw [startFrom_isVisible, outcome]
  cases memo : record.binding.memo with
  | some known =>
    obtain ⟨now, evaluated, same⟩ := current known memo
    rw [found, Binding.found_of_known bound (.inr untrusted) memo, evaluated]
    show Except.ok (isAmong site record.model record.row known) =
      Except.ok (isAmong site record.model record.row now)
    rw [isAmong, isAmong, same]
  | none =>
    rw [found, Binding.found_of_unknown bound (.inr untrusted) memo,
      Site.evaluate_of_no_entry blind subject (some record.row) none]
    cases ((site.evaluate record.model subject none).startFrom trust).1 <;> rfl

/-! ## All rows -/

/-- The key of a record is **told apart** in a memory if no key that is stored for its model is
confused with it. -/
def KeyToldApart (memory : Memory) (record : Guarded S MemoryQuery) : Prop :=
  ∀ key, record.keyValue = some key → ∀ row ∈ memory.rows record.model.name, ∀ otherKey,
    row.get? record.model.table.primaryKey = some otherKey → ¬ otherKey.Confused key

/-- Keys are told apart if none is a number other than a signed word. -/
theorem keyToldApart_of_words {record : Guarded S MemoryQuery}
    (own : ∀ key, record.keyValue = some key → key.HasWord)
    (stored : ∀ row ∈ memory.rows record.model.name, ∀ key,
      row.get? record.model.table.primaryKey = some key → key.HasWord) :
    record.KeyToldApart memory := fun key keyed row mem otherKey has =>
  Value.not_confused_of_hasWord (stored row mem otherKey has) (own key keyed)

/-- A stored row then has the key of the record iff its own key is equal. -/
theorem KeyToldApart.hasValue_iff {record : Guarded S MemoryQuery}
    (apart : record.KeyToldApart memory) {key : Value} (keyed : record.keyValue = some key)
    {row : Row} (stored : row ∈ memory.rows record.model.name) :
    MemoryQuery.hasValue record.model.table.primaryKey key row = true ↔
      ∃ otherKey, row.get? record.model.table.primaryKey = some otherKey ∧
        otherKey.Equals key := by
  rw [MemoryQuery.hasValue_iff]
  refine exists_congr fun otherKey => and_congr_right fun has => ?_
  exact Value.equal_iff.trans (or_iff_left (apart key keyed row stored otherKey has))

/-- What the rows fetched for a subject are, and whether they are confined, where no rule registers
a limit. -/
theorem fetched_of_evaluated (scopes : List (List Narrowing)) (stored : site.store = memory.store)
    (untrusted : trust.isActive = false)
    (evaluated : ((site.evaluate model subject none).startFrom trust).1 = .ok perms)
    (registered : perms.scopes = scopes.map fun scope query => query.narrowBy scope) :
    ((Relation.fetch site).startFrom (Relation.ofSubject model subject) trust).1.1 =
      .ok ((Narrowing.results (perms.confinement scopes) (memory.rows model.name)).map
        fun row => Guarded.inheriting model row (.bound subject)) := by
  have query : (Relation.ofSubject model subject : Relation S MemoryQuery).query =
      (Query.base model.table : MemoryQuery).narrowBy [] := rfl
  exact Relation.fetch_of_confines rfl rfl query stored (.bound untrusted evaluated registered)

/-- **Seeing a row is seeing it among all rows.** Outside trusted execution, for a model whose rules
neither look at records nor limit the number of rows:

* a record of the model that is bound to a subject, whose knowledge of it is up to date and whose
  key is told apart from the stored ones, is visible iff rows are not confined for the subject, or
  the record has a key and a row is fetched for the subject whose key is equal to it; and if working
  out the subject's permissions panics, all of these questions do;
* a record that was bound afresh is up to date, whatever was asked of it outside trusted execution
  and however its row was changed.

Where a record is bound to nobody, or execution is trusted, it is visible. -/
theorem visible_iff_fetched (memory : Memory) (model : Model) (subject : S) {trust : Trust}
    (stored : site.store = memory.store) (untrusted : trust.isActive = false)
    (blind : ∀ rule ∈ site.book.rules model.rules, ∀ body, rule ≠ .entry body)
    (unlimited : ∀ rule ∈ site.book.rules model.rules,
      rule.Registers fun narrowing => narrowing.limit? = none) :
    (∀ record : Guarded S MemoryQuery, record.model = model →
      record.binding.restriction = .bound subject → record.UpToDate site trust subject →
      record.KeyToldApart memory →
      let confined := ((site.isScopedFor model subject).startFrom trust).1
      let fetched :=
        ((Relation.fetch site).startFrom (Relation.ofSubject model subject) trust).1.1
      let visible := ((isVisible site).startFrom record trust).1.1
      (∃ panic, confined = .error panic ∧ fetched = .error panic ∧ visible = .error panic) ∨
      ∃ isConfined records isVisible, confined = .ok isConfined ∧ fetched = .ok records ∧
        visible = .ok isVisible ∧
        (isVisible = true ↔ isConfined = false ∨ ∃ key, record.keyValue = some key ∧
          ∃ other ∈ records, ∃ otherKey, other.keyValue = some otherKey ∧
            otherKey.Equals key)) ∧
    (∀ (row : Row) (events : List Event),
      (∀ question depth, .asked question depth ∈ events → depth.isActive = false) →
      ((Guarded.inheriting model row (.bound subject) : Guarded S MemoryQuery).after site
        events).UpToDate site trust subject) ∧
    ∀ (record : Guarded S MemoryQuery) (anywhere : Trust),
      record.binding.restriction = .unbound ∨ anywhere.isActive = true →
      ((isVisible site).startFrom record anywhere).1.1 = .ok true := by
  refine ⟨fun record overModel bound current apart => ?_, fun row events outside =>
    upToDate_after blind untrusted row outside, fun record anywhere free => ?_⟩
  · subst overModel
    have answered := isVisible_of_upToDate bound untrusted blind current
    dsimp only
    rw [answered, site.startFrom_isScopedFor]
    cases evaluated : ((site.evaluate record.model subject none).startFrom trust).1 with
    | error panic =>
      have panicked : (Relation.ofSubject record.model subject : Relation S MemoryQuery).found site
          false trust = .error panic :=
        Binding.found_of_panic rfl (.inr untrusted) evaluated
      have asks : (Relation.fetch site).startFrom (Relation.ofSubject record.model subject) trust =
          _ := Relation.ask_of_panic .fetch panicked
      exact .inl ⟨panic, rfl, congrArg (fun asked => asked.1.1) asks, rfl⟩
    | ok perms =>
      obtain ⟨scopes, registered, free⟩ :=
        (Site.narrowed_of_evaluate unlimited evaluated).confinement rfl
      have table : perms.table = record.model.table :=
        congrArg (fun frame => frame.2.1) (Site.frame_of_evaluate evaluated)
      have fetched := fetched_of_evaluated scopes stored untrusted evaluated registered
      refine .inr ⟨_, _, _, rfl, fetched, rfl, ?_⟩
      rw [isAmong_iff stored table registered free]
      refine or_congr_right (exists_congr fun key => and_congr_right fun keyed => ?_)
      simp only [List.mem_map, exists_exists_and_eq_and]
      exact exists_congr fun row => and_congr_right fun result =>
        apart.hasValue_iff keyed (Narrowing.sublist_results.subset result)
  · rw [startFrom_isVisible, outcome, found_of_not_inForce (Restriction.isEnforced_of_free free)]
    rfl

/-! ## Fluffies -/

open Association (fluffy ownFluffies fluffiesOfDummy confines_ownFluffies)

/-- Users see their own fluffies, by a rule that neither looks at records nor limits their number. -/
theorem rules_ownFluffies (memory : Memory) :
    ∀ rule ∈ (ownFluffies memory).book.rules fluffiesOfDummy.target.rules,
      (∀ body, rule ≠ .entry body) ∧ rule.Registers fun narrowing => narrowing.limit? = none := by
  have rules : (ownFluffies memory).book.rules fluffiesOfDummy.target.rules =
      [.subject fun user => .narrow fun query =>
        query.narrowBy [.hasValue "owner" (.string user)]] := RuleBook.rules_of_root rfl
  rw [rules]
  intro rule mem
  cases List.mem_singleton.mp mem
  refine ⟨fun body same => ?_, fun user _ => ⟨⟨_, rfl, fun narrowing isOwner => ?_⟩, trivial⟩⟩
  · cases same
  · cases List.mem_singleton.mp isOwner
    rfl

/-- Of two fluffies Alice sees her own: it is visible to her, and Bob's is not. -/
theorem visible_iff_fetched_owned :
    let memory : Memory := { tables := [("fluffies", [fluffy 10 1 "alice", fluffy 11 1 "bob"])] }
    let shown (row : Row) := ((isVisible (ownFluffies memory)).startFrom
      (Guarded.inheriting fluffiesOfDummy.target row (.bound "alice")) {}).1.1
    shown (fluffy 10 1 "alice") = .ok true ∧ shown (fluffy 11 1 "bob") = .ok false := by
  intro memory shown
  let site : Site String MemoryQuery := ownFluffies memory
  let model : Model := fluffiesOfDummy.target
  have stored : site.store = memory.store := rfl
  have untrusted : ({} : Trust).isActive = false := rfl
  have agree := (visible_iff_fetched memory model "alice" stored untrusted
    (fun rule mem => (rules_ownFluffies memory rule mem).1)
    (fun rule mem => (rules_ownFluffies memory rule mem).2)).1
  have confined : ((site.isScopedFor model "alice").startFrom {}).1 = .ok true := by
    rw [site.startFrom_isScopedFor, Site.evaluate_of_rules (RuleBook.rules_of_root rfl)]
    rfl
  have base : (Relation.ofSubject model "alice" : Relation String MemoryQuery).query =
      (Query.base model.table : MemoryQuery).narrowBy [] := rfl
  have fetched : ((Relation.fetch site).startFrom (Relation.ofSubject model "alice") {}).1.1 =
      .ok [Guarded.inheriting model (fluffy 10 1 "alice") (.bound "alice")] :=
    (Relation.fetch_of_confines rfl rfl base stored (confines_ownFluffies memory "alice")).trans rfl
  -- What is visible is hence what has the key of the fluffy that is fetched.
  have told (row : Row)
      (apart : (Guarded.inheriting model row (.bound "alice")).KeyToldApart memory) :
      ∃ isVisible, shown row = .ok isVisible ∧
        (isVisible = true ↔ ∃ key, row.get? "id" = some key ∧ (Value.int 10).Equals key) := by
    rcases agree (Guarded.inheriting model row (.bound "alice")) rfl rfl nofun apart with
      ⟨panic, -, panicked, -⟩ | ⟨isConfined, records, isVisible, isScoped, found, seen, holds⟩
    · cases fetched.symm.trans panicked
    · cases confined.symm.trans isScoped
      cases fetched.symm.trans found
      refine ⟨isVisible, seen, holds.trans ((or_iff_right Bool.false_ne_true.symm).trans ?_)⟩
      refine exists_congr fun key => and_congr Iff.rfl ?_
      simp only [List.mem_singleton, exists_eq_left]
      exact ⟨fun ⟨_, same, equal⟩ => by cases same; exact equal, fun equal => ⟨_, rfl, equal⟩⟩
  have words : ∀ row ∈ memory.rows model.name, ∀ key, row.get? "id" = some key → key.HasWord := by
    refine List.forall_mem_cons.mpr ⟨?_, List.forall_mem_singleton.mpr ?_⟩
    all_goals
      rintro _ ⟨⟩
      exact nofun
  have apart (row : Row) (mem : row ∈ memory.rows model.name) :
      (Guarded.inheriting model row (.bound "alice")).KeyToldApart memory :=
    keyToldApart_of_words (words row mem) words
  obtain ⟨first, seesFirst, firstIff⟩ := told (fluffy 10 1 "alice") (apart _ List.mem_cons_self)
  obtain ⟨second, seesSecond, secondIff⟩ := told (fluffy 11 1 "bob")
    (apart _ (List.mem_cons_of_mem _ List.mem_cons_self))
  refine ⟨seesFirst.trans (congrArg _ (firstIff.mpr ⟨.int 10, rfl, by decide⟩)),
    seesSecond.trans (congrArg _ (Bool.eq_false_iff.mpr fun visible => ?_))⟩
  obtain ⟨key, keyed, equal⟩ := secondIff.mp visible
  cases keyed
  revert equal
  decide

/-- **Confused keys** are taken for one another: a fluffy is visible to Alice if one is stored whose
key is the number before its own. -/
theorem visible_beside_neighbour :
    let memory : Memory :=
      { tables := [("fluffies", [fluffy 9223372036854775808 1 "alice"])] }
    let record : Guarded String MemoryQuery := Guarded.inheriting fluffiesOfDummy.target
      (fluffy 9223372036854775809 1 "alice") (.bound "alice")
    (Value.int 9223372036854775808).Confused (.int 9223372036854775809) ∧
      ((isVisible (ownFluffies memory)).startFrom record {}).1.1 = .ok true := by
  intro memory record
  have current : record.UpToDate (ownFluffies memory) {} "alice" := nofun
  have answered := isVisible_of_upToDate rfl rfl
    (fun rule mem => (rules_ownFluffies memory rule mem).1) current
  have rules : (ownFluffies memory).book.rules record.model.rules =
      [.subject fun user => .narrow fun query =>
        query.narrowBy [.hasValue "owner" (.string user)]] := RuleBook.rules_of_root rfl
  refine ⟨by decide +kernel, answered.trans ?_⟩
  rw [Site.evaluate_of_rules rules]
  refine congrArg Except.ok ?_
  decide +kernel

/-- Notes are hidden as long as there are none. -/
def hiddenWhileEmpty (memory : Memory) : Site Unit MemoryQuery :=
  { store := memory.store
    models := [("notes", { table := { name := "notes" }, rules := 0 })]
    book := RuleBook.empty.create.1.register 0 (.plain (.count "notes" () fun rows =>
      if rows = 0 then .narrow fun query => query.narrowBy [.nothing] else .done)) }

/-- Its rule. -/
theorem rules_hiddenWhileEmpty (memory : Memory) :
    (hiddenWhileEmpty memory).book.rules 0 = [.plain (.count "notes" () fun rows =>
      if rows = 0 then .narrow fun query => query.narrowBy [.nothing] else .done)] :=
  RuleBook.rules_of_root rfl

/-- The rule neither looks at records nor limits their number. -/
theorem registers_hiddenWhileEmpty (memory : Memory) :
    ∀ rule ∈ (hiddenWhileEmpty memory).book.rules 0, (∀ body, rule ≠ .entry body) ∧
      rule.Registers fun narrowing => narrowing.limit? = none := by
  rw [rules_hiddenWhileEmpty]
  intro rule mem
  rw [List.mem_singleton.mp mem]
  refine ⟨fun body same => ?_, fun subject entry rows => ?_⟩
  · cases same
  · dsimp only
    split
    · refine ⟨⟨[.nothing], rfl, fun narrowing listed => ?_⟩, trivial⟩
      rw [List.mem_singleton.mp listed]
      rfl
    · trivial

/-- **A record may stay hidden** that is among all rows. It is asked whether a note is visible, and
then the note is stored: now rows are not confined any more, and the note is fetched, but the record
still knows that no note is shown. -/
theorem hidden_after_insert :
    let model : Model := { table := { name := "notes" }, rules := 0 }
    let note : Guarded Unit MemoryQuery :=
      Guarded.inheriting model (Row.new [("id", .int 1)]) (.bound ())
    let record := ((isVisible (hiddenWhileEmpty {})).startFrom note {}).1.2
    let site := hiddenWhileEmpty (({} : Memory).insert "notes" note.row)
    (∀ rule ∈ site.book.rules model.rules, (∀ body, rule ≠ .entry body) ∧
      rule.Registers fun narrowing => narrowing.limit? = none) ∧
    record.model = model ∧ record.binding.restriction = .bound () ∧
    record.keyValue = some (.int 1) ∧
    ((isVisible site).startFrom record {}).1.1 = .ok false ∧
    ((site.isScopedFor model ()).startFrom {}).1 = .ok false ∧
    ∃ records, ((Relation.fetch site).startFrom (Relation.ofSubject model ()) {}).1.1 =
      .ok records ∧ ∃ other ∈ records, other.keyValue = some (.int 1) := by
  intro model note record site
  let hides : Permissions MemoryQuery :=
    (model.noPermissions {}).scope fun query => query.narrowBy [.nothing]
  have before : (((hiddenWhileEmpty {}).evaluate model () (some note.row)).startFrom {}).1 =
      .ok hides := by
    rw [Site.evaluate_of_rules (rules_hiddenWhileEmpty {})]
    rfl
  have after : ((site.evaluate model () none).startFrom {}).1 = .ok (model.noPermissions {}) := by
    rw [Site.evaluate_of_rules (rules_hiddenWhileEmpty _)]
    rfl
  have knows : record = note.keeping (.ok (some hides)) := by
    have found : note.found (hiddenWhileEmpty {}) false {} = .ok (some hides) :=
      Binding.found_of_evaluated rfl (.inr rfl) before
    show ((isVisible (hiddenWhileEmpty {})).startFrom note {}).1.2 = _
    rw [startFrom_isVisible, outcome, found]
  have shown : ((isVisible site).startFrom record {}).1.1 = .ok false := by
    have found : record.found site false {} = .ok (some hides) := by
      rw [knows]
      exact Binding.found_of_known rfl (.inr rfl) rfl
    rw [startFrom_isVisible, outcome, found, knows]
    rfl
  refine ⟨registers_hiddenWhileEmpty _, by rw [knows]; rfl, by rw [knows]; rfl, by rw [knows]; rfl,
    shown, ?_, _, fetched_of_evaluated [] rfl rfl after rfl, _, List.mem_cons_self, rfl⟩
  rw [site.startFrom_isScopedFor, after]
  rfl

end Guarded

end Warden
