import Mathlib
import Warden.Proofs.Policy.Acceptance
import Warden.Proofs.Policy.Fields
import Warden.Proofs.Policy.Raw
import Warden.Proofs.Policy.Records
/-! # The words of a policy document
What is registered for a policy document is held against the words of the document. For each rule
that stands there a rule of the model is registered (`Policy.registers_words`), and for a subject
that it addresses each record that constrains a field, or confines to rows, comes to what its form
comes to (`RawRule.Governs`): all that it names is enforced, unless it mixes two forms. This is said
of whatever evaluates conditions (`Cel.Evaluation`), and of limits and values as far as numbers are
not confused with them (`Value.Confused`). -/

namespace Warden

open Yaml

/-! ## Fields with records -/

/-- What is given for a field: the datum of the last entry with its name. -/
def Yaml.Datum.last? (entries : List (Datum × Datum)) (field : String) : Option Datum :=
  Fields.last? (entries.filterMap fun entry => entry.1.text?.map fun name => (name, entry.2)) field

/-- The entry of a field is read from its name and from what is given for it. -/
theorem FieldList.read_of_entryOf? {entry : Datum × Datum} {named : String × Option ConstraintSpec}
    (read : entryOf? entry = some named) :
    entry.1.text? = some named.1 ∧ ∀ record, entry.2 = .entries record →
      ∃ spec, named.2 = some spec ∧ ConstraintSpec.ofDatum? (.entries record) = some spec := by
  obtain ⟨key, datum⟩ := entry
  obtain ⟨name, isName, read⟩ := Option.bind_eq_some_iff.mp read
  dsimp only at read
  split at read
  · cases read
    exact ⟨isName, fun record never => nomatch never⟩
  · obtain ⟨spec, is, same⟩ := Option.bind_eq_some_iff.mp read
    cases same
    refine ⟨isName, fun record same => ⟨spec, rfl, ?_⟩⟩
    cases same
    exact is

/-- The entries of fields are read one by one. -/
theorem FieldList.related_of_mapM {entries : List (Datum × Datum)}
    {named : List (String × Option ConstraintSpec)} (read : entries.mapM entryOf? = some named) :
    Fields.Related (fun datum demand => ∀ record, datum = .entries record →
        ∃ spec, demand = some spec ∧ ConstraintSpec.ofDatum? (.entries record) = some spec)
      (entries.filterMap fun entry => entry.1.text?.map fun name => (name, entry.2)) named := by
  induction entries generalizing named with
  | nil =>
    cases read
    exact .nil
  | cons entry rest ih =>
    rw [List.mapM_cons] at read
    obtain ⟨first, one, read⟩ := Option.bind_eq_some_iff.mp read
    obtain ⟨others, more, same⟩ := Option.bind_eq_some_iff.mp read
    cases same
    obtain ⟨isName, given⟩ := read_of_entryOf? one
    rw [List.filterMap_cons, isName, Option.map_some]
    exact .cons ⟨rfl, given⟩ (ih more)

/-- A record that is given for a field is read as its constraint. -/
theorem FieldList.last?_of_read {entries : List (Datum × Datum)} {list : FieldList}
    (read : ofDatum? (.entries entries) = some list) {field : String}
    {record : List (Datum × Datum)} (given : Datum.last? entries field = some (.entries record)) :
    list.isAll = false ∧ ∃ spec, Fields.last? list.listed field = some (some spec) ∧
      ConstraintSpec.ofDatum? (.entries record) = some spec := by
  obtain ⟨named, each, rfl⟩ := Option.map_eq_some_iff.mp read
  have found := (related_of_mapM each).last? field
  rw [← Datum.last?, given] at found
  refine ⟨rfl, ?_⟩
  rw [listed, Fields.last?_ofList]
  generalize Fields.last? named field = last at found
  cases found with
  | some demand =>
    obtain ⟨spec, rfl, is⟩ := demand record rfl
    exact ⟨spec, rfl, is⟩

/-- **What an entry leaves for a field** for which a record is given: a constraint that lets through
what the record does. -/
theorem PolicyEntry.constrains_of_read [Cel.Evaluation] {table : Table} (auth : Value)
    {entry : PolicyEntry} (checks : entry.Checks table) {entries : List (Datum × Datum)}
    (read : FieldList.ofDatum? (.entries entries) = some entry.fields) {field : String}
    {record : List (Datum × Datum)} (given : Datum.last? entries field = some (.entries record)) :
    ∃ call ∈ entry.calls table auth, call.grants = entry.grants ∧ call.action = entry.action ∧
      ∃ constraint, Fields.last? (call.entries table.fieldNames) field = some constraint ∧
        Datum.Constrains auth record constraint.Accepts := by
  obtain ⟨notAll, spec, listed, is⟩ := FieldList.last?_of_read read given
  obtain ⟨rules, checked, -, -, calls⟩ := calls_of_listed auth notAll checks
  -- The field has a checked rule, whose constraint is the one that the record stands for.
  have demanded := congrArg (fun pairs => Fields.last? pairs field)
    (FieldRule.mapValues_of_ofEntries checked auth)
  rw [Fields.last?_mapValues, Fields.last?_mapValues, listed, Option.map_some,
    Option.map_eq_some_iff] at demanded
  obtain ⟨rule, last, stands⟩ := demanded
  have nonempty : rules ≠ [] := by
    rintro rfl
    cases last
  rw [if_neg nonempty] at calls
  refine ⟨_, calls ▸ List.mem_singleton_self _, grants_call _, action_call _, rule.constraint auth,
    ?_, Datum.constrains_of_read is stands.symm⟩
  rw [entries_call_spec, Fields.last?_mapValues, last, Option.map_some]

/-! ## Rules -/

namespace RawRule

/-- What a rule gives for actions: as granted, and then as withdrawn. -/
def entries (raw : RawRule) : List (Bool × String × Datum) :=
  (raw.can.map fun given => (true, given)) ++ raw.cannot.map fun given => (false, given)

/-- The entries of a rule are read from what it gives for actions. -/
theorem Forms.entries {raw : RawRule} {rule : PolicyRule} (forms : raw.Forms rule) {grants : Bool}
    {name : String} {datum : Datum} (given : (grants, name, datum) ∈ raw.entries) :
    ∃ list, FieldList.ofDatum? datum = some list ∧ ⟨grants, name, list⟩ ∈ rule.entries := by
  rw [RawRule.entries, List.mem_append, List.mem_map, List.mem_map] at given
  rw [PolicyRule.entries]
  rcases given with ⟨_, mem, same⟩ | ⟨_, mem, same⟩
  · cases same
    obtain ⟨list, listed, read⟩ := forms.can.of_mem mem
    exact ⟨list, read, List.mem_append_left _ (List.mem_map.mpr ⟨_, listed, rfl⟩)⟩
  · cases same
    obtain ⟨list, listed, read⟩ := forms.cannot.of_mem mem
    exact ⟨list, read, List.mem_append_right _ (List.mem_map.mpr ⟨_, listed, rfl⟩)⟩

variable [Cel.Evaluation] {S : Type} [Principal S]

/-- The words of a rule **govern** the calls and narrowings that are made for a subject if every
record among them comes to what its form comes to, and enforces all that it names unless it mixes
two forms. -/
structure Governs (raw : RawRule) (table : Table) (subject : S) (calls : List Call)
    (narrowings : List (MemoryQuery → MemoryQuery)) : Prop where
  /-- A record that is given for a field. -/
  fields : ∀ grants name entries, (grants, name, .entries entries) ∈ raw.entries →
    ∀ field record, Datum.last? entries field = some (.entries record) →
      ∃ call ∈ calls, call.grants = grants ∧ call.action = Action.ofName name ∧
        ∃ constraint, Fields.last? (call.entries table.fieldNames) field = some constraint ∧
          Datum.Constrains (Principal.authValue subject) record constraint.Accepts ∧
          (Datum.TakesOneForm record →
            Datum.Enforced (Principal.authValue subject) record constraint.Accepts)
  /-- A record that is given as the scope. -/
  scope : ∀ record, raw.scope = some (.entries record) →
    ∃ scope : List Narrowing, narrowings = [fun query => query.narrowBy scope] ∧
      Datum.Confines subject record (fun row => scope.all (Narrowing.admits row) = true) ∧
      (Datum.ConfinesOneWay record →
        Datum.EnforcedFor subject record fun row => scope.all (Narrowing.admits row) = true)

/-- **The words of a rule** that checks govern what it says to a subject that it addresses. -/
theorem Forms.governs {table : Table} {raw : RawRule} {rule : PolicyRule} (forms : raw.Forms rule)
    (checks : rule.Checks table) {subject : S} (addressed : rule.Addresses subject) :
    raw.Governs table subject (rule.calls table subject) (rule.narrowings subject) := by
  refine ⟨fun grants name entries given field record last => ?_, fun record given => ?_⟩
  · obtain ⟨list, read, mem⟩ := forms.entries given
    obtain ⟨call, made, granting, acting, constraint, leaves, constrains⟩ :=
      PolicyEntry.constrains_of_read (Principal.authValue subject) (checks.entries _ mem) read last
    refine ⟨call, ?_, granting, acting, constraint, leaves, constrains, constrains.enforced⟩
    rw [PolicyRule.calls, if_pos addressed]
    exact List.mem_flatMap.mpr ⟨_, mem, made⟩
  · have confined := forms.scope
    rw [given] at confined
    rw [PolicyRule.narrowings, if_pos addressed]
    generalize rule.scope = scope at confined
    cases confined with
    | @some _ spec read =>
      have confines : Datum.Confines subject record fun row =>
          (spec.narrowings subject).all (Narrowing.admits row) = true := by
        simp only [spec.admits_narrowings_iff]
        exact Datum.confines_of_read read
      exact ⟨spec.narrowings subject, congrArg (fun narrow => [narrow]) (spec.narrow_eq subject),
        confines, confines.enforced⟩

end RawRule

/-! ## Registered rules -/

namespace Policy

section Registering

variable [Cel.Evaluation] {S : Type} [Principal S] {site installed : Site S MemoryQuery}
  {model : Model} {text : String} {policy : Policy} {count : Nat}

/-- **Words and rules.** Of a policy document that is read and installed, every rule that stands
there for the table is registered, in order, as a rule that looks at the subject alone. For a
subject that it addresses it amounts to calls and narrowings that the words of the rule govern: a
record that constrains a field or confines to rows comes to just what the form comes to in which it
is taken, and enforces all that it names unless it mixes two forms. Numbers that are confused with a
limit or with a value pass for equal to it. -/
theorem registers_words (known : model.rules < site.book.sets.length)
    (parsed : ofText text = .ok policy)
    (installs : policy.install site model = .ok (installed, count)) :
    ∃ (raw : RawPolicy) (scripts : List (S → Script S MemoryQuery)),
      RawPolicy.ofText? text = some raw ∧
      installed.book.rules model.rules =
        site.book.rules model.rules ++ scripts.map Rule.subject ∧
      List.Forall₂ (fun rule script => ∀ subject,
          RoleRequirement.anyMetBy rule.roles subject = true →
            ∃ calls narrowings, (script subject).AmountsTo calls narrowings ∧
              rule.Governs model.table subject calls narrowings)
        (raw.tableRules model.table) scripts := by
  obtain ⟨raw, stands, forms⟩ := raw_of_ofText parsed
  obtain ⟨rules, checked, rfl, -⟩ := install_eq_ok_iff.mp installs
  refine ⟨raw, rules.map CheckedRule.script, stands, ?_, ?_⟩
  · rw [(Site.protectAll_eq known _).1, List.map_map]
    rfl
  · refine List.forall₂_map_right_iff.mpr ?_
    refine (forall₂_comp (forms model.table) (checked_eq_ok_iff.mp checked)).imp ?_
    rintro rawRule checkedRule ⟨rule, ruleForms, ok⟩ subject met
    rw [ruleForms.roles] at met
    exact ⟨_, _, CheckedRule.amountsTo_script ok subject, ruleForms.governs
      (CheckedRule.exists_ofRule_iff.mp ⟨_, ok⟩) ((rule.anyMetBy_iff subject).mp met)⟩

end Registering

set_option maxRecDepth 4096 in
/-- A rule that lets titles from "m" on be created is registered as a rule that lets no other
titles be created. -/
theorem registers_words_min :
    let table := Table.withFields "notes" ["title"]
    let site : Site AuthContext MemoryQuery := { book := RuleBook.empty.create.1 }
    let model : Model := { table, rules := 0 }
    model.rules < site.book.sets.length ∧
      ∃ policy installed script,
        ofText "{tables: {notes: {can: {create: {title: {min: m}}}}}}" = .ok policy ∧
        policy.install site model = .ok (installed, 1) ∧
        installed.book.rules model.rules = [.subject script] ∧
        ∀ subject, ∃ calls narrowings, (script subject).AmountsTo calls narrowings ∧
          ∃ call ∈ calls, call.grants = true ∧ call.action = .create ∧
            ∃ constraint, Fields.last? (call.entries table.fieldNames) "title" = some constraint ∧
              ∀ value, constraint.Accepts value → (Value.string "m").AtMost value := by
  intro table site model
  have known : model.rules < site.book.sets.length := by decide
  have unruled : site.book.rules model.rules = [] := RuleBook.rules_of_root rfl
  have create : Action.ofName "create" = .create := by cbv
  let limits : RangeSpec := { min := some (.string "m") }
  let record : List (Datum × Datum) := [(.text "min", .text "m")]
  let policy : Policy := { tables := [("notes",
    [{ can := [("create", .constrained [("title", some (.range limits))])] }])] }
  let raw : RawPolicy := { tables := [("notes",
    [{ roles := [], cannot := [], scope := none
       can := [("create", .entries [(.text "title", .entries record)])] }])] }
  have parsed : ofText "{tables: {notes: {can: {create: {title: {min: m}}}}}}" = .ok policy := by
    cbv
  have stands :
      RawPolicy.ofText? "{tables: {notes: {can: {create: {title: {min: m}}}}}}" = some raw := by
    cbv
  have check : ∀ rule ∈ policy.tableRules model.table, rule.Checks model.table :=
    List.forall_mem_singleton.mpr ⟨List.forall_mem_nil _,
      List.forall_mem_singleton.mpr (.of_action create rfl)⟩
  have possible : ∃ installed, policy.install site model = .ok (installed, 1) :=
    exists_install_of_checks check
  obtain ⟨installed, installs⟩ := possible
  obtain ⟨_, scripts, is, registered, each⟩ := registers_words known parsed installs
  cases stands.symm.trans is
  -- The table has one rule, and so there is one script.
  have rules : raw.tableRules model.table =
      [{ roles := [], cannot := [], scope := none
         can := [("create", .entries [(.text "title", .entries record)])] }] := rfl
  rw [rules] at each
  obtain ⟨script, _, governed, none, rfl⟩ := List.forall₂_cons_left_iff.mp each
  cases none
  rw [unruled] at registered
  refine ⟨known, policy, installed, script, parsed, installs, registered, fun subject => ?_⟩
  obtain ⟨calls, narrowings, amounts, governs⟩ := governed subject rfl
  obtain ⟨call, made, grants, action, constraint, leaves, -, enforced⟩ :=
    governs.fields true "create" _ List.mem_cons_self "title" record rfl
  have unconditional : ∀ source, ¬ Datum.HasPart "cel" (.text source) record := by
    intro source part
    cases part.only
  have oneForm : Datum.TakesOneForm record :=
    .inr ⟨unconditional, limits, Datum.limits_eq_some_iff.mp rfl⟩
  have present : Datum.text "m" ≠ .null := by
    intro same
    cases same
  obtain ⟨limit, isLimit, kept⟩ := (enforced oneForm).min _ present List.mem_cons_self
  cases isLimit
  refine ⟨calls, narrowings, amounts, call, made, grants, action.trans create, constraint, leaves,
    fun value accepted => (kept value accepted).resolve_right fun confused => ?_⟩
  obtain ⟨_, _, number, -⟩ := confused.exists_number
  cases number

set_option maxRecDepth 4096 in
/-- **A limit beside a condition is lost.** Titles are to be from "m" on, and a condition that is
always true stands beside; by the policy that is read Ada may create a note with the title "a". -/
theorem condition_hides_limit :
    let site : Site AuthContext MemoryQuery := { book := RuleBook.empty.create.1 }
    let model : Model := { table := Table.withFields "notes" ["title"], rules := 0 }
    let ada := AuthContext.ofUser "ada" []
    ∃ policy installed perms constraint,
      ofText "{tables: {notes: {can: {create: {title: {cel: 1 < 2, min: m}}}}}}" = .ok policy ∧
      policy.install site model = .ok (installed, 1) ∧
      (installed.evaluate model ada none).startFrom {} = (.ok perms, {}) ∧
      perms.constraint? .create "title" = some constraint ∧
      constraint.Accepts (.string "a") ∧ ¬ (Value.string "m").AtMost (.string "a") := by
  intro site model ada
  let condition : Cel.Condition := ⟨"1 < 2", .compare .lt (.int 1) (.int 2)⟩
  let policy : Policy := { tables := [("notes",
    [{ can := [("create", .constrained [("title", some (.condition "1 < 2"))])] }])] }
  have parsed : ofText "{tables: {notes: {can: {create: {title: {cel: 1 < 2, min: m}}}}}}" =
      .ok policy := by cbv
  have read : Cel.Condition.ofText "1 < 2" = .ok condition := by
    have tokens : Cel.Token.ofText "1 < 2" = [.int 1, .symbol "<", .int 2] := by decide +kernel
    unfold Cel.Condition.ofText Cel.Expr.ofText
    rw [tokens]
    rfl
  have create : Action.ofName "create" = .create := by cbv
  have fieldwise : Action.ofName "create" ≠ .destroy := by
    rw [create]
    decide
  have check : ∀ rule ∈ policy.tableRules model.table, rule.Checks model.table :=
    List.forall_mem_singleton.mpr (PolicyRule.checks_iff_fits.mpr ⟨List.forall_mem_nil _,
      List.forall_mem_singleton.mpr ⟨by decide, fun destroys => absurd destroys fieldwise,
        List.forall_mem_singleton.mpr ⟨condition, read⟩⟩⟩)
  have possible : ∃ installed, policy.install site model = .ok (installed, 1) :=
    exists_install_of_checks check
  obtain ⟨installed, installs⟩ := possible
  have evaluated := evaluate_of_install (by decide) (RuleBook.rules_of_root rfl) installs ada
    none {}
  have last : PolicyEntry.last? .create "title" (policy.entriesFor model.table ada) =
      some ⟨true, "create", .constrained [("title", some (.condition "1 < 2"))]⟩ := by cbv
  have cell : ((Permissions.none model.table.fieldNames model.table
      (model.isParanoid site.config) : Permissions MemoryQuery).after
        ((policy.entriesFor model.table ada).flatMap
          (PolicyEntry.calls model.table (Principal.authValue ada)))).constraint? .create "title" =
      _ := PolicyEntry.constraint?_calls _ (checks_of_install installs ada) (by decide) rfl
  rw [last] at cell
  have stands : ConstraintSpec.constraint? (Principal.authValue ada) (some (.condition "1 < 2")) =
      some (.ofCondition condition (Principal.authValue ada)) := by
    rw [ConstraintSpec.constraint?, read]
    rfl
  exact ⟨policy, installed, _, .ofCondition condition (Principal.authValue ada), parsed, installs,
    evaluated, cell.trans stands, Constraint.accepts_ofCondition.mpr rfl, by decide⟩

end Policy

end Warden
