import Mathlib
import Warden.Proofs.Policy.Installed
/-! # Which policies are accepted
Whether a policy is accepted can be read off the policy. A rule **fits** a table
(`PolicyRule.Fits`) if all fields that it names are fields of the table, destroying is given as a
whole, limits have a limit and conditions are expressions. These are the rules that check
(`PolicyRule.checks_iff_fits`), so that nothing else is ever refused and nothing less is let
through.

Installing changes a site that others hold as well. `Policy.installOn` is the installation in
place: it checks all rules and then registers one after the other. It leaves the site that
`Policy.install` answers with, and where it fails, the site as it was (`Policy.run_installOn`). -/

namespace Warden

/-! ## Rules that fit -/

/-- A demand **makes sense** if it is a value, limits with a limit, or a condition that is an
expression. -/
def ConstraintSpec.MakesSense : ConstraintSpec → Prop
  | .literal _ => True
  | .range limits => limits.min.isSome = true ∨ limits.max.isSome = true
  | .condition source => ∃ condition, Cel.Condition.ofText source = .ok condition

/-- The sources of the conditions among demands. -/
def ConstraintSpec.sources (demands : List ConstraintSpec) : List String :=
  demands.filterMap fun
    | .condition source => some source
    | _ => none

namespace FieldList

/-- What is demanded of values. -/
def demands (list : FieldList) : List ConstraintSpec := list.listed.filterMap Prod.snd

/-- Whether fields are given as a truth value or as the star. -/
def isWhole : FieldList → Bool
  | .flag _ => true
  | .name field => field == star
  | _ => false

end FieldList

/-- An entry **fits** a table if the table has the fields that it names, destroying is given as a
whole, and what it demands of values makes sense. -/
structure PolicyEntry.Fits (table : Table) (entry : PolicyEntry) : Prop where
  /-- The named fields are fields of the table. -/
  fields : ∀ field ∈ entry.fields.fieldNames, table.hasField field = true
  /-- Destroying has no fields. -/
  whole : entry.action = .destroy → entry.fields.isWhole = true
  /-- Limits have a limit, and conditions are expressions. -/
  demands : ∀ demand ∈ entry.fields.demands, demand.MakesSense

/-- A rule **fits** a table if its scope is about fields of the table and all its entries fit. -/
structure PolicyRule.Fits (table : Table) (rule : PolicyRule) : Prop where
  /-- The columns of the scope are fields of the table. -/
  scope : ∀ column ∈ (rule.scope.map ScopeSpec.columns).getD [], table.hasField column = true
  /-- What is granted and what is withdrawn fits. -/
  entries : ∀ entry ∈ rule.entries, entry.Fits table

/-- The sources of the conditions that a rule demands. -/
def PolicyRule.conditions (rule : PolicyRule) : List String :=
  rule.entries.flatMap fun entry => ConstraintSpec.sources entry.fields.demands

/-! ## Fitting is checking -/

namespace FieldRule

/-- Limits check iff there is a limit. -/
theorem exists_ofRange_iff (field : String) {limits : RangeSpec} :
    (∃ range, ofRange field limits = .ok range) ↔
      limits.min.isSome = true ∨ limits.max.isSome = true := by
  rw [ofRange]
  obtain ⟨min, max, exclusive⟩ := limits
  cases min <;> cases max <;> simp

/-- A demand checks iff it makes sense. -/
theorem exists_ofSpec_iff (field : String) {spec : Option ConstraintSpec} :
    (∃ rule, ofSpec field spec = .ok rule) ↔ ∀ demand ∈ spec, demand.MakesSense := by
  cases spec with
  | none =>
    refine ⟨fun _ demand never => ?_, fun _ => ⟨_, rfl⟩⟩
    cases never
  | some demand =>
    simp only [Option.mem_some_iff, forall_eq']
    cases demand with
    | literal value => exact ⟨fun _ => trivial, fun _ => ⟨_, rfl⟩⟩
    | condition source =>
      rw [ofSpec, ConstraintSpec.MakesSense]
      cases Cel.Condition.ofText source with
      | error failure => constructor <;> rintro ⟨_, never⟩ <;> cases never
      | ok condition => exact ⟨fun _ => ⟨condition, rfl⟩, fun _ => ⟨.condition condition, rfl⟩⟩
    | range limits =>
      rw [ofSpec, ConstraintSpec.MakesSense, ← exists_ofRange_iff field]
      simp only [bind_eq_ok_iff, liftM_eq_ok_iff]
      constructor
      · rintro ⟨_, range, ranged, -⟩
        exact ⟨range, ranged⟩
      · rintro ⟨range, ranged⟩
        exact ⟨.range range, range, ranged, rfl⟩

/-- Several fields check iff each of their demands does. -/
theorem exists_ofEntries_iff {listed : List (String × Option ConstraintSpec)} :
    (∃ rules, ofEntries listed = .ok rules) ↔
      ∀ demand ∈ listed.filterMap Prod.snd, demand.MakesSense := by
  induction listed with
  | nil => exact ⟨fun _ => nofun, fun _ => ⟨[], rfl⟩⟩
  | cons entry rest ih =>
    obtain ⟨field, spec⟩ := entry
    have split : (∀ demand ∈ ((field, spec) :: rest).filterMap Prod.snd, demand.MakesSense) ↔
        (∀ demand ∈ spec, demand.MakesSense) ∧
          ∀ demand ∈ rest.filterMap Prod.snd, demand.MakesSense := by
      cases spec <;> simp
    rw [split, ← ih, ← exists_ofSpec_iff field]
    simp only [ofEntries, bind_eq_ok_iff]
    constructor
    · rintro ⟨_, rule, given, others, givenRest, -⟩
      exact ⟨⟨rule, given⟩, others, givenRest⟩
    · rintro ⟨⟨rule, given⟩, others, givenRest⟩
      exact ⟨_, rule, given, others, givenRest, rfl⟩

end FieldRule

namespace FieldList

/-- Unless every field is meant, the listed fields are the named ones. -/
theorem map_fst_listed {list : FieldList} (notAll : list.isAll = false) :
    list.listed.map Prod.fst = list.fieldNames := by
  cases list with
  | flag value => rfl
  | names fields => exact (List.map_map ..).trans (List.map_id fields)
  | constrained fields => rfl
  | name field =>
    rw [isAll] at notAll
    rw [fieldNames, notAll]
    rfl

/-- Where every field is meant, none is named and nothing is demanded. -/
theorem of_isAll {list : FieldList} (all : list.isAll = true) :
    list.fieldNames = [] ∧ list.demands = [] ∧ list.isWhole = true := by
  cases list with
  | flag value => exact ⟨rfl, rfl, rfl⟩
  | name field =>
    rw [isAll] at all
    rw [fieldNames, isWhole, all]
    exact ⟨rfl, rfl, rfl⟩
  | names fields => cases all
  | constrained fields => cases all

/-- What is given as a whole but does not mean every field is the word for none. -/
theorem eq_flag_of_isWhole {list : FieldList} (notAll : list.isAll = false)
    (whole : list.isWhole = true) : list = .flag false := by
  cases list with
  | flag value =>
    cases notAll
    rfl
  | name field => cases whole.symm.trans notAll
  | names fields => cases whole
  | constrained fields => cases whole

end FieldList

/-- Checking the listed fields keeps their names. -/
theorem FieldRule.map_fst_of_ofEntries {listed : List (String × Option ConstraintSpec)}
    {rules : List (String × FieldRule)} (checked : ofEntries listed = .ok rules) :
    rules.map Prod.fst = listed.map Prod.fst := by
  have same := congrArg Fields.keys (mapValues_of_ofEntries checked .null)
  rwa [Fields.keys_mapValues, Fields.keys_mapValues] at same

/-- **The entries that check** are those that fit. -/
theorem PolicyEntry.checks_iff_fits {table : Table} {entry : PolicyEntry} :
    entry.Checks table ↔ entry.Fits table := by
  cases all : entry.fields.isAll with
  | true =>
    obtain ⟨unnamed, undemanded, whole⟩ := FieldList.of_isAll all
    refine ⟨fun _ => ⟨?_, fun _ => whole, ?_⟩, fun _ => ?_⟩
    · rw [unnamed]
      exact List.forall_mem_nil _
    · rw [undemanded]
      exact List.forall_mem_nil _
    · rw [Checks]
      unfold Grant.ofFields
      rw [if_pos all, if_pos all]
      split <;> exact ⟨_, rfl⟩
  | false =>
    constructor
    · intro checks
      obtain ⟨rules, given, present, destroying, -⟩ := calls_of_listed .null all checks
      refine ⟨?_, fun destroys => ?_, FieldRule.exists_ofEntries_iff.mp ⟨rules, given⟩⟩
      · rwa [FieldRule.map_fst_of_ofEntries given, FieldList.map_fst_listed all] at present
      · have no := (destroying destroys).1
        cases fields : entry.fields with
        | flag value => rfl
        | _ =>
          rw [fields] at no
          cases no
    · intro fits
      by_cases destroying : entry.action = .destroy
      · rw [Checks, FieldList.eq_flag_of_isWhole all (fits.whole destroying), destroying]
        exact ⟨_, rfl⟩
      · rw [Checks]
        unfold Grant.ofFields
        rw [if_neg destroying, all, if_neg Bool.false_ne_true]
        obtain ⟨rules, given⟩ := FieldRule.exists_ofEntries_iff.mpr fits.demands
        have present : table.requireAll (rules.map Prod.fst) = .ok () := by
          rw [Table.requireAll_eq_ok_iff, FieldRule.map_fst_of_ofEntries given,
            FieldList.map_fst_listed all]
          exact fits.fields
        refine ⟨.fields rules, bind_eq_ok_iff.mpr ⟨rules, ?_, ?_⟩⟩
        · rw [Grant.entriesOf_eq all, given]
        · exact bind_eq_ok_iff.mpr ⟨(), liftM_eq_ok_iff.mpr present, rfl⟩

/-- **The rules that check** are those that fit. -/
theorem PolicyRule.checks_iff_fits {table : Table} {rule : PolicyRule} :
    rule.Checks table ↔ rule.Fits table :=
  ⟨fun checks => ⟨checks.scope, fun entry mem =>
      PolicyEntry.checks_iff_fits.mp (checks.entries entry mem)⟩,
    fun fits => ⟨fits.scope, fun entry mem =>
      PolicyEntry.checks_iff_fits.mpr (fits.entries entry mem)⟩⟩

/-! ## Where checking panics -/

/-- The reading of one of several conditions panics. -/
def ReadingPanics (sources : List String) (panic : Panic) : Prop :=
  ∃ source ∈ sources, Cel.Condition.ofText source = .error (.panicked panic)

/-- What panics still does among more conditions. -/
theorem ReadingPanics.mono {sources more : List String} {panic : Panic}
    (panics : ReadingPanics sources panic) (subset : sources ⊆ more) :
    ReadingPanics more panic := by
  obtain ⟨source, mem, fails⟩ := panics
  exact ⟨source, subset mem, fails⟩

section Reading

variable {table : Table} {panic : Panic}

/-- Checking a demand panics only where the reading of its condition does. -/
theorem FieldRule.reading_of_ofSpec {field : String} {spec : Option ConstraintSpec}
    (panics : ofSpec field spec = .error (.panicked panic)) :
    ReadingPanics (ConstraintSpec.sources spec.toList) panic := by
  cases spec with
  | none => cases panics
  | some demand =>
    cases demand with
    | literal value => cases panics
    | range limits =>
      exact absurd (bind_pure_eq_error_iff.mp panics) liftM_ne_panicked
    | condition source =>
      refine ⟨source, List.mem_singleton_self source, ?_⟩
      rw [ofSpec] at panics
      cases read : Cel.Condition.ofText source with
      | ok condition =>
        rw [read] at panics
        cases panics
      | error failure =>
        rw [read] at panics
        cases panics
        rfl

/-- Checking fields panics only where the reading of a condition among their demands does. -/
theorem FieldRule.reading_of_ofEntries {listed : List (String × Option ConstraintSpec)}
    (panics : ofEntries listed = .error (.panicked panic)) :
    ReadingPanics (ConstraintSpec.sources (listed.filterMap Prod.snd)) panic := by
  induction listed with
  | nil => cases panics
  | cons entry rest ih =>
    obtain ⟨field, spec⟩ := entry
    have split : ConstraintSpec.sources (((field, spec) :: rest).filterMap Prod.snd) =
        ConstraintSpec.sources spec.toList ++
          ConstraintSpec.sources (rest.filterMap Prod.snd) := by
      cases spec with
      | none => rfl
      | some demand => exact List.filterMap_append (l := [demand])
    rw [split]
    rw [ofEntries, bind_eq_error_iff] at panics
    rcases panics with first | ⟨rule, -, later⟩
    · exact (reading_of_ofSpec first).mono (List.subset_append_left ..)
    · exact (ih (bind_pure_eq_error_iff.mp later)).mono (List.subset_append_right ..)

/-- Whether fields are for destroying or not, no more is read than what they demand. -/
theorem Grant.reading_of_ofFields {action : Action} {list : FieldList}
    (panics : ofFields table action list = .error (.panicked panic)) :
    ReadingPanics (ConstraintSpec.sources list.demands) panic := by
  unfold ofFields at panics
  cases all : list.isAll with
  | true =>
    rw [if_pos all, if_pos all] at panics
    split at panics <;> cases panics
  | false =>
    rw [all, if_neg Bool.false_ne_true, if_neg Bool.false_ne_true, entriesOf_eq all] at panics
    split at panics
    · split at panics <;> cases panics
    · rcases bind_eq_error_iff.mp panics with listed | ⟨rules, -, later⟩
      · exact FieldRule.reading_of_ofEntries listed
      · exact absurd (bind_pure_eq_error_iff.mp later) liftM_ne_panicked

/-- Checking actions panics only where the reading of a condition of one of them does. -/
theorem Grant.reading_of_ofActions {given : List (String × FieldList)}
    (panics : ofActions table given = .error (.panicked panic)) :
    ReadingPanics (given.flatMap fun fields => ConstraintSpec.sources fields.2.demands) panic := by
  induction given with
  | nil => cases panics
  | cons first rest ih =>
    obtain ⟨name, list⟩ := first
    rw [List.flatMap_cons]
    rw [ofActions, bind_eq_error_iff] at panics
    rcases panics with own | ⟨grant, -, later⟩
    · exact (reading_of_ofFields own).mono (List.subset_append_left ..)
    · exact (ih (bind_pure_eq_error_iff.mp later)).mono (List.subset_append_right ..)

/-- Checking a rule panics only where the reading of one of its conditions does. -/
theorem CheckedRule.reading_of_ofRule {rule : PolicyRule}
    (panics : ofRule table rule = .error (.panicked panic)) :
    ReadingPanics rule.conditions panic := by
  have split : rule.conditions =
      (rule.can.flatMap fun fields => ConstraintSpec.sources fields.2.demands) ++
        rule.cannot.flatMap fun fields => ConstraintSpec.sources fields.2.demands := by
    rw [PolicyRule.conditions, PolicyRule.entries, List.flatMap_append, List.flatMap_map,
      List.flatMap_map]
  rw [split]
  rcases bind_eq_error_iff.mp panics with columns | ⟨_, -, later⟩
  · exact absurd columns liftM_ne_panicked
  · rcases bind_eq_error_iff.mp later with granting | ⟨can, -, last⟩
    · exact (Grant.reading_of_ofActions granting).mono (List.subset_append_left ..)
    · have withdrawing := bind_pure_eq_error_iff.mp last
      exact (Grant.reading_of_ofActions withdrawing).mono (List.subset_append_right ..)

end Reading

/-! ## What registered rules can grant -/

namespace Permissions

variable {Q : Type} {perms : Permissions Q} {action : Action} {field : String}

/-- Fields are granted iff the entry of the action has them. -/
theorem isSome_constraint?_iff :
    (perms.constraint? action field).isSome = true ↔ field ∈ (perms.granted action).keys := by
  rw [constraint?_eq]
  exact Fields.has_iff_mem_keys

/-- One call grants no field but those that it lists. -/
theorem granted_of_apply {call : Call}
    (granted : ((call.apply perms).constraint? action field).isSome = true) :
    (perms.constraint? action field).isSome = true ∨ field ∈ call.listed perms.fields := by
  by_cases destroying : call.action = .destroy
  · rw [apply_destroy perms destroying] at granted
    exact .inl granted
  · rw [isSome_constraint?_iff, granted_apply perms destroying] at granted
    rw [isSome_constraint?_iff]
    split at granted
    · split at granted
      · -- What is granted now was stored by the call or before it.
        rw [← Fields.has_iff_mem_keys, Fields.has, Fields.get?_insertAll] at granted
        cases given : Fields.last? (call.entries perms.fields) field with
        | some constraint =>
          have listed : field ∈ (call.entries perms.fields).map Prod.fst :=
            (Fields.isSome_last? _ field).mp (by rw [given]; rfl)
          rw [Call.map_fst_entries] at listed
          exact .inr listed
        | none =>
          rw [given] at granted
          exact .inl (Fields.has_iff_mem_keys.mp granted)
      · split at granted
        · cases granted
        · obtain ⟨entry, mem, same⟩ := List.mem_map.mp granted
          exact .inl (List.mem_map.mpr ⟨entry, Fields.mem_of_mem_foldl_erase mem, same⟩)
    · exact .inl granted

/-- Calls in turn grant no field but those that they list. -/
theorem granted_of_after {calls : List Call}
    (granted : ((perms.after calls).constraint? action field).isSome = true) :
    (perms.constraint? action field).isSome = true ∨
      ∃ call ∈ calls, field ∈ call.listed perms.fields := by
  induction calls using List.reverseRecOn with
  | nil => exact .inl granted
  | append_singleton calls call ih =>
    rw [after_append] at granted
    rcases granted_of_apply granted with earlier | listed
    · refine (ih earlier).imp_right ?_
      rintro ⟨other, mem, listed⟩
      exact ⟨other, List.mem_append_left _ mem, listed⟩
    · rw [fields_after] at listed
      exact .inr ⟨call, List.mem_append_right _ (List.mem_singleton_self call), listed⟩

end Permissions

/-- The calls of a rule list fields of the table only. -/
theorem PolicyRule.hasField_of_calls [Cel.Evaluation] {S : Type} [Principal S] {table : Table}
    {rule : PolicyRule} {subject : S} {call : Call} (made : call ∈ rule.calls table subject)
    {field : String} (listed : field ∈ call.listed table.fieldNames) : table.hasField field = true := by
  rw [calls] at made
  split at made
  · obtain ⟨entry, -, made⟩ := List.mem_flatMap.mp made
    exact PolicyEntry.hasField_of_listed made listed
  · cases made

/-- What a checked rule grants are fields of the table. -/
theorem CheckedRule.granted_of_run [Cel.Evaluation] {S Q : Type} [Query Q] [Principal S]
    {table : Table} {rule : PolicyRule} {checked : CheckedRule}
    (ok : ofRule table rule = .ok checked) (census : Census S) (subject : S) {perms : Permissions Q}
    (tabular : perms.fields = table.fieldNames) :
    ∃ filled, (checked.script subject).run census perms = pure filled ∧
      ∀ action field, (filled.constraint? action field).isSome = true →
        (perms.constraint? action field).isSome = true ∨ table.hasField field = true := by
  refine ⟨_, amountsTo_script ok subject census perms, fun action field granted => ?_⟩
  refine (Permissions.granted_of_after granted).imp_right ?_
  rintro ⟨call, made, listed⟩
  rw [tabular] at listed
  exact PolicyRule.hasField_of_calls made listed

/-! ## Installing in place -/

namespace Policy

/-- If installing panics, the reading of a condition of one of the rules does. -/
theorem reading_of_checked {policy : Policy} {table : Table} {panic : Panic}
    (panics : policy.checked table = .error (.panicked panic)) :
    ∃ rule ∈ policy.tableRules table, ReadingPanics rule.conditions panic := by
  obtain ⟨rule, mem, fails⟩ := exists_of_mapM_eq_error panics
  exact ⟨rule, mem, CheckedRule.reading_of_ofRule fails⟩

section InPlace

variable [Cel.Evaluation] {S Q : Type} [Query Q] [Principal S]

/-- Register rules one after the other on a model of the site at hand. -/
def registerOn (model : Model) : List CheckedRule → ExceptT Failure (StateM (Site S Q)) Unit
  | [] => pure ()
  | rule :: rest => do
    modify fun site => site.protect model rule.toRule
    registerOn model rest

/-- Install the rules of a model's table on the site at hand; returns their number. -/
def installOn (policy : Policy) (model : Model) : ExceptT Failure (StateM (Site S Q)) Nat := do
  let rules ← ExceptT.mk (pure (policy.checked model.table))
  registerOn model rules
  return rules.length

/-- The outcome of installing in place, and the site that is left. -/
def installAt (policy : Policy) (model : Model) (site : Site S Q) :
    Except Failure Nat × Site S Q :=
  (policy.installOn model).run.run site

variable {policy : Policy} {site : Site S Q} {model : Model}

/-- Registering never fails, and leaves a site with all the rules. -/
theorem run_registerOn (rules : List CheckedRule) (site : Site S Q) :
    (registerOn model rules).run.run site =
      (.ok (), site.protectAll model (rules.map CheckedRule.toRule)) := by
  induction rules generalizing site with
  | nil => rfl
  | cons rule rest ih => exact ih (site.protect model rule.toRule)

/-- **Installing in place** leaves the site that installing answers with, or the site as it was. -/
theorem run_installOn :
    policy.installAt model site = match policy.install site model with
      | .ok (installed, count) => (.ok count, installed)
      | .error failure => (.error failure, site) := by
  rw [install]
  cases checked : policy.checked model.table with
  | error failure =>
    rw [installAt, installOn, checked]
    rfl
  | ok rules =>
    have registered : (registerOn model rules).run.run site =
        (.ok (), rules.foldl (fun site rule => site.protect model rule.toRule) site) := by
      rw [run_registerOn, Site.protectAll, List.foldl_map]
    rw [installAt, installOn, checked]
    show ((registerOn model rules >>= fun _ => pure rules.length).run.run site) = _
    simp only [ExceptT.run_bind, StateT.run_bind, registered]
    rfl

/-- **All rules or none.** Installing in place succeeds iff all rules that the policy has for the
table fit it, and then as many rules that look at the subject alone are appended to those of the
model, in the order of the policy; each amounts to what the rule says to the subject, and run on any
permissions for the table it grants no field that is not a field of the table. Otherwise it fails
and the site stays as it was, however many rules fit; only where the reading of a condition panics
is the failure not a refusal. -/
theorem installs_all_or_none (policy : Policy) {site : Site S Q} {model : Model}
    (known : model.rules < site.book.sets.length) :
    let rules := policy.tableRules model.table
    let outcome := (policy.installAt model site).1
    let left := (policy.installAt model site).2
    policy.install site model = outcome.map (fun count => (left, count)) ∧
      ((∃ count, outcome = .ok count) ↔ ∀ rule ∈ rules, rule.Fits model.table) ∧
      (∀ count, outcome = .ok count → count = rules.length ∧
        ∃ scripts : List (S → Script S Q),
          left.book.rules model.rules =
            site.book.rules model.rules ++ scripts.map Rule.subject ∧
          List.Forall₂ (fun rule script => ∀ subject, (script subject).AmountsTo
            (rule.calls model.table subject) (rule.narrowings subject)) rules scripts ∧
          ∀ script ∈ scripts, ∀ census subject (perms : Permissions Q),
            perms.fields = model.fields →
              ∃ filled, (script subject).run census perms = pure filled ∧
                ∀ action field, (filled.constraint? action field).isSome = true →
                  (perms.constraint? action field).isSome = true ∨
                    model.table.hasField field = true) ∧
      ∀ failure, outcome = .error failure → left = site ∧
        ∀ panic, failure = .panicked panic →
          ∃ rule ∈ rules, ReadingPanics rule.conditions panic := by
  intro rules outcome left
  have inPlace : policy.installAt model site = match policy.install site model with
      | .ok (installed, count) => (.ok count, installed)
      | .error failure => (.error failure, site) := run_installOn
  have accepted : (∃ result, policy.install site model = .ok result) ↔
      ∀ rule ∈ rules, rule.Fits model.table := by
    rw [install_succeeds_iff]
    exact forall₂_congr fun _ _ => PolicyRule.checks_iff_fits
  cases installs : policy.install site model with
  | error failure =>
    rw [installs] at inPlace accepted
    have failed : outcome = .error failure := congrArg Prod.fst inPlace
    have same : left = site := congrArg Prod.snd inPlace
    rw [failed, same]
    refine ⟨rfl, ?_, fun count never => ?_, ?_⟩
    · rw [← accepted]
      constructor <;> rintro ⟨_, never⟩ <;> cases never
    · cases never
    · intro other is
      cases is
      refine ⟨rfl, fun panic panics => reading_of_checked ?_⟩
      rw [install, panics] at installs
      exact bind_pure_eq_error_iff.mp installs
  | ok result =>
    obtain ⟨installed, count⟩ := result
    obtain ⟨checkedRules, checked, registered, number⟩ := install_eq_ok_iff.mp installs
    rw [installs] at inPlace accepted
    have succeeded : outcome = .ok count := congrArg Prod.fst inPlace
    have now : left = installed := congrArg Prod.snd inPlace
    have each := checked_eq_ok_iff.mp checked
    rw [succeeded, now]
    refine ⟨rfl, ?_, ?_, fun failure never => ?_⟩
    · rw [← accepted]
      exact ⟨fun _ => ⟨_, rfl⟩, fun _ => ⟨_, rfl⟩⟩
    · intro other is
      cases is
      refine ⟨number.trans each.length_eq.symm, checkedRules.map CheckedRule.script, ?_, ?_, ?_⟩
      · rw [registered, (Site.protectAll_eq known _).1, List.map_map]
        rfl
      · exact List.forall₂_map_right_iff.mpr
          (each.imp fun _ _ ok subject => CheckedRule.amountsTo_script ok subject)
      · rw [List.forall_mem_map]
        intro checkedRule mem census subject perms tabular
        obtain ⟨rule, -, ok⟩ := exists_of_mem_right each mem
        exact CheckedRule.granted_of_run ok census subject tabular
    · cases never

end InPlace

/-- Two rules for notes fit, so that both are appended. With a third rule that gives destroying a
list of fields none is. -/
theorem installs_all_or_none_notes :
    let table := Table.withFields "notes" ["title", "owner"]
    let site : Site AuthContext Unit := { book := RuleBook.empty.create.1 }
    let model : Model := { table, rules := 0 }
    let fitting : List PolicyRule :=
      [{ can := [("destroy", .name "*"), ("read", .names ["title"])] },
       { can := [("update", .constrained [("title", some (.range { min := some (.string "a") }))])]
         scope := some (.owner "owner") }]
    let good : Policy := { tables := [("notes", fitting)] }
    let bad : Policy :=
      { tables := [("notes", fitting ++ [{ cannot := [("destroy", .names ["title"])] }])] }
    model.rules < site.book.sets.length ∧
      (good.installAt model site).1 = .ok 2 ∧
      ((good.installAt model site).2.book.rules model.rules).length = 2 ∧
      (¬ ∃ count, (bad.installAt model site).1 = .ok count) ∧
      (bad.installAt model site).2 = site := by
  intro table site model fitting good bad
  have known : model.rules < site.book.sets.length := by decide
  have unruled : site.book.rules model.rules = [] := RuleBook.rules_of_root rfl
  have destroy : Action.ofName "destroy" = .destroy := by cbv
  have read : Action.ofName "read" = .read := by cbv
  have update : Action.ofName "update" = .update := by cbv
  have goodFits : ∀ rule ∈ good.tableRules model.table, rule.Fits model.table :=
    List.forall_mem_cons.mpr ⟨⟨List.forall_mem_nil _, List.forall_mem_cons.mpr
        ⟨⟨by decide, fun _ => rfl, nofun⟩, List.forall_mem_singleton.mpr
          ⟨by decide, fun destroys => (nomatch read.symm.trans destroys), nofun⟩⟩⟩,
      List.forall_mem_singleton.mpr ⟨by decide, List.forall_mem_singleton.mpr
        ⟨by decide, fun destroys => (nomatch update.symm.trans destroys),
          List.forall_mem_singleton.mpr (.inl rfl)⟩⟩⟩
  have badFits : ¬ ∀ rule ∈ bad.tableRules model.table, rule.Fits model.table := by
    intro fits
    have last := fits _ (List.mem_append_right fitting (List.mem_singleton_self _))
    cases (last.entries _ (List.mem_singleton_self _)).whole destroy
  obtain ⟨-, goodIff, succeeds, -⟩ := installs_all_or_none (S := AuthContext) good known
  obtain ⟨-, badIff, -, fails⟩ := installs_all_or_none (S := AuthContext) bad known
  obtain ⟨count, accepted⟩ := goodIff.mpr goodFits
  obtain ⟨rfl, scripts, appended, each, -⟩ := succeeds count accepted
  refine ⟨known, accepted, ?_, fun done => badFits (badIff.mp done), ?_⟩
  · rw [appended, unruled, List.nil_append, List.length_map, ← each.length_eq]
    rfl
  · cases outcome : (bad.installAt model site).1 with
    | ok count => exact absurd (badIff.mp ⟨count, outcome⟩) badFits
    | error failure => exact (fails failure outcome).1

end Policy

end Warden
