import Warden.Proofs.Policy.Entries
import Warden.Proofs.Registration
/-! # What checking establishes
An entry of a policy **checks** for a table (`PolicyEntry.Checks`) if the fields that it lists are
fields of the table and every demand on their values can be met by a constraint. An entry that
checks comes to at most one call (`PolicyEntry.calls`). The call names no field where every field is
meant, and there is none where no field is given, since a call without fields would mean them all.
By its call an entry leaves for each field of the table what it says about the field
(`PolicyEntry.verdicts_calls`), so that the last of several entries that mention a field decides
(`PolicyEntry.last?_calls`). -/

namespace Warden

/-- A refusal is a failure, and success stays. -/
theorem liftM_eq_ok_iff {α : Type} {step : Except Error α} {a : α} :
    (liftM step : Except Failure α) = .ok a ↔ step = .ok a := by
  cases step with
  | error e => exact ⟨nofun, nofun⟩
  | ok b => exact ⟨fun same => by cases same; rfl, fun same => by cases same; rfl⟩

/-- A refusal is no panic. -/
theorem liftM_ne_panicked {α : Type} {step : Except Error α} {panic : Panic} :
    (liftM step : Except Failure α) ≠ .error (.panicked panic) := by
  cases step with
  | ok a => exact nofun
  | error e => exact nofun

/-! ## Fields and constraints -/

theorem Table.requireAll_eq_ok_iff {table : Table} {fields : List String} :
    table.requireAll fields = .ok () ↔ ∀ field ∈ fields, table.hasField field = true := by
  induction fields with
  | nil => simp [requireAll]
  | cons field rest ih =>
    rw [requireAll, bind_eq_ok_iff, List.forall_mem_cons, ← ih, require]
    by_cases has : table.hasField field = true
    · rw [if_pos has]
      simp [has]
    · rw [if_neg has]
      simp [has]

namespace FieldRule

variable {field : String} {auth : Value}

/-- A checked constraint is what was demanded. -/
theorem constraint_of_ofSpec [Cel.Evaluation] {spec : Option ConstraintSpec} {rule : FieldRule}
    (checked : ofSpec field spec = .ok rule) :
    ConstraintSpec.constraint? auth spec = some (rule.constraint auth) := by
  cases spec with
  | none =>
    cases checked
    rfl
  | some spec =>
    cases spec with
    | literal value =>
      cases checked
      rfl
    | condition source =>
      rw [ofSpec] at checked
      rw [ConstraintSpec.constraint?]
      cases read : Cel.Condition.ofText source with
      | error failure =>
        rw [read] at checked
        cases checked
      | ok condition =>
        rw [read] at checked
        cases checked
        rfl
    | range limits =>
      rw [ofSpec] at checked
      obtain ⟨range, ranged, same⟩ := bind_eq_ok_iff.mp checked
      cases same
      rw [liftM_eq_ok_iff, ofRange] at ranged
      split at ranged
      · cases ranged
      · cases ranged
        -- Whichever bounds are given, the checked range has the same ones.
        obtain ⟨min, max, exclusive⟩ := limits
        rw [ConstraintSpec.constraint?, constraint]
        cases min <;> cases max <;> cases exclusive <;> rfl

/-- Checking keeps the fields, and gives each what is demanded of it. -/
theorem mapValues_of_ofEntries [Cel.Evaluation] {listed : List (String × Option ConstraintSpec)}
    {rules : List (String × FieldRule)} (checked : ofEntries listed = .ok rules) (auth : Value) :
    Fields.mapValues (fun rule => some (rule.constraint auth)) rules =
      Fields.mapValues (ConstraintSpec.constraint? auth) listed := by
  induction listed generalizing rules with
  | nil =>
    cases checked
    rfl
  | cons entry rest ih =>
    obtain ⟨name, spec⟩ := entry
    rw [ofEntries, bind_eq_ok_iff] at checked
    obtain ⟨rule, given, later⟩ := checked
    obtain ⟨others, checkedRest, same⟩ := bind_eq_ok_iff.mp later
    cases same
    exact congrArg₂ List.cons (Prod.ext rfl (constraint_of_ofSpec given).symm) (ih checkedRest)

/-- Fields without demands always check. -/
theorem ofEntries_undemanded (names : List String) :
    ofEntries (names.map fun name => (name, none)) =
      .ok (names.map fun name => (name, .unconstrained)) := by
  induction names with
  | nil => rfl
  | cons name rest ih =>
    rw [List.map_cons, ofEntries, ih]
    rfl

end FieldRule

/-- What is checked of fields, unless every field is meant, are the listed ones. -/
theorem Grant.entriesOf_eq {list : FieldList} (notAll : list.isAll = false) :
    entriesOf list = FieldRule.ofEntries list.listed := by
  cases list with
  | flag value => rfl
  | constrained fields => rfl
  | names fields => exact (FieldRule.ofEntries_undemanded fields).symm
  | name field =>
    -- The name is not the one that stands for every field.
    have named : FieldList.fieldNames (.name field) = [field] := by
      rw [FieldList.isAll] at notAll
      rw [FieldList.fieldNames, notAll]
      rfl
    show Except.ok ((FieldList.fieldNames (.name field)).map _) = _
    rw [named]
    rfl

/-! ## Entries -/

namespace PolicyEntry

variable {table : Table} {auth : Value} {entry : PolicyEntry}

/-- An entry **checks** for a table if its fields can be applied to it. -/
def Checks (table : Table) (entry : PolicyEntry) : Prop :=
  ∃ grant, Grant.ofFields table entry.action entry.fields = .ok grant

/-- An entry checks if its fields can be applied for the action of its name. -/
theorem Checks.of_action {action : Action} (named : entry.action = action) {grant : Grant}
    (checked : Grant.ofFields table action entry.fields = .ok grant) : entry.Checks table :=
  ⟨grant, named ▸ checked⟩

/-- The call that an entry makes with given specifications. -/
def call (entry : PolicyEntry) (specs : List FieldSpec) : Call :=
  if entry.grants then .can entry.action specs else .cannot entry.action specs

@[simp] theorem action_call (specs : List FieldSpec) :
    (entry.call specs).action = entry.action := by
  rw [call]
  split <;> rfl

@[simp] theorem specs_call (specs : List FieldSpec) : (entry.call specs).specs = specs := by
  rw [call]
  split <;> rfl

@[simp] theorem grants_call (specs : List FieldSpec) :
    (entry.call specs).grants = entry.grants := by
  rw [call]
  cases entry.grants <;> rfl

/-- A call that names no field lists every field of the table. -/
@[simp] theorem listed_call_nil (fields : List String) :
    (entry.call []).listed fields = fields := by
  rw [Call.listed, specs_call]

/-- A call that names no field constrains none. -/
@[simp] theorem entries_call_nil (fields : List String) :
    (entry.call []).entries fields = fields.map fun field => (field, .unconstrained) := by
  rw [Call.entries, specs_call]

variable [Cel.Evaluation]

/-- The calls of an entry with checked fields. -/
def callsOf (auth : Value) (entry : PolicyEntry) (grant : Grant) : List Call :=
  ((grant.specs? auth).map entry.call).toList

/-- The calls that an entry comes to; none if it does not check. -/
def calls (table : Table) (auth : Value) (entry : PolicyEntry) : List Call :=
  match Grant.ofFields table entry.action entry.fields with
  | .ok grant => entry.callsOf auth grant
  | .error _ => []

/-- The calls of an entry are those with its checked fields. -/
theorem calls_of_checked {grant : Grant}
    (checked : Grant.ofFields table entry.action entry.fields = .ok grant) :
    entry.calls table auth = entry.callsOf auth grant := by
  unfold calls
  rw [checked]

/-- A call with checked fields lists these. -/
@[simp] theorem listed_call_spec (fields : List String) (rules : List (String × FieldRule)) :
    (entry.call [Grant.spec auth rules]).listed fields = rules.map Prod.fst := by
  rw [Call.listed, specs_call]
  show (rules.map _).map Prod.fst ++ [] = _
  rw [List.append_nil, List.map_map]
  rfl

/-- A call with checked fields constrains these. -/
@[simp] theorem entries_call_spec (fields : List String) (rules : List (String × FieldRule)) :
    (entry.call [Grant.spec auth rules]).entries fields =
      Fields.mapValues (fun rule => rule.constraint auth) rules := by
  rw [Call.entries, specs_call]
  exact List.append_nil _

/-- An entry that does not check makes no call. -/
theorem calls_of_not_checks (fails : ¬ entry.Checks table) : entry.calls table auth = [] := by
  unfold calls
  split
  · next grant checked => exact absurd ⟨grant, checked⟩ fails
  · rfl

/-- An entry for every field calls without naming any. -/
theorem calls_of_isAll (all : entry.fields.isAll = true) :
    entry.calls table auth = [entry.call []] := by
  unfold calls Grant.ofFields
  by_cases destroying : entry.action = .destroy
  · rw [if_pos destroying, if_pos all]
    rfl
  · rw [if_neg destroying, if_pos all]
    rfl

/-- An entry with listed fields has them checked, and names them in its call if there are any. -/
theorem calls_of_listed (auth : Value) (notAll : entry.fields.isAll = false)
    (checks : entry.Checks table) :
    ∃ rules, FieldRule.ofEntries entry.fields.listed = .ok rules ∧
      (∀ field ∈ rules.map Prod.fst, table.hasField field = true) ∧
      (entry.action = .destroy → entry.fields.isNo = true ∧ rules = []) ∧
      entry.calls table auth = if rules = [] then [] else [entry.call [Grant.spec auth rules]] := by
  obtain ⟨grant, checked⟩ := checks
  rw [calls_of_checked checked]
  unfold Grant.ofFields at checked
  rw [notAll] at checked
  by_cases destroying : entry.action = .destroy
  · -- Of what does not mean every field only a flag checks for destroying, and so `false`.
    rw [if_pos destroying, if_neg Bool.false_ne_true] at checked
    split at checked
    · next value given =>
      cases checked
      rw [given] at notAll ⊢
      cases notAll
      exact ⟨[], rfl, nofun, fun _ => ⟨rfl, rfl⟩, rfl⟩
    · cases checked
  · rw [if_neg destroying, if_neg Bool.false_ne_true, Grant.entriesOf_eq notAll] at checked
    obtain ⟨rules, given, later⟩ := bind_eq_ok_iff.mp checked
    obtain ⟨_, present, same⟩ := bind_eq_ok_iff.mp later
    cases same
    refine ⟨rules, given, Table.requireAll_eq_ok_iff.mp (liftM_eq_ok_iff.mp present),
      fun destroys => absurd destroys destroying, ?_⟩
    cases rules <;> rfl

/-- The calls of an entry are for its action. -/
theorem action_of_mem_calls {call : Call} (made : call ∈ entry.calls table auth) :
    call.action = entry.action := by
  unfold calls at made
  split at made
  · obtain ⟨specs, -, same⟩ := Option.map_eq_some_iff.mp (Option.mem_toList.mp made)
    rw [← same, action_call]
  · cases made

/-- An entry that gives no field makes no call. -/
theorem calls_of_isVoid (void : entry.fields.isVoid = true) : entry.calls table auth = [] := by
  by_cases checks : entry.Checks table
  · have empty : entry.fields.isAll = false ∧ entry.fields.listed = [] := by
      cases given : entry.fields with
      | flag value =>
        rw [given] at void
        exact ⟨Bool.not_eq_true' _ ▸ void, rfl⟩
      | name field =>
        rw [given] at void
        cases void
      | names fields =>
        rw [given] at void
        exact ⟨rfl, by rw [FieldList.listed, List.isEmpty_iff.mp void]; rfl⟩
      | constrained fields =>
        rw [given] at void
        exact ⟨rfl, List.isEmpty_iff.mp void⟩
    obtain ⟨rules, given, -, -, calls⟩ := calls_of_listed auth empty.1 checks
    rw [empty.2] at given
    cases given
    exact calls
  · exact calls_of_not_checks checks

/-- The calls of an entry list fields of the table only. -/
theorem hasField_of_listed {call : Call} (made : call ∈ entry.calls table auth) {field : String}
    (listed : field ∈ call.listed table.fieldNames) : table.hasField field = true := by
  by_cases checks : entry.Checks table
  · cases all : entry.fields.isAll with
    | true =>
      rw [calls_of_isAll all, List.mem_singleton] at made
      rw [made, listed_call_nil] at listed
      exact Table.mem_fieldNames.mp listed
    | false =>
      obtain ⟨rules, -, present, -, calls⟩ := calls_of_listed auth all checks
      rw [calls] at made
      split at made
      · cases made
      · rw [List.mem_singleton.mp made, listed_call_spec] at listed
        exact present field listed
  · rw [calls_of_not_checks checks] at made
    cases made

/-- A call with checked fields affects those, and constrains each as is demanded. -/
theorem verdict_call_spec (entry : PolicyEntry) (auth : Value)
    {listed : List (String × Option ConstraintSpec)}
    {rules : List (String × FieldRule)} (given : FieldRule.ofEntries listed = .ok rules)
    (fields : List String) (field : String) :
    let call := entry.call [Grant.spec auth rules]
    call.affects fields entry.action field = (Fields.last? listed field).isSome ∧
      call.outcome fields field = if entry.grants then
        (Fields.last? listed field).bind (ConstraintSpec.constraint? auth) else none := by
  intro call
  have demanded := congrArg (fun pairs => Fields.last? pairs field)
    (FieldRule.mapValues_of_ofEntries given auth)
  rw [Fields.last?_mapValues, Fields.last?_mapValues] at demanded
  have listed : (call.listed fields).contains field = (Fields.last? rules field).isSome := by
    rw [Bool.eq_iff_iff, List.contains_iff_mem, listed_call_spec, Fields.isSome_last?]
  rw [Call.affects, Call.outcome, listed, action_call, specs_call, grants_call, entries_call_spec,
    Fields.last?_mapValues, decide_eq_true rfl, List.isEmpty_cons, Bool.and_false, Bool.true_and,
    Bool.false_or]
  -- The last pair with the field is there on both sides or on neither.
  cases last : Fields.last? rules field with
  | none =>
    rw [last, Option.map_none, eq_comm, Option.map_eq_none_iff] at demanded
    rw [demanded]
    exact ⟨rfl, rfl⟩
  | some rule =>
    rw [last, Option.map_some, eq_comm, Option.map_eq_some_iff] at demanded
    obtain ⟨spec, asked, constraint⟩ := demanded
    rw [asked, Option.bind_some, constraint]
    exact ⟨rfl, rfl⟩

/-- **What an entry's calls do to a field**: they affect it iff the entry concerns it, and then
leave what the entry says. -/
theorem verdicts_calls (checks : entry.Checks table) {field : String}
    (present : table.hasField field = true) (action : Action) :
    ((entry.calls table auth).filter (Call.affects table.fieldNames action field)).map
        (fun call => (call.grants, call.outcome table.fieldNames field)) =
      if entry.concerns action field then [(entry.grants, entry.outcome auth field)] else [] := by
  by_cases same : entry.action = action
  · subst same
    rw [concerns, decide_eq_true rfl, Bool.true_and, outcome, FieldList.demand?]
    cases all : entry.fields.isAll with
    | true =>
      have listed : field ∈ table.fieldNames := Table.mem_fieldNames.mpr present
      rw [calls_of_isAll all, if_pos rfl]
      simp [Call.affects, listed, Call.outcome, Fields.last?_map_const, ConstraintSpec.constraint?]
    | false =>
      obtain ⟨rules, given, -, -, calls⟩ := calls_of_listed auth all checks
      obtain ⟨affects, outcome⟩ :=
        verdict_call_spec entry auth given table.fieldNames field
      rw [calls, if_neg Bool.false_ne_true]
      cases rules with
      | nil =>
        -- Without checked fields nothing is listed.
        have empty := FieldRule.mapValues_of_ofEntries given auth
        rw [eq_comm, Fields.mapValues, Fields.mapValues, List.map_nil, List.map_eq_nil_iff] at empty
        rw [empty]
        rfl
      | cons rule rest =>
        rw [if_neg (List.cons_ne_nil rule rest), List.filter_singleton, affects,
          Bool.cond_eq_ite]
        split
        · rw [List.map_singleton, grants_call, outcome]
        · rfl
  · have spared : (entry.calls table auth).filter (Call.affects table.fieldNames action field)
        = [] := by
      refine List.filter_eq_nil_iff.mpr fun call made => ?_
      rw [Call.affects, action_of_mem_calls made, decide_eq_false same]
      exact Bool.false_ne_true
    rw [spared, concerns, decide_eq_false same]
    rfl

/-- What an entry's calls do to destroying: they grant or withdraw it unless the entry is for
something else or for nothing. -/
theorem destroys_calls (checks : entry.Checks table) :
    ((entry.calls table auth).filter fun call => decide (call.action = .destroy)).map Call.grants =
      if decide (entry.action = .destroy) && !entry.fields.isNo then [entry.grants] else [] := by
  by_cases destroying : entry.action = .destroy
  · rw [decide_eq_true destroying, Bool.true_and]
    cases all : entry.fields.isAll with
    | true =>
      have something : entry.fields.isNo = false := by
        cases given : entry.fields with
        | flag value =>
          rw [given] at all
          exact (Bool.not_eq_false' _).mpr all
        | _ => rfl
      rw [calls_of_isAll all, something]
      simp [destroying]
    | false =>
      obtain ⟨rules, -, -, nothing, calls⟩ := calls_of_listed auth all checks
      obtain ⟨isNo, empty⟩ := nothing destroying
      rw [calls, empty, isNo]
      rfl
  · have spared : (entry.calls table auth).filter (fun call => decide (call.action = .destroy))
        = [] := by
      refine List.filter_eq_nil_iff.mpr fun call made => ?_
      rw [action_of_mem_calls made, decide_eq_false destroying]
      exact Bool.false_ne_true
    rw [spared, decide_eq_false destroying]
    rfl

/-! ## Entries in a row -/

omit [Cel.Evaluation] in
/-- What several entries leave, if each leaves one thing or none. -/
theorem filter_flatMap_of_each {α β γ : Type} {items : List α} {calls : α → List β}
    {affects : β → Bool} {verdict : β → γ} {concerns : α → Bool} {said : α → γ}
    (each : ∀ item ∈ items, ((calls item).filter affects).map verdict =
      if concerns item then [said item] else []) :
    ((items.flatMap calls).filter affects).map verdict = (items.filter concerns).map said := by
  induction items with
  | nil => rfl
  | cons item rest ih =>
    rw [List.flatMap_cons, List.filter_append, List.map_append, each item List.mem_cons_self,
      ih fun other later => each other (List.mem_cons_of_mem item later), List.filter_cons]
    split <;> rfl

variable {entries : List PolicyEntry}

/-- The last call that affects a field comes from the last entry that concerns it. -/
theorem last?_calls (auth : Value) (check : ∀ entry ∈ entries, entry.Checks table) {field : String}
    (present : table.hasField field = true) (action : Action) :
    (Call.last? table.fieldNames action field (entries.flatMap (calls table auth))).map
        (fun call => (call.grants, call.outcome table.fieldNames field)) =
      (last? action field entries).map fun entry => (entry.grants, entry.outcome auth field) := by
  rw [Call.last?, last?, ← List.getLast?_map, ← List.getLast?_map, filter_flatMap_of_each]
  exact fun entry mem => verdicts_calls (check entry mem) present action

/-- The last call on destroying comes from the last entry for it that is not for nothing. -/
theorem lastDestroy?_calls (check : ∀ entry ∈ entries, entry.Checks table) :
    ((entries.flatMap (calls table auth)).filter
        fun call => decide (call.action = .destroy)).getLast?.map Call.grants =
      (lastDestroy? entries).map PolicyEntry.grants := by
  rw [lastDestroy?, ← List.getLast?_map, ← List.getLast?_map, filter_flatMap_of_each]
  exact fun entry mem => destroys_calls (check entry mem)

/-- Entries that give no field can be left out. -/
theorem calls_of_pruned (entries : List PolicyEntry) :
    (entries.filter fun entry => !entry.fields.isVoid).flatMap (calls table auth) =
      entries.flatMap (calls table auth) := by
  induction entries with
  | nil => rfl
  | cons entry rest ih =>
    rw [List.filter_cons, List.flatMap_cons]
    cases void : entry.fields.isVoid with
    | true => rw [calls_of_isVoid void, ← ih]; rfl
    | false => exact congrArg _ ih

end PolicyEntry

end Warden
