import Mathlib
import Warden.Proofs.Policy.Installed
/-! # What a policy means for fields
Under a policy alone, the table of granted fields can be read off the policy without running it. Of
the entries that the policy has for a subject, the **last entry** for an action that mentions a
field decides about the field (`PolicyEntry.constraint?_calls`); an entry that grants leaves the
constraint that it demands, with conditions bound to what they see of the subject. Destroying is
decided by the last entry for it that is not for nothing (`PolicyEntry.destroyable_calls`). Fields
that the table does not have are never granted, and entries that give no field might as well not be
there (`Policy.install_pruned`). -/

namespace Warden

namespace Permissions

variable {Q : Type}

/-- Whether a field is granted is whether its cell holds a constraint. -/
theorem allows_some (perms : Permissions Q) {action : Action} (fieldwise : action ≠ .destroy)
    (field : String) :
    perms.allows action (some field) = (perms.constraint? action field).isSome := by
  rw [allows, if_neg fieldwise, constraint?_eq]
  rfl

end Permissions

/-! ## Calls of entries -/

namespace PolicyEntry

variable [Cel.Evaluation] {Q : Type} {table : Table} {auth : Value} {entries : List PolicyEntry}
  (paranoid : Bool)

/-- No entries grant a field that the table does not have. -/
theorem hasField_of_constraint? {action : Action} {field : String}
    (granted : (((Permissions.none table.fieldNames table paranoid : Permissions Q).after
      (entries.flatMap (calls table auth))).constraint? action field).isSome = true) :
    table.hasField field = true := by
  by_cases destroying : action = .destroy
  · -- Destroying is granted as a whole: no field ever holds a constraint for it.
    have tidy := (Permissions.tidy_none (Q := Q) table.fieldNames table paranoid).after
      (entries.flatMap (calls table auth))
    rw [destroying, Permissions.constraint?, tidy.destroy] at granted
    cases granted
  · rw [Permissions.isSome_constraint?_after _ _ _ _ destroying] at granted
    obtain ⟨call, last, grants⟩ := granted
    obtain ⟨made, affects⟩ := List.mem_filter.mp (List.mem_of_getLast? last)
    obtain ⟨entry, -, made⟩ := List.mem_flatMap.mp made
    rw [Call.affects, grants, Bool.not_true, Bool.false_and, Bool.false_or, Bool.and_eq_true,
      List.contains_iff_mem] at affects
    exact hasField_of_listed made affects.2

variable (check : ∀ entry ∈ entries, entry.Checks table)
include check

/-- **The last entry that mentions a field decides about it.** -/
theorem constraint?_calls {action : Action} (fieldwise : action ≠ .destroy) {field : String}
    (present : table.hasField field = true) :
    ((Permissions.none table.fieldNames table paranoid : Permissions Q).after
        (entries.flatMap (calls table auth))).constraint? action field =
      (last? action field entries).bind fun entry => entry.outcome auth field := by
  have verdicts := congrArg (fun verdict => verdict.bind Prod.snd)
    (last?_calls auth check present action)
  rw [Permissions.constraint?_after _ _ _ _ fieldwise]
  simpa only [Option.bind_map, Function.comp_def] using verdicts

/-- A field is granted iff that entry grants. -/
theorem isSome_constraint?_calls {action : Action} (fieldwise : action ≠ .destroy)
    {field : String} (present : table.hasField field = true) :
    (((Permissions.none table.fieldNames table paranoid : Permissions Q).after
        (entries.flatMap (calls table auth))).constraint? action field).isSome = true ↔
      ∃ entry, last? action field entries = some entry ∧ entry.grants = true := by
  have verdicts := congrArg (fun verdict => verdict.map Prod.fst)
    (last?_calls auth check present action)
  simp only [Option.map_map] at verdicts
  rw [Permissions.isSome_constraint?_after _ _ _ _ fieldwise, ← Option.map_eq_some_iff,
    ← Option.map_eq_some_iff]
  exact Eq.congr_left verdicts

/-- **The last entry for destroying decides about it**, those for nothing apart. -/
theorem destroyable_calls :
    ((Permissions.none table.fieldNames table paranoid : Permissions Q).after
        (entries.flatMap (calls table auth))).destroyable = true ↔
      ∃ entry, lastDestroy? entries = some entry ∧ entry.grants = true := by
  rw [Permissions.destroyable_after, ← Option.map_eq_some_iff, ← Option.map_eq_some_iff]
  exact Eq.congr_left (lastDestroy?_calls check)

end PolicyEntry

namespace Policy

variable {S Q : Type} [Principal S]

/-! ## Leaving out what gives no field -/

/-- Pruning a policy prunes the rules that address a subject. -/
theorem rulesFor_pruned (policy : Policy) (table : Table) (subject : S) :
    policy.pruned.rulesFor table subject =
      (policy.rulesFor table subject).map PolicyRule.pruned := by
  rw [rulesFor, rulesFor, tableRules_pruned, List.filter_map]
  rfl

/-- Pruning a policy prunes the entries for a subject. -/
theorem entriesFor_pruned (policy : Policy) (table : Table) (subject : S) :
    policy.pruned.entriesFor table subject =
      (policy.entriesFor table subject).filter fun entry => !entry.fields.isVoid := by
  rw [entriesFor, entriesFor, rulesFor_pruned, List.flatMap_map, List.filter_flatMap]
  simp only [PolicyRule.entries_pruned]

/-- Pruning a policy keeps the scopes for a subject. -/
theorem scopesFor_pruned (policy : Policy) (table : Table) (subject : S) :
    policy.pruned.scopesFor table subject = policy.scopesFor table subject := by
  rw [scopesFor, scopesFor, rulesFor_pruned, List.filterMap_map]
  rfl

/-- What checks still does when it is pruned. -/
theorem checks_pruned {rule : PolicyRule} {table : Table} (checks : rule.Checks table) :
    rule.pruned.Checks table where
  scope := checks.scope
  entries entry mem := by
    rw [PolicyRule.entries_pruned] at mem
    exact checks.entries entry (List.mem_filter.mp mem).1

section Granting

variable [Cel.Evaluation] [Query Q] {policy : Policy} {site installed : Site S Q} {model : Model}
  {count : Nat}

/-- A policy that can be installed still can when it is pruned, and as many rules are installed. -/
theorem install_pruned (installs : policy.install site model = .ok (installed, count)) :
    ∃ pruned, policy.pruned.install site model = .ok (pruned, count) := by
  have check := install_succeeds_iff.mp ⟨_, installs⟩
  have still : ∀ rule ∈ policy.pruned.tableRules model.table, rule.Checks model.table := by
    rw [tableRules_pruned, List.forall_mem_map]
    exact fun rule mem => checks_pruned (check rule mem)
  have possible : ∃ result, policy.pruned.install site model = .ok result :=
    install_succeeds_iff.mpr still
  obtain ⟨⟨pruned, number⟩, succeeds⟩ := possible
  have same : number = count := by
    rw [count_of_install succeeds, count_of_install installs, tableRules_pruned, List.length_map]
  exact ⟨pruned, same ▸ succeeds⟩

/-! ## Granted fields -/

/-- All entries of a policy that was installed check. -/
theorem checks_of_install (installs : policy.install site model = .ok (installed, count))
    (subject : S) : ∀ entry ∈ policy.entriesFor model.table subject, entry.Checks model.table := by
  intro entry mem
  obtain ⟨rule, addressed, mem⟩ := List.mem_flatMap.mp mem
  have inTable : rule ∈ policy.tableRules model.table := (List.mem_filter.mp addressed).1
  exact (install_succeeds_iff.mp ⟨_, installs⟩ rule inTable).entries entry mem

/-- **What a policy grants.** Where a policy is all that there is for a model, a field of the table
is granted for an action iff the last entry for the action that mentions the field grants, among the
entries of the rules that address the subject; the constraint is the one that this entry demands.
Destroying is granted iff the last entry for it grants, those for nothing apart. No other field is
granted, whether a record is given makes no difference, and neither do entries that give no
field. -/
theorem installed_grants (known : model.rules < site.book.sets.length)
    (unruled : site.book.rules model.rules = [])
    (installs : policy.install site model = .ok (installed, count)) (subject : S)
    (record : Option Row) (trust : Trust) :
    let entries := policy.entriesFor model.table subject
    let auth := Principal.authValue subject
    ∃ perms : Permissions Q,
      (installed.evaluate model subject record).startFrom trust = (.ok perms, trust) ∧
      (∀ action field, (perms.constraint? action field).isSome = true →
        model.table.hasField field = true) ∧
      (∀ action, action ≠ .destroy → ∀ field, model.table.hasField field = true →
        perms.constraint? action field =
            (PolicyEntry.last? action field entries).bind (fun entry => entry.outcome auth field) ∧
          (perms.allows action (some field) = true ↔
            ∃ entry, PolicyEntry.last? action field entries = some entry ∧ entry.grants = true)) ∧
      (perms.allows .destroy none = true ↔
        ∃ entry, PolicyEntry.lastDestroy? entries = some entry ∧ entry.grants = true) ∧
      ∃ pruned, policy.pruned.install site model = .ok (pruned, count) ∧
        (pruned.evaluate model subject record).startFrom trust = (.ok perms, trust) := by
  intro entries auth
  have check := checks_of_install installs subject
  have evaluated := evaluate_of_install known unruled installs subject record trust
  refine ⟨_, evaluated, ?_, ?_, ?_, ?_⟩
  · intro action field granted
    exact PolicyEntry.hasField_of_constraint? _ granted
  · intro action fieldwise field present
    rw [Permissions.allows_some _ fieldwise]
    exact ⟨PolicyEntry.constraint?_calls _ check fieldwise present,
      PolicyEntry.isSome_constraint?_calls _ check fieldwise present⟩
  · exact PolicyEntry.destroyable_calls _ check
  · -- The entries that were left out make no calls, so the same calls remain.
    obtain ⟨pruned, succeeds⟩ := install_pruned installs
    refine ⟨pruned, succeeds, ?_⟩
    rw [evaluate_of_install known unruled succeeds, entriesFor_pruned, scopesFor_pruned,
      PolicyEntry.calls_of_pruned]

end Granting

/-- To Ada, who is a guest, everyone's rule shows all notes' fields, the rule for guests hides the
owner again and lets the title be set to one value, and the rule for editors says nothing. -/
theorem installed_grants_guest :
    let table := Table.withFields "notes" ["title", "owner"]
    let site : Site AuthContext Unit := { book := RuleBook.empty.create.1 }
    let model : Model := { table, rules := 0 }
    let policy : Policy := { tables := [("notes",
      [{ can := [("destroy", .flag false), ("read", .name "*")] },
       { roles := [.role "guest"]
         can := [("update", .constrained [("title", some (.literal (.string "draft")))])]
         cannot := [("VIEW", .names ["owner"])] },
       { roles := [.role "editor"], can := [("destroy", .flag true)] }])] }
    let ada := AuthContext.ofUser "ada" ["guest"]
    model.rules < site.book.sets.length ∧ site.book.rules model.rules = [] ∧
      ∃ installed perms, policy.install site model = .ok (installed, 3) ∧
        (installed.evaluate model ada none).startFrom {} = (.ok perms, {}) ∧
        perms.allows .read (some "title") = true ∧ perms.allows .read (some "owner") = false ∧
        perms.constraint? .update "title" = some (.literal (.string "draft")) ∧
        perms.allows .destroy none = false := by
  intro table site model policy ada
  have unruled : site.book.rules model.rules = [] := RuleBook.rules_of_root rfl
  have destroy : Action.ofName "destroy" = .destroy := by cbv
  have read : Action.ofName "read" = .read := by cbv
  have update : Action.ofName "update" = .update := by cbv
  have view : Action.ofName "VIEW" = .read := by cbv
  have check : ∀ rule ∈ policy.tableRules model.table, rule.Checks model.table :=
    List.forall_mem_cons.mpr ⟨⟨List.forall_mem_nil _, List.forall_mem_cons.mpr
        ⟨.of_action destroy rfl, List.forall_mem_singleton.mpr (.of_action read rfl)⟩⟩,
      List.forall_mem_cons.mpr ⟨⟨List.forall_mem_nil _, List.forall_mem_cons.mpr
        ⟨.of_action update rfl, List.forall_mem_singleton.mpr (.of_action view rfl)⟩⟩,
      List.forall_mem_singleton.mpr
        ⟨List.forall_mem_nil _, List.forall_mem_singleton.mpr (.of_action destroy rfl)⟩⟩⟩
  have possible : ∃ result, policy.install site model = .ok result := install_succeeds_iff.mpr check
  obtain ⟨⟨installed, count⟩, installs⟩ := possible
  cases count_of_install installs
  obtain ⟨perms, evaluated, -, cells, destroys, -⟩ :=
    installed_grants (by decide) unruled installs ada none {}
  refine ⟨by decide, unruled, installed, perms, installs, evaluated, ?_, ?_, ?_, ?_⟩
  · rw [(cells .read (by decide) "title" rfl).2]
    exact ⟨⟨true, "read", .name "*"⟩, by cbv, rfl⟩
  · rw [← Bool.not_eq_true, (cells .read (by decide) "owner" rfl).2]
    rintro ⟨entry, last, grants⟩
    have hidden : PolicyEntry.last? .read "owner" (policy.entriesFor model.table ada) =
        some ⟨false, "VIEW", .names ["owner"]⟩ := by cbv
    cases hidden.symm.trans last
    cases grants
  · rw [(cells .update (by decide) "title" rfl).1]
    cbv
  · rw [← Bool.not_eq_true, destroys]
    rintro ⟨entry, last, -⟩
    have never : PolicyEntry.lastDestroy? (policy.entriesFor model.table ada) = none := by cbv
    cases never.symm.trans last

end Policy

end Warden
