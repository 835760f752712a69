import Warden.Proofs.Remembering
import Warden.Proofs.Sql.Columns
/-! # Columns and readable values
What of a table a subject may read is worked out twice: as the columns that a list of a relation
asks the database for (`Relation.readableColumns`), and as the values that a record shows
(`Guarded.read`, `Guarded.readableValues`). The one looks at permissions that were found without a
record, the other at permissions that were found for it.

Where no rule looks at records both find the same permissions (`Guarded.found_eq_found`), and by the
same permissions the same fields may be read. So the two **agree**
(`Guarded.readable_iff_selected`): a record shows just those of its values whose columns are
selected. -/

namespace Warden

open Sql

namespace Guarded

variable {S Q : Type} {model : Model} {row : Row}

/-! ## What is shown -/

/-- What is shown of several fields is what is shown of each of them. -/
theorem get?_shownEach (found : Option (Permissions Q)) (fields : List String) (field : String) :
    (shownEach model row found fields).get? field =
      if field ∈ fields then shown model row found field else none := by
  induction fields with
  | nil => rfl
  | cons first rest ih =>
    rw [shownEach]
    cases value : shown model row found first with
    | none =>
      dsimp only
      by_cases same : first = field
      · -- A field that is listed twice is not shown the second time, either.
        rw [ih, if_pos (List.mem_cons.mpr (.inl same.symm)), ← same, value]
        split <;> rfl
      · rw [ih]
        simp only [List.mem_cons, Ne.symm same, false_or]
    | some value =>
      dsimp only
      rw [Fields.get?_insert, ih]
      by_cases same : first = field
      · rw [if_pos same, if_pos (List.mem_cons.mpr (.inl same.symm)), ← same]
        exact Eq.symm (by assumption)
      · rw [if_neg same]
        simp only [List.mem_cons, Ne.symm same, false_or]

/-- What is shown is a field map. -/
theorem sorted_shownEach (found : Option (Permissions Q)) (fields : List String) :
    (shownEach model row found fields).Sorted := by
  induction fields with
  | nil => exact Fields.sorted_nil
  | cons field rest ih =>
    rw [shownEach]
    split
    · exact ih
    · exact Fields.sorted_insert ih _ _

/-! ## What is found -/

variable [Query Q] {site : Site S Q}

/-- Where no rule looks at records, a record **finds the permissions** that a relation finds which
is bound to the same subject. -/
theorem found_eq_found {rel : Relation S Q}
    (blind : ∀ rule ∈ site.book.rules rel.model.rules, ∀ body, rule ≠ .entry body) (row : Row)
    (restriction : Restriction S) (strictly : Bool) (trust : Trust) :
    (inheriting rel.model row restriction).found site strictly trust =
      (rel.withRestriction restriction).found site strictly trust := by
  have same : (fun subject => site.evaluate rel.model subject (some row)) =
      fun subject => site.evaluate rel.model subject none :=
    funext fun subject => Site.evaluate_of_no_entry blind subject (some row) none
  exact congrArg (fun evaluate => (Binding.fresh restriction).found evaluate strictly trust) same

end Guarded

/-! ## Columns -/

/-- The columns of a table that may be read by the permissions that were found. -/
def Permissions.shownColumns (table : Table) (found : Option (Permissions Select)) : List String :=
  found.elim table.fieldNames fun perms => perms.columnsOf table

/-- All of them are fields of the table. -/
theorem Permissions.mem_fields_of_shown {model : Model} {found : Option (Permissions Select)}
    {field : String} (mem : field ∈ shownColumns model.table found) : field ∈ model.fields := by
  cases found with
  | none => exact mem
  | some perms => exact (List.mem_filter.mp mem).1

namespace Guarded

variable {model : Model} {row : Row}

/-- A value of the table is shown iff its column may be read. -/
theorem shown_eq (found : Option (Permissions Select)) {field : String}
    (mem : field ∈ model.fields) :
    shown model row found field =
      if field ∈ Permissions.shownColumns model.table found then row.get? field else none := by
  have listed : field ∈ model.table.fieldNames := mem
  cases found with
  | none =>
    rw [Permissions.shownColumns, Option.elim_none, if_pos listed]
    rfl
  | some perms =>
    simp only [shown, Permissions.shownColumns, Option.elim_some, Permissions.columnsOf,
      List.mem_filter, listed, true_and]

end Guarded

/-- Asking for the columns finds permissions, and by them the columns are told. -/
theorem Relation.startFrom_readableColumns {S : Type} (site : Site S Select)
    (rel : Relation S Select) (trust : Trust) :
    (readableColumns site).startFrom rel trust =
      rel.outcome site false trust (Permissions.shownColumns rel.model.table) := by
  unfold readableColumns
  rw [RunOn.startFrom_bind, RunOn.startFrom_object]
  dsimp only
  rw [RunOn.startFrom_bind, startFrom_enforced_eq, outcome]
  dsimp only
  rcases rel.found site false trust with panic | _ | perms <;> rfl

namespace Guarded

variable {S : Type} {site : Site S Select} {rel : Relation S Select} {record : Guarded S Select}
  {trust : Trust}

/-- A record **shows what a relation selects** if the values that it tells are those of the columns
that the relation tells. -/
structure Shows (site : Site S Select) (rel : Relation S Select) (record : Guarded S Select)
    (trust : Trust) (columns : List String) (values : FieldValues) : Prop where
  /-- The relation tells the columns. -/
  selected : ((Relation.readableColumns site).startFrom rel trust).1.1 = .ok columns
  /-- The record tells the values, ... -/
  readable : ((readableValues site).startFrom record trust).1.1 = .ok values
  /-- ... which are a field map. -/
  sorted : values.Sorted
  /-- They are the values that the record has for the columns, ... -/
  value_iff : ∀ field value, values.get? field = some value ↔
    field ∈ columns ∧ record.row.get? field = some value
  /-- ... so that their fields are the columns for which the record has a value. -/
  key_iff : ∀ field, field ∈ values.keys ↔
    field ∈ columns ∧ ∃ value, record.row.get? field = some value
  /-- A single field of the table is read iff its column is selected. -/
  read_eq : ∀ field ∈ record.model.fields, ((read site field).startFrom record trust).1.1 =
    .ok (if field ∈ columns then record.row.get? field else none)

/-- **By the same permissions** a record shows what a relation selects. -/
theorem shows_of_found {found : Option (Permissions Select)} (same : record.model = rel.model)
    (relFinds : rel.found site false trust = .ok found)
    (recordFinds : record.found site false trust = .ok found) :
    ∃ values,
      record.Shows site rel trust (Permissions.shownColumns rel.model.table found) values := by
  have values : (readableValues site).startFrom record trust =
      record.outcome site false trust fun found =>
        pure (shownEach record.model record.row found record.model.fields) :=
    startFrom_ask .readableValues record trust
  have value_iff (field : String) (value : Value) :
      (shownEach record.model record.row found record.model.fields).get? field = some value ↔
        field ∈ Permissions.shownColumns rel.model.table found ∧
          record.row.get? field = some value := by
    rw [get?_shownEach, ← same]
    by_cases mem : field ∈ record.model.fields
    · rw [if_pos mem, shown_eq found mem, Option.ite_none_right_eq_some]
    · rw [if_neg mem]
      exact iff_of_false nofun fun both => mem (Permissions.mem_fields_of_shown both.1)
  refine ⟨_, ?_, ?_, sorted_shownEach found record.model.fields, value_iff, fun field => ?_,
    fun field mem => ?_⟩
  · rw [Relation.startFrom_readableColumns, Relation.outcome, relFinds]
    rfl
  · rw [values, outcome, recordFinds]
    rfl
  · rw [← Fields.has_iff_mem_keys, Fields.has, Option.isSome_iff_exists]
    simp only [value_iff, exists_and_left]
  · rw [startFrom_read, outcome, recordFinds, ← same]
    exact congrArg Except.ok (shown_eq found mem)

/-- **Columns and values agree** where no rule looks at records. Whoever a relation and a record of
its model are bound to, and whether execution is trusted or not, the record shows what the relation
selects: all columns where permissions are not enforced, and otherwise those that the permissions of
the subject let it read, the primary key among them. If the rules panic for the subject, neither the
relation nor the record gives an answer. -/
theorem readable_iff_selected (site : Site S Select) (rel : Relation S Select)
    (blind : ∀ rule ∈ site.book.rules rel.model.rules, ∀ body, rule ≠ .entry body) (row : Row)
    (restriction : Restriction S) (trust : Trust) :
    let list := rel.withRestriction restriction
    let record : Guarded S Select := inheriting rel.model row restriction
    (restriction = .unbound ∨ trust.isActive = true →
      ∃ values, record.Shows site list trust rel.model.table.fieldNames values) ∧
    ∀ subject, restriction = .bound subject → trust.isActive = false →
      (∃ panic, ((site.evaluate rel.model subject none).startFrom trust).1 = .error panic ∧
        ((Relation.readableColumns site).startFrom list trust).1.1 = .error panic ∧
        ((readableValues site).startFrom record trust).1.1 = .error panic ∧
        ∀ field, ((read site field).startFrom record trust).1.1 = .error panic) ∨
      ∃ perms values, ((site.evaluate rel.model subject none).startFrom trust).1 = .ok perms ∧
        record.Shows site list trust (perms.columnsOf rel.model.table) values := by
  intro list record
  have agree : record.found site false trust = list.found site false trust :=
    found_eq_found blind row restriction false trust
  constructor
  · intro free
    have none_found : list.found site false trust = .ok none :=
      Relation.found_of_not_inForce (Restriction.isEnforced_of_free free)
    exact shows_of_found rfl none_found (agree.trans none_found)
  · rintro subject rfl untrusted
    cases evaluated : ((site.evaluate rel.model subject none).startFrom trust).1 with
    | error panic =>
      have panics : list.found site false trust = .error panic :=
        Binding.found_of_panic rfl (.inr untrusted) evaluated
      refine .inl ⟨panic, rfl, ?_, ?_, fun field => ?_⟩
      · rw [Relation.startFrom_readableColumns, Relation.outcome, panics]
        rfl
      · show ((Question.readableValues.ask site).startFrom record trust).1.1 = _
        rw [startFrom_ask, outcome, Question.isStrict, agree, panics]
        rfl
      · rw [startFrom_read, outcome, agree, panics]
        rfl
    | ok perms =>
      have finds : list.found site false trust = .ok (some perms) :=
        Binding.found_of_evaluated rfl (.inr untrusted) evaluated
      have shows : ∃ values, record.Shows site list trust (perms.columnsOf rel.model.table) values :=
        shows_of_found rfl finds (agree.trans finds)
      exact .inr ⟨perms, shows.choose, rfl, shows.choose_spec⟩

/-- Where only titles are granted, a note that is seen by a subject shows its title and its key, which
are what a list of the subject selects. A secret is neither shown nor selected. -/
theorem readable_iff_selected_titles :
    let site : Site Unit Select :=
      { book := RuleBook.empty.create.1.register 0 (.plain (.grant .read [.field "title"])) }
    let model : Model := { table := Table.withFields "notes" ["title", "secret"], rules := 0 }
    let row := Row.stored [("id", .int 1), ("secret", .string "s"), ("title", .string "t")]
    let note : Guarded Unit Select := inheriting model row (.bound ())
    (∀ rule ∈ site.book.rules model.rules, ∀ body, rule ≠ .entry body) ∧
      (∃ values, note.Shows site ((Relation.all model).withRestriction (.bound ())) {}
          ["id", "title"] values ∧
        values.get? "title" = some (.string "t") ∧ values.get? "secret" = none) ∧
      ∃ values, (wrap model row).Shows site ((Relation.all model).withRestriction .unbound) {}
          ["id", "title", "secret"] values ∧
        values.get? "secret" = some (.string "s") := by
  intro site model row note
  have rules : site.book.rules model.rules = [.plain (.grant .read [.field "title"])] :=
    RuleBook.rules_of_root rfl
  have blind : ∀ rule ∈ site.book.rules model.rules, ∀ body, rule ≠ .entry body := by
    rw [rules]
    rintro rule mem body rfl
    cases List.mem_singleton.mp mem
  let perms : Permissions Select := (model.noPermissions {}).can .read [.field "title"]
  have evaluated : ((site.evaluate model () none).startFrom {}).1 = .ok perms := by
    rw [Site.evaluate_of_rules rules]
    rfl
  refine ⟨blind, ?_, ?_⟩
  · rcases (readable_iff_selected site (Relation.all model) blind row (.bound ()) {}).2 () rfl rfl with
      ⟨panic, panicked, -⟩ | ⟨other, values, found, shows⟩
    · cases evaluated.symm.trans panicked
    · cases evaluated.symm.trans found
      refine ⟨values, shows, (shows.value_iff _ _).mpr ⟨?_, rfl⟩, Fields.get?_eq_none fun mem => ?_⟩
      · decide
      · exact absurd ((shows.key_iff _).mp mem).1 (by decide)
  · obtain ⟨values, shows⟩ :=
      (readable_iff_selected site (Relation.all model) blind row .unbound {}).1 (.inl rfl)
    exact ⟨values, shows, (shows.value_iff _ _).mpr ⟨by decide, rfl⟩⟩

end Guarded

end Warden
