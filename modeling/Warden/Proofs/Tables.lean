import Mathlib.Data.List.Nodup
import Warden.Table
/-! # Fields of tables
The fields of a table are its primary key and its columns. No field is listed twice iff the columns
have different names, none of them that of the key (`Table.nodup_fieldNames_iff`). A table that is
put together from a list of fields leaves the usual key out of its columns. Renaming the key
afterwards leaves the columns as they are: a column that has the new name is then listed twice, and
a field with the usual name is lost (`Table.withPrimaryKey_withFields`). -/

namespace Warden

namespace Table

/-! ## Listed fields -/

/-- No field is listed twice iff the columns have different names, none of them that of the key. -/
theorem nodup_fieldNames_iff {table : Table} :
    table.fieldNames.Nodup ↔ table.primaryKey ∉ table.columns.map Column.name ∧
      (table.columns.map Column.name).Nodup :=
  List.nodup_cons

/-- The columns of a table that is put together from fields are these without the usual key. -/
@[simp] theorem columns_withFields (name : String) (fields : List String) :
    (withFields name fields).columns.map Column.name = fields.filter (· ≠ defaultKey) := by
  rw [withFields, List.map_map]
  exact List.map_id _

/-- Renaming the key changes the first field only. -/
@[simp] theorem fieldNames_withPrimaryKey (table : Table) (key : String) :
    (table.withPrimaryKey key).fieldNames = key :: table.columns.map Column.name := rfl

/-- Leaving out one field or another makes no difference iff they are the same or neither is
there. -/
theorem filter_ne_eq_filter_ne_iff {fields : List String} {one other : String} :
    fields.filter (· ≠ one) = fields.filter (· ≠ other) ↔
      one = other ∨ (one ∉ fields ∧ other ∉ fields) := by
  constructor
  · intro same
    -- A field that only one of them leaves out would be on one side and not on the other.
    refine or_iff_not_imp_left.mpr fun different => ⟨fun listed => ?_, fun listed => ?_⟩
    · have kept : one ∈ fields.filter (· ≠ other) :=
        List.mem_filter.mpr ⟨listed, decide_eq_true different⟩
      rw [← same] at kept
      exact of_decide_eq_true (List.mem_filter.mp kept).2 rfl
    · have kept : other ∈ fields.filter (· ≠ one) :=
        List.mem_filter.mpr ⟨listed, decide_eq_true (Ne.symm different)⟩
      rw [same] at kept
      exact of_decide_eq_true (List.mem_filter.mp kept).2 rfl
  · rintro (rfl | ⟨oneMissing, otherMissing⟩)
    · rfl
    · have whole {missing : String} (absent : missing ∉ fields) :
          fields.filter (· ≠ missing) = fields :=
        List.filter_eq_self.mpr fun field listed =>
          decide_eq_true fun same => absent (same ▸ listed)
      rw [whole oneMissing, whole otherMissing]

/-! ## Tables with a key of their own -/

/-- **A table whose key is renamed** after it was put together from different fields has the new key
and the fields without the *usual* one. No field is listed twice iff the new key is the usual one
or no field, and none is lost iff the new key or no field is the usual one. So it lists the key
and then the fields that are not the key iff both is the case. -/
theorem withPrimaryKey_withFields (name key : String) {fields : List String}
    (distinct : fields.Nodup) :
    let table := (withFields name fields).withPrimaryKey key
    table.fieldNames = key :: fields.filter (· ≠ defaultKey) ∧
      (∀ field, table.hasField field = true ↔
        field = key ∨ (field ∈ fields ∧ field ≠ defaultKey)) ∧
      (table.fieldNames.Nodup ↔ key = defaultKey ∨ key ∉ fields) ∧
      ((∀ field ∈ fields, table.hasField field = true) ↔
        key = defaultKey ∨ defaultKey ∉ fields) ∧
      (table.fieldNames = key :: fields.filter (· ≠ key) ↔
        key = defaultKey ∨ (key ∉ fields ∧ defaultKey ∉ fields)) := by
  intro table
  have listed : table.fieldNames = key :: fields.filter (· ≠ defaultKey) := by
    rw [fieldNames_withPrimaryKey, columns_withFields]
  have has (field : String) : table.hasField field = true ↔
      field = key ∨ (field ∈ fields ∧ field ≠ defaultKey) := by
    rw [← mem_fieldNames, listed, List.mem_cons, List.mem_filter, decide_eq_true_iff]
  refine ⟨listed, has, ?_, ?_, ?_⟩
  · -- The fields are different, so that only the key can be listed twice.
    rw [listed, List.nodup_cons, and_iff_left (distinct.filter _), List.mem_filter,
      decide_eq_true_iff, not_and_not_right]
    exact ⟨fun usual => or_iff_not_imp_right.mpr fun there => usual (not_not.mp there),
      fun either there => either.resolve_right (not_not.mpr there)⟩
  · -- Only the usual key can be lost.
    simp only [has]
    constructor
    · intro kept
      refine or_iff_not_imp_right.mpr fun there => ?_
      rcases kept defaultKey (not_not.mp there) with same | ⟨-, other⟩
      · exact same.symm
      · exact absurd rfl other
    · rintro either field there
      by_cases usual : field = defaultKey
      · exact .inl (usual.trans (either.resolve_right fun lost => lost (usual ▸ there)).symm)
      · exact .inr ⟨there, usual⟩
  · rw [listed, List.cons.injEq, and_iff_right rfl, filter_ne_eq_filter_ne_iff]
    exact or_congr eq_comm and_comm

/-- Renaming the key to the name of a column lists that column twice. -/
theorem withPrimaryKey_withFields_code :
    ["code", "title"].Nodup ∧
      ((withFields "books" ["code", "title"]).withPrimaryKey "code").fieldNames =
        ["code", "code", "title"] ∧
      ¬ ((withFields "books" ["code", "title"]).withPrimaryKey "code").fieldNames.Nodup := by
  have distinct : ["code", "title"].Nodup := by decide
  obtain ⟨listed, -, once, -⟩ := withPrimaryKey_withFields "books" "code" distinct
  exact ⟨distinct, listed, fun nodup => absurd (once.mp nodup) (by decide)⟩

/-- Of the different fields `code` and `id`, one is listed twice and one is lost if the key is
renamed to `code`; it should be listed first, and `id` after it. -/
theorem renamed_key_loses_field :
    let table := (withFields "books" ["code", "id"]).withPrimaryKey "code"
    table.fieldNames = ["code", "code"] ∧ table.hasField "id" = false ∧
      table.fieldNames ≠ "code" :: ["code", "id"].filter (· ≠ "code") := by
  decide

end Table

end Warden
