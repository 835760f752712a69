import Mathlib
import Warden.Policy.Document
import Warden.Proofs.Policy.Rows
import Warden.Proofs.Yaml.Parts
/-! # Records in policies
A record that constrains a field, or confines a subject to rows, is taken in the first of several
forms that fits it, and a form passes over what it does not know. Which form that is can be told
from the keys (`Yaml.Datum.HasPart`, `Yaml.Datum.AreLimits`), and so can what the record comes to:

* a **condition** among other entries lets the values through for which it is true, whatever the
  limits beside it; a record of limits lets the values within the limits through; any other record
  lets one value through, itself (`Yaml.Datum.Constrains`);
* a column with the **owner** confines to the rows of the owner, whatever the values beside it; only
  without it are rows confined by values of columns (`Yaml.Datum.Confines`).

All that is named is enforced, therefore, unless two forms are mixed (`Constrains.enforced`,
`Confines.enforced`). What a condition is true for is up to the evaluation of conditions, and may be
anything (`Cel.Evaluation`). Limits and values are those of mathematics, except that a number may be
**confused** with a limit or with a value that is asked for (`Value.Confused`). It passes for equal
then, so that it is let through unless the limit is ruled out. -/

namespace Warden

open Yaml

/-! ## Forms of records -/

namespace Yaml.Datum

variable {entries : List (Datum × Datum)} {datum : Datum} {name : String}

/-- A record **has a part** among other entries if its keys can be keys of a record and the datum is
the only one whose key addresses the part. -/
structure HasPart (name : String) (datum : Datum) (entries : List (Datum × Datum)) : Prop where
  /-- Every key is a text or a position. -/
  keys : ∀ entry ∈ entries, entry.1.isKey = true
  /-- The part is addressed once. -/
  only : under [name] name entries = [datum]

/-- The entries of a record **are limits** if every key addresses one of the three parts of limits
and none is addressed again; null counts as absent. -/
structure AreLimits (entries : List (Datum × Datum)) (limits : RangeSpec) : Prop where
  /-- Nothing but parts of limits is addressed. -/
  known : ∀ entry ∈ entries, ∃ place, part? RangeSpec.parts entry.1 = some (some place)
  /-- The lower limit. -/
  min : ∃ written : Option Datum, under RangeSpec.parts "min" entries = written.toList ∧
    RangeSpec.limitOf? written = some limits.min
  /-- The upper limit. -/
  max : ∃ written : Option Datum, under RangeSpec.parts "max" entries = written.toList ∧
    RangeSpec.limitOf? written = some limits.max
  /-- Whether the upper limit is ruled out, which it is not unless it is said to be. -/
  exclusive : ∃ written : Option Datum, under RangeSpec.parts "exclusive" entries = written.toList ∧
    written.elim (some false) bool? = some limits.exclusive

/-- An option has one member at most. -/
theorem length_toList_le {α : Type} (found : Option α) : found.toList.length ≤ 1 := by
  cases found with
  | none => exact Nat.zero_le 1
  | some a => exact Nat.le_refl 1

/-- A name has the first place among the parts that it makes up alone. -/
theorem part?_self (name : String) : part? [name] (.text name) = some (some 0) := by
  simp [part?]

/-- **A single part** is read iff the record has it. -/
theorem singlePart?_eq_some_iff :
    singlePart? name (.entries entries) = some datum ↔ HasPart name datum entries := by
  have alone : under [name] name entries = placed [name] 0 entries :=
    under_eq_placed (part?_self name)
  show (parts? [name] true entries).bind (fun found => found.lookup 0) = some datum ↔ _
  rw [Option.bind_eq_some_iff]
  constructor
  · rintro ⟨found, read, is⟩
    have keys := (exists_parts?_iff.mp ⟨found, read⟩).1
    refine ⟨fun entry mem => (keys entry mem).1, ?_⟩
    rw [alone, ← toList_lookup read, is, Option.toList_some]
  · intro part
    obtain ⟨found, read⟩ : ∃ found, parts? [name] true entries = some found := by
      refine exists_parts?_iff.mpr ⟨fun entry mem => ⟨part.keys entry mem, .inl rfl⟩, ?_⟩
      intro place inside
      cases Nat.lt_one_iff.mp inside
      rw [← alone, part.only]
      exact Nat.le_refl 1
    exact ⟨found, read, lookup_of_placed read (alone.symm.trans part.only)⟩

/-- A single part that is a text is read iff the record has it. -/
theorem bind_text?_singlePart? {text : String} :
    (singlePart? name (.entries entries)).bind text? = some text ↔
      HasPart name (.text text) entries := by
  rw [← singlePart?_eq_some_iff]
  cases singlePart? name (.entries entries) with
  | none => simp
  | some datum => cases datum <;> simp [text?]

/-- Limits are read from their three parts one by one. -/
theorem ofParts?_eq_some_iff {min max exclusive : Option Datum} {limits : RangeSpec} :
    RangeSpec.ofParts? min max exclusive = some limits ↔
      RangeSpec.limitOf? min = some limits.min ∧ RangeSpec.limitOf? max = some limits.max ∧
        exclusive.elim (some false) bool? = some limits.exclusive := by
  obtain ⟨lower, upper, excluded⟩ := limits
  rw [RangeSpec.ofParts?]
  cases exclusive with
  | none =>
    cases RangeSpec.limitOf? min <;> cases RangeSpec.limitOf? max <;> simp
  | some datum =>
    rw [Option.elim_some]
    dsimp only
    generalize datum.bool? = flag
    cases RangeSpec.limitOf? min <;> cases RangeSpec.limitOf? max <;> cases flag <;> simp

/-- **Limits** are read iff the entries of the record are limits. -/
theorem limits_eq_some_iff {limits : RangeSpec} :
    RangeSpec.ofDatum? (.entries entries) = some limits ↔ AreLimits entries limits := by
  have first : under RangeSpec.parts "min" entries = placed RangeSpec.parts 0 entries :=
    under_eq_placed (by decide)
  have second : under RangeSpec.parts "max" entries = placed RangeSpec.parts 1 entries :=
    under_eq_placed (by decide)
  have third : under RangeSpec.parts "exclusive" entries = placed RangeSpec.parts 2 entries :=
    under_eq_placed (by decide)
  show (parts? RangeSpec.parts false entries).bind (fun found =>
    RangeSpec.ofParts? (found.lookup 0) (found.lookup 1) (found.lookup 2)) = some limits ↔ _
  simp only [Option.bind_eq_some_iff, ofParts?_eq_some_iff]
  constructor
  · rintro ⟨found, read, min, max, exclusive⟩
    have keys := (exists_parts?_iff.mp ⟨found, read⟩).1
    refine ⟨fun entry mem => ?_, ⟨_, ?_, min⟩, ⟨_, ?_, max⟩, ⟨_, ?_, exclusive⟩⟩
    · obtain ⟨-, never | addressed⟩ := keys entry mem
      · cases never
      · exact exists_place_of_addressed addressed
    · rw [first, toList_lookup read]
    · rw [second, toList_lookup read]
    · rw [third, toList_lookup read]
  · rintro ⟨known, ⟨min, isMin, lower⟩, ⟨max, isMax, upper⟩, ⟨flag, isFlag, excluded⟩⟩
    rw [first] at isMin
    rw [second] at isMax
    rw [third] at isFlag
    obtain ⟨found, read⟩ : ∃ found, parts? RangeSpec.parts false entries = some found := by
      refine exists_parts?_iff.mpr ⟨fun entry mem => ?_, fun place inside => ?_⟩
      · obtain ⟨place, addressed⟩ := known entry mem
        rw [← isSome_part? RangeSpec.parts, Datum.addressed, addressed]
        exact ⟨rfl, .inr rfl⟩
      · have places : place = 0 ∨ place = 1 ∨ place = 2 := by
          have three : place < 3 := inside
          omega
        rcases places with rfl | rfl | rfl
        · rw [isMin]
          exact length_toList_le min
        · rw [isMax]
          exact length_toList_le max
        · rw [isFlag]
          exact length_toList_le flag
    refine ⟨found, read, ?_, ?_, ?_⟩
    · rwa [lookup_of_placed read isMin]
    · rwa [lookup_of_placed read isMax]
    · rwa [lookup_of_placed read isFlag]

/-- A limit that is not null is the value that is written. -/
theorem limitOf?_written {written : Datum} (present : written ≠ .null) {limit : Option Value}
    (read : RangeSpec.limitOf? (some written) = some limit) :
    ∃ value, written.toValue? = some value ∧ limit = some value := by
  have given : written.toValue?.map some = some limit := by
    cases written with
    | null => exact absurd rfl present
    | _ => exact read
  obtain ⟨value, is, rfl⟩ := Option.map_eq_some_iff.mp given
  exact ⟨value, is, rfl⟩

/-- What is named is all that is read for a part that is addressed once. -/
theorem eq_of_under {parts : List String} {name : String} {datum : Datum} {read : Option Datum}
    (named : (.text name, datum) ∈ entries) (only : under parts name entries = read.toList) :
    read = some datum := by
  have mem : datum ∈ under parts name entries := mem_under named
  rw [only] at mem
  exact Option.mem_toList.mp mem

end Yaml.Datum

/-! ## What constraints accept -/

/-- A constraint **accepts** a value if checking the value succeeds, at whatever depth of trusted
execution. -/
def Constraint.Accepts (constraint : Constraint) (value : Value) : Prop :=
  ∀ trust, ((constraint.check value).startFrom trust).1 = .ok true

namespace Constraint

variable {value : Value}

theorem accepts_literal {expected : Value} :
    (literal expected).Accepts value ↔ expected.equal value = true := by
  have checked (trust : Trust) : (((literal expected).check value).startFrom trust).1 =
      .ok (expected.equal value) := rfl
  simp [Accepts, checked]

theorem accepts_range {range : ValueRange} :
    (Constraint.range range).Accepts value ↔ range.contains value = true := by
  have checked (trust : Trust) : (((Constraint.range range).check value).startFrom trust).1 =
      .ok (range.contains value) := rfl
  simp [Accepts, checked]

theorem accepts_ofCondition [Cel.Evaluation] {condition : Cel.Condition} {auth : Value} :
    (ofCondition condition auth).Accepts value ↔
      Cel.Evaluation.decide condition value auth = .ok true := by
  have checked (trust : Trust) : (((ofCondition condition auth).check value).startFrom trust).1 =
      condition.test auth value := by
    let predicate : Predicate :=
      { label := some condition.source, test := fun _ value => condition.test auth value }
    show ((Run.insecurely (predicate.call value)).startFrom trust).1 = _
    have run : predicate.test trust.enter.depth value = condition.test auth value := rfl
    rw [Run.startFrom_insecurely, Predicate.call, Run.startFrom_bind, Run.startFrom_depth]
    dsimp only
    rw [run]
    cases condition.test auth value <;> rfl
  have tested : condition.test auth value = .ok true ↔
      Cel.Evaluation.decide condition value auth = .ok true := by
    rw [Cel.Condition.test]
    cases Cel.Evaluation.decide condition value auth with
    | ok b => simp
    | error undecided => cases undecided <;> simp
  rw [← tested]
  simp [Accepts, checked]

end Constraint

/-! ## Records that constrain a field -/

namespace Yaml.Datum

section Constraining

variable [Cel.Evaluation] {entries : List (Datum × Datum)} {auth : Value} {accepts : Value → Prop}

/-- **What a record lets through** that constrains a field, for a subject of which conditions see a
value: the form that it is taken in, and the values that are accepted. -/
inductive Constrains (auth : Value) (entries : List (Datum × Datum)) (accepts : Value → Prop) :
    Prop where
  /-- A condition; all other entries are passed over. -/
  | condition {source : String} {condition : Cel.Condition}
    (part : HasPart "cel" (.text source) entries)
    (read : Cel.Condition.ofText source = .ok condition)
    (exact : ∀ value, accepts value ↔ Cel.Evaluation.decide condition value auth = .ok true)
  /-- Limits. A number that is confused with a limit is let through if the limit belongs to the
  range, and kept out if it does not. -/
  | limits {limits : RangeSpec} (unconditional : ∀ source, ¬ HasPart "cel" (.text source) entries)
    (are : AreLimits entries limits)
    (exact : ∀ value, accepts value ↔ value.isRangeable = true ∧
      (∀ limit ∈ limits.min, limit.AtMost value ∨ limit.Confused value) ∧
      ∀ limit ∈ limits.max,
        if limits.exclusive then value.Below limit ∧ ¬ value.Confused limit
        else value.AtMost limit ∨ value.Confused limit)
  /-- The record itself. -/
  | value {record : Value} (unconditional : ∀ source, ¬ HasPart "cel" (.text source) entries)
    (unlimited : ∀ limits, ¬ AreLimits entries limits)
    (is : (Datum.entries entries).toValue? = some record)
    (exact : ∀ value, accepts value ↔ record.same value = true)

/-- A record **takes one form** if it is a condition with no limit named beside it, or limits. -/
def TakesOneForm (entries : List (Datum × Datum)) : Prop :=
  (∃ source, HasPart "cel" (.text source) entries ∧
    ∀ limit, limit ≠ .null → (.text "min", limit) ∉ entries ∧ (.text "max", limit) ∉ entries) ∨
  (∀ source, ¬ HasPart "cel" (.text source) entries) ∧ ∃ limits, AreLimits entries limits

/-- **All that a record names is enforced**: accepted values satisfy its condition and lie within
its limits, or are confused with a limit that belongs to the range. -/
structure Enforced (auth : Value) (entries : List (Datum × Datum)) (accepts : Value → Prop) :
    Prop where
  /-- The condition is true. -/
  condition : ∀ source, (.text "cel", .text source) ∈ entries →
    ∃ condition, Cel.Condition.ofText source = .ok condition ∧
      ∀ value, accepts value → Cel.Evaluation.decide condition value auth = .ok true
  /-- The lower limit is kept. -/
  min : ∀ written, written ≠ .null → (.text "min", written) ∈ entries →
    ∃ limit, written.toValue? = some limit ∧
      ∀ value, accepts value → limit.AtMost value ∨ limit.Confused value
  /-- The upper limit is kept, and ruled out if it is said to be. -/
  max : ∀ written, written ≠ .null → (.text "max", written) ∈ entries →
    ∃ limit, written.toValue? = some limit ∧
      ∀ value, accepts value → (value.AtMost limit ∨ value.Confused limit) ∧
        ((.text "exclusive", .bool true) ∈ entries → value.Below limit)

/-- Records of one form enforce all that they name. -/
theorem Constrains.enforced (constrains : Constrains auth entries accepts)
    (oneForm : TakesOneForm entries) : Enforced auth entries accepts := by
  cases constrains with
  | @condition source condition part read exact =>
    obtain ⟨_, -, unlimited⟩ | ⟨never, -⟩ := oneForm
    · refine ⟨fun other named => ?_, fun written present named => ?_,
        fun written present named => ?_⟩
      · have only : under ["cel"] "cel" entries = (some (text source)).toList := part.only
        cases eq_of_under named only
        exact ⟨condition, read, fun value accepted => (exact value).mp accepted⟩
      · exact absurd named (unlimited written present).1
      · exact absurd named (unlimited written present).2
    · exact absurd part (never source)
  | @limits limits unconditional are exact =>
    refine ⟨fun source named => ?_, fun written present named => ?_,
      fun written present named => ?_⟩
    · -- No part of limits goes by this name.
      obtain ⟨place, addressed⟩ := are.known _ named
      have unknown : part? RangeSpec.parts (.text "cel") = some none := by decide
      cases unknown.symm.trans addressed
    · obtain ⟨read, only, lower⟩ := are.min
      cases eq_of_under named only
      obtain ⟨limit, is, given⟩ := limitOf?_written present lower
      exact ⟨limit, is, fun value accepted => ((exact value).mp accepted).2.1 limit given⟩
    · obtain ⟨read, only, upper⟩ := are.max
      cases eq_of_under named only
      obtain ⟨limit, is, given⟩ := limitOf?_written present upper
      refine ⟨limit, is, fun value accepted => ?_⟩
      have kept := ((exact value).mp accepted).2.2 limit given
      cases excluded : limits.exclusive with
      | true =>
        rw [excluded, if_pos rfl] at kept
        exact ⟨.inl (.inl kept.1), fun _ => kept.1⟩
      | false =>
        rw [excluded, if_neg Bool.false_ne_true] at kept
        refine ⟨kept, fun flagged => ?_⟩
        obtain ⟨flag, only, is⟩ := are.exclusive
        cases eq_of_under flagged only
        cases is.trans (congrArg some excluded)
  | @value record unconditional unlimited is exact =>
    obtain ⟨source, part, -⟩ | ⟨-, limits, are⟩ := oneForm
    · exact absurd part (unconditional source)
    · exact absurd are (unlimited limits)

/-- **What a record comes to** that is read as a constraint. -/
theorem constrains_of_read {spec : ConstraintSpec} {constraint : Constraint}
    (read : ConstraintSpec.ofDatum? (.entries entries) = some spec)
    (stands : ConstraintSpec.constraint? auth (some spec) = some constraint) :
    Constrains auth entries constraint.Accepts := by
  have conditional (source : String) : (singlePart? "cel" (.entries entries)).bind text? =
      some source ↔ HasPart "cel" (.text source) entries := bind_text?_singlePart?
  have within (limits : RangeSpec) (value : Value) :
      ({ lower := (limits.min.map Bound.included).getD .unbounded
         upper := (limits.max.map (if limits.exclusive then .excluded else .included)).getD
          .unbounded } : ValueRange).contains value = true ↔
        value.isRangeable = true ∧
          (∀ limit ∈ limits.min, limit.AtMost value ∨ limit.Confused value) ∧
          ∀ limit ∈ limits.max,
            if limits.exclusive then value.Below limit ∧ ¬ value.Confused limit
            else value.AtMost limit ∨ value.Confused limit := by
    obtain ⟨min, max, exclusive⟩ := limits
    have above : Bound.unbounded.admitsAbove value = true := rfl
    have below : Bound.unbounded.admitsBelow value = true := rfl
    rw [ValueRange.contains, Bool.and_eq_true, Bool.and_eq_true]
    cases min <;> cases max <;> cases exclusive <;>
      simp [above, below, Bound.admitsAbove_included_iff, Bound.admitsBelow_included_iff,
        Bound.admitsBelow_excluded_iff, and_comm]
  rw [ConstraintSpec.ofDatum?, ConstraintSpec.conditionPart] at read
  cases form : (singlePart? "cel" (.entries entries)).bind text? with
  | some source =>
    rw [form] at read
    cases read
    obtain ⟨condition, is, rfl⟩ := Option.map_eq_some_iff.mp stands
    refine .condition ((conditional source).mp form) ?_ fun value => Constraint.accepts_ofCondition
    cases parsed : Cel.Condition.ofText source with
    | ok other =>
      rw [parsed] at is
      cases is
      rfl
    | error failure =>
      rw [parsed] at is
      cases is
  | none =>
    have unconditional (source : String) : ¬ HasPart "cel" (.text source) entries := by
      rw [← conditional, form]
      exact nofun
    rw [form] at read
    dsimp only at read
    cases limited : RangeSpec.ofDatum? (.entries entries) with
    | some limits =>
      rw [limited] at read
      cases read
      cases stands
      exact .limits unconditional (limits_eq_some_iff.mp limited) fun value =>
        Constraint.accepts_range.trans (within limits value)
    | none =>
      have unlimited (limits : RangeSpec) : ¬ AreLimits entries limits := by
        rw [← limits_eq_some_iff, limited]
        exact nofun
      rw [limited] at read
      obtain ⟨record, is, rfl⟩ := Option.map_eq_some_iff.mp read
      cases stands
      obtain ⟨fields, -, rfl⟩ := Option.map_eq_some_iff.mp is
      exact .value unconditional unlimited is fun value => Constraint.accepts_literal

/-- A key that is no part of limits makes a record of limits one value. -/
example : ConstraintSpec.ofDatum? (.entries [(.text "min", .text "m"), (.text "mix", .null)]) =
    some (.literal (.object [("min", .string "m"), ("mix", .null)])) := rfl

end Constraining

/-! ## Records that confine to rows -/

variable {entries : List (Datum × Datum)} {S : Type} [Principal S] {subject : S}
  {admits : Row → Prop}

/-- Whether a row is the subject's own by a column. A subject without identity owns no row. -/
def Owns (subject : S) (column : String) (row : Row) : Prop :=
  ∃ sub, Principal.sub subject = some sub ∧ row.get? column = some (.string sub)

/-- Whether a row has values in columns, or numbers that are confused with them. -/
def HasValues (values : FieldValues) (row : Row) : Prop :=
  ∀ entry ∈ values, ∃ stored, row.get? entry.1 = some stored ∧ stored.Alike entry.2

/-- **The rows to which a record confines** a subject: the form that it is taken in, and the rows
that are admitted. -/
inductive Confines (subject : S) (entries : List (Datum × Datum)) (admits : Row → Prop) :
    Prop where
  /-- The keyword for no row, with null. -/
  | nothing {key : Datum} (is : entries = [(key, .null)])
    (keyword : part? ["none"] key = some (some 0)) (exact : ∀ row, ¬ admits row)
  /-- The subject's own rows; all other entries are passed over. -/
  | owner {column : String} (part : HasPart "owner" (.text column) entries)
    (exact : ∀ row, admits row ↔ Owns subject column row)
  /-- The rows with some values; all other entries are passed over. -/
  | values {written : List (Datum × Datum)} {values : FieldValues}
    (unowned : ∀ column, ¬ HasPart "owner" (.text column) entries)
    (part : HasPart "where" (.entries written) entries)
    (are : (Datum.entries written).toValue? = some (.object values))
    (exact : ∀ row, admits row ↔ HasValues values row)

/-- **All that a record names is enforced**: admitted rows are the subject's own and have the
values, or numbers that are confused with them. -/
structure EnforcedFor (subject : S) (entries : List (Datum × Datum)) (admits : Row → Prop) :
    Prop where
  /-- The subject owns the row. -/
  owner : ∀ column, (.text "owner", .text column) ∈ entries →
    ∀ row, admits row → Owns subject column row
  /-- The row has the values. -/
  values : ∀ written, (.text "where", .entries written) ∈ entries →
    ∃ values, (Datum.entries written).toValue? = some (.object values) ∧
      ∀ row, admits row → HasValues values row

/-- A record **confines in one way** if it has an owner with no values named beside it, or no column
named as the owner. -/
def ConfinesOneWay (entries : List (Datum × Datum)) : Prop :=
  (∃ column, HasPart "owner" (.text column) entries ∧ ∀ datum, (.text "where", datum) ∉ entries) ∨
  (∀ column, ¬ HasPart "owner" (.text column) entries ∧ (.text "owner", .text column) ∉ entries)

/-- Records that confine in one way enforce all that they name. -/
theorem Confines.enforced (confines : Confines subject entries admits)
    (oneWay : ConfinesOneWay entries) : EnforcedFor subject entries admits := by
  cases confines with
  | nothing is keyword exact =>
    exact ⟨fun _ _ row admitted => absurd admitted (exact row), fun written named => by
      rw [is] at named
      cases List.mem_singleton.mp named⟩
  | @owner column part exact =>
    have only : under ["owner"] "owner" entries = (some (text column)).toList := part.only
    obtain ⟨_, -, unvalued⟩ | never := oneWay
    · refine ⟨fun other named row admitted => ?_, fun written named => ?_⟩
      · cases eq_of_under named only
        exact (exact row).mp admitted
      · exact absurd named (unvalued _)
    · exact absurd part (never column).1
  | @values written values unowned part are exact =>
    have only : under ["where"] "where" entries = (some (.entries written)).toList := part.only
    obtain ⟨column, owned, -⟩ | never := oneWay
    · exact absurd owned (unowned column)
    · refine ⟨fun column named => absurd named (never column).2, fun other named => ?_⟩
      cases eq_of_under named only
      exact ⟨values, are, fun row admitted => (exact row).mp admitted⟩

/-- **What a record comes to** that is read as a scope. -/
theorem confines_of_read {spec : ScopeSpec}
    (read : ScopeSpec.ofDatum? (.entries entries) = some spec) :
    Confines subject entries (spec.AdmitsBy Value.Alike subject) := by
  have owned (column : String) : (singlePart? "owner" (.entries entries)).bind text? =
      some column ↔ HasPart "owner" (.text column) entries := bind_text?_singlePart?
  rw [ScopeSpec.ofDatum?] at read
  split at read
  · next nothing =>
    cases read
    unfold ScopeSpec.isNothing at nothing
    split at nothing
    · next is => cases is
    · next key is =>
      cases is
      exact .nothing rfl (eq_of_beq nothing) fun row => id
    · cases nothing
  · cases form : (singlePart? "owner" (.entries entries)).bind text? with
    | some column =>
      rw [form] at read
      cases read
      exact .owner ((owned column).mp form) fun row => Iff.rfl
    | none =>
      have unowned (column : String) : ¬ HasPart "owner" (.text column) entries := by
        rw [← owned, form]
        exact nofun
      rw [form] at read
      obtain ⟨values, found, rfl⟩ := Option.map_eq_some_iff.mp read
      obtain ⟨datum, part, valued⟩ := Option.bind_eq_some_iff.mp found
      rw [singlePart?_eq_some_iff] at part
      cases datum with
      | entries written =>
        obtain ⟨record, is, fields⟩ := Option.bind_eq_some_iff.mp valued
        cases record with
        | object stored =>
          cases fields
          exact .values unowned part is fun row => Iff.rfl
        | _ => cases fields
      | _ => cases valued

/-- Values beside an owner are passed over. -/
example :
    ScopeSpec.ofDatum? (.entries [(.text "owner", .text "author"),
      (.text "where", .entries [(.text "title", .text "m")])]) = some (.owner "author") := rfl

end Yaml.Datum

end Warden
