import Mathlib
import Warden.Proofs.Policy.Records
import Warden.Proofs.Run
import Warden.Proofs.Yaml.Data
/-! # Constraints that are written and read again
A constraint is written in the form that it was read from, and its forms are told apart by trying
one after the other. All of them come back as they were but one: a **record** of values
(`ConstraintSpec.ofDatum?_ofValue`).

What a record is read as depends on the fields that it gives, and on nothing else, as long as none of
the words of the other forms is the key of several entries (`ConstraintSpec.ofDatum?_entries`). Limits
that give a word twice are no limits, and are read as a value. Once this is written it names each
word once, and is **captured** by the form that now fits (`ConstraintSpec.Captures`), which happens
to no other record (`ConstraintSpec.repeatsWord_of_captures`). -/

namespace Warden

open Yaml

/-! ## Records of values -/

namespace Yaml.Datum

variable {parts : List String} {name : String} {pairs : List (Datum × Datum)}
  {named : List (String × Value)}

/-- The entries of a record. -/
def entries? : Datum → Option (List (Datum × Datum))
  | .entries pairs => some pairs
  | _ => none

/-- A datum **gives** a value if it stands for it and is null if the value is. -/
structure Gives (datum : Datum) (value : Value) : Prop where
  /-- The datum stands for the value. -/
  stands : datum.toValue? = some value
  /-- Nothing but null gives null. -/
  null : value = .null → datum = .null

theorem gives_ofValue {depth : Nat} {value : Value} (fits : value.Fits depth) :
    (ofValue value).Gives value :=
  ⟨toValue?_ofValue fits, by rintro rfl; rfl⟩

theorem gives_of_isFinite {datum : Datum} {value : Value} (finite : datum.isFinite = true)
    (stands : datum.toValue? = some value) : datum.Gives value :=
  ⟨stands, fun null => eq_null_of_toValue? finite (null ▸ stands)⟩

/-- Entries **give** named values one by one. -/
def GiveNamed (pairs : List (Datum × Datum)) (named : List (String × Value)) : Prop :=
  List.Forall₂ (fun entry field => entry.1 = .text field.1 ∧ entry.2.Gives field.2) pairs named

/-- A record **repeats a word** if a name that one of the forms of constraints knows is the key of
several entries. -/
def RepeatsWord (pairs : List (Datum × Datum)) : Prop :=
  ∃ name ∈ ConstraintSpec.conditionPart :: RangeSpec.parts,
    1 < (pairs.filter fun entry => entry.1.text? == some name).length

/-- Two names that address the same part are the same. -/
theorem eq_of_part? {other : String} {place : Nat}
    (addressed : part? parts (.text name) = some (some place))
    (same : part? parts (.text other) = some (some place)) : other = name := by
  rw [part?, Option.some.injEq, List.findIdx?_eq_some_iff_getElem] at addressed same
  obtain ⟨inside, is, -⟩ := addressed
  obtain ⟨_, isOther, -⟩ := same
  exact (of_decide_eq_true isOther).symm.trans (of_decide_eq_true is)

/-- The names of the known parts, and no others, address one. -/
theorem exists_part?_iff :
    (∃ place, part? parts (.text name) = some (some place)) ↔ name ∈ parts := by
  simp only [part?, Option.some.injEq, ← Option.isSome_iff_exists, List.findIdx?_isSome,
    List.any_eq_true, decide_eq_true_eq, exists_eq_right]

/-- The keys of the entries are the names. -/
theorem GiveNamed.forall_key_iff (give : GiveNamed pairs named) (holds : Datum → Prop) :
    (∀ entry ∈ pairs, holds entry.1) ↔
      ∀ name ∈ (Fields.ofList named).keys, holds (.text name) := by
  simp only [Fields.mem_keys_ofList]
  induction give with
  | nil => exact ⟨fun _ => nofun, fun _ => nofun⟩
  | cons one _ ih =>
    rw [List.forall_mem_cons, one.1, ih, List.map_cons, List.forall_mem_cons]

/-- If all keys are texts, a part is what stands under its name. -/
theorem under_eq_filter (texts : ∀ entry ∈ pairs, ∃ key, entry.1 = .text key) {place : Nat}
    (addressed : part? parts (.text name) = some (some place)) :
    under parts name pairs =
      (pairs.filter fun entry => entry.1.text? == some name).map Prod.snd := by
  rw [under, addressed]
  refine congrArg _ (List.filter_congr fun entry mem => ?_)
  obtain ⟨key, is⟩ := texts entry mem
  rw [is, Bool.eq_iff_iff, beq_iff_eq, beq_iff_eq]
  constructor
  · exact fun addresses => congrArg some (eq_of_part? addressed addresses)
  · rintro ⟨⟩
    exact addressed

/-- If a name is the key of one entry at most, the part is what gives the value under the name. -/
theorem GiveNamed.exists_under (give : GiveNamed pairs named)
    (once : (pairs.filter fun entry => entry.1.text? == some name).length ≤ 1) {place : Nat}
    (addressed : part? parts (.text name) = some (some place)) :
    ∃ written : Option Datum, under parts name pairs = written.toList ∧
      Option.Rel Gives written (Fields.get? (Fields.ofList named) name) := by
  have texts : ∀ entry ∈ pairs, ∃ key, entry.1 = .text key :=
    (give.forall_key_iff fun datum => ∃ key, datum = .text key).mpr fun key _ => ⟨key, rfl⟩
  rw [under_eq_filter texts addressed, Fields.get?_ofList]
  clear texts
  induction give with
  | nil => exact ⟨none, rfl, .none⟩
  | @cons entry field rest others one _ ih =>
    obtain ⟨isKey, gives⟩ := one
    rw [List.filter_cons, isKey] at once ⊢
    rw [Fields.last?_cons]
    by_cases same : field.1 = name
    · -- There is no later entry with the name.
      have here : ((text field.1).text? == some name) = true := by
        rw [same]
        exact beq_self_eq_true _
      rw [if_pos here, List.length_cons] at once
      rw [if_pos here, if_pos same]
      have none : (rest.filter fun entry => entry.1.text? == some name) = [] :=
        List.length_eq_zero_iff.mp (by omega)
      obtain ⟨written, is, found⟩ := ih (by omega)
      rw [none] at is ⊢
      cases written with
      | some => cases is
      | none =>
        generalize Fields.last? others name = later at found ⊢
        cases found
        exact ⟨some entry.2, rfl, .some gives⟩
    · have other : ((text field.1).text? == some name) = false :=
        beq_eq_false_iff_ne.mpr fun is => same (Option.some.inj is)
      rw [if_neg (by rw [other]; exact Bool.false_ne_true)] at once ⊢
      rw [if_neg same, Option.or_none]
      exact ih once

/-- What can be read from a part is read from the datum that makes it up. -/
theorem exists_under_iff {written : Option Datum} (only : under parts name pairs = written.toList)
    {reads : Option Datum → Prop} :
    (∃ found : Option Datum, under parts name pairs = found.toList ∧ reads found) ↔
      reads written := by
  constructor
  · rintro ⟨found, same, read⟩
    rwa [eq_of_toList_eq (only.symm.trans same)]
  · exact fun read => ⟨written, only, read⟩

/-- A single part that is a text is the text under its name. -/
theorem GiveNamed.bind_text?_singlePart? (give : GiveNamed pairs named)
    (once : (pairs.filter fun entry => entry.1.text? == some name).length ≤ 1) :
    (singlePart? name (.entries pairs)).bind text? =
      ((Fields.ofList named).get? name).bind Value.text? := by
  obtain ⟨written, only, held⟩ := give.exists_under once (part?_self name)
  have keys : ∀ entry ∈ pairs, entry.1.isKey = true :=
    (give.forall_key_iff fun datum => datum.isKey = true).mpr fun _ _ => rfl
  have texts : written.bind text? = ((Fields.ofList named).get? name).bind Value.text? := by
    generalize (Fields.ofList named).get? name = value at held
    cases held with
    | none => rfl
    | some gives => exact (kind_of_toValue? gives.stands).1
  refine Option.ext fun source => ?_
  rw [Datum.bind_text?_singlePart?, ← texts, Option.bind_eq_some_iff]
  constructor
  · intro part
    have here : written.toList = (some (text source)).toList := only.symm.trans part.only
    exact ⟨text source, eq_of_toList_eq here, rfl⟩
  · rintro ⟨datum, rfl, is⟩
    rw [text?_eq_some_iff.mp is] at only
    exact ⟨keys, only⟩

/-- Written fields give the fields. -/
theorem giveNamed_ofFields {depth : Nat} {fields : Fields Value}
    (fits : ∀ field ∈ fields, field.2.Fits depth) : GiveNamed (ofFields fields) fields := by
  rw [ofFields_eq_map, GiveNamed, List.forall₂_map_left_iff]
  exact List.forall₂_same.mpr fun field mem => ⟨rfl, gives_ofValue (fits field mem)⟩

/-- Written fields repeat no word. -/
theorem not_repeatsWord_ofFields {fields : Fields Value} (sorted : fields.Sorted) :
    ¬ RepeatsWord (ofFields fields) := by
  rintro ⟨name, -, repeated⟩
  have nodup : fields.keys.Nodup := (List.pairwise_map.mpr sorted).imp ne_of_lt
  have once : fields.keys.count name ≤ 1 := List.nodup_iff_count_le_one.mp nodup name
  have same : ((ofFields fields).filter fun entry => entry.1.text? == some name).length =
      fields.keys.count name := by
    rw [ofFields_eq_map, ← List.countP_eq_length_filter, List.countP_map, List.count, Fields.keys,
      List.countP_map]
    exact List.countP_congr fun field _ => by simp [text?]
  omega

end Yaml.Datum

/-! ## Constraints -/

namespace RangeSpec

/-- A limit that stands in fields; null counts as absent. -/
def limitAt (fields : FieldValues) (name : String) : Option Value :=
  (fields.get? name).filter fun value => !value.isNull

/-- **The limits in fields**: there must be no other fields, and the flag must be a truth value. -/
def ofFields? (fields : FieldValues) : Option RangeSpec :=
  if fields.keys.all parts.contains then
    ((fields.get? "exclusive").elim (some false) Value.bool?).map fun exclusive =>
      { min := limitAt fields "min", max := limitAt fields "max", exclusive }
  else none

/-- A limit other than null is read as a value. -/
theorem limitOf?_of_ne_null {datum : Datum} (present : datum ≠ .null) :
    limitOf? (some datum) = datum.toValue?.map some := by
  cases datum <;> first | rfl | exact absurd rfl present

/-- What gives a limit is read as the limit. -/
theorem limitOf?_of_gives {written : Option Datum} {value : Option Value}
    (gives : Option.Rel Datum.Gives written value) :
    limitOf? written = some (value.filter fun value => !value.isNull) := by
  cases gives with
  | none => rfl
  | @some datum value gives =>
    by_cases null : value = .null
    · rw [null, gives.null null]
      rfl
    · have present : datum ≠ .null := by
        rintro rfl
        exact null (Option.some.inj gives.stands).symm
      rw [limitOf?_of_ne_null present, gives.stands]
      cases value <;> first | rfl | exact absurd rfl null

/-- **A record is limits** iff the fields are that it gives, unless it repeats a word. -/
theorem ofDatum?_entries {pairs : List (Datum × Datum)} {named : List (String × Value)}
    (give : Datum.GiveNamed pairs named) (unrepeated : ¬ Datum.RepeatsWord pairs) :
    ofDatum? (.entries pairs) = ofFields? (Fields.ofList named) := by
  have part {name : String} {place : Nat}
      (addressed : Datum.part? parts (.text name) = some (some place)) :
      ∃ written : Option Datum, Datum.under parts name pairs = written.toList ∧
        Option.Rel Datum.Gives written (Fields.get? (Fields.ofList named) name) := by
    have word : name ∈ ConstraintSpec.conditionPart :: parts :=
      List.mem_cons_of_mem _ (Datum.exists_part?_iff.mp ⟨place, addressed⟩)
    exact give.exists_under (not_lt.mp fun repeated => unrepeated ⟨name, word, repeated⟩) addressed
  obtain ⟨min, isMin, lower⟩ := part (show Datum.part? parts (.text "min") = some (some 0) by decide)
  obtain ⟨max, isMax, upper⟩ := part (show Datum.part? parts (.text "max") = some (some 1) by decide)
  obtain ⟨flag, isFlag, flagged⟩ :=
    part (show Datum.part? parts (.text "exclusive") = some (some 2) by decide)
  have exclusive : flag.elim (some false) Datum.bool? =
      (Fields.get? (Fields.ofList named) "exclusive").elim (some false) Value.bool? := by
    generalize Fields.get? (Fields.ofList named) "exclusive" = value at flagged
    cases flagged with
    | none => rfl
    | some gives => exact (Datum.kind_of_toValue? gives.stands).2
  have known : (∀ entry ∈ pairs, ∃ place, Datum.part? parts entry.1 = some (some place)) ↔
      (Fields.ofList named).keys.all parts.contains = true := by
    rw [give.forall_key_iff fun datum => ∃ place, Datum.part? parts datum = some (some place)]
    simp only [Datum.exists_part?_iff, List.all_eq_true, List.contains_iff_mem]
  have limitsAre (limits : RangeSpec) : Datum.AreLimits pairs limits ↔
      (∀ entry ∈ pairs, ∃ place, Datum.part? parts entry.1 = some (some place)) ∧
        limitOf? min = some limits.min ∧ limitOf? max = some limits.max ∧
          flag.elim (some false) Datum.bool? = some limits.exclusive :=
    ⟨fun are => ⟨are.known, (Datum.exists_under_iff isMin).mp are.min,
        (Datum.exists_under_iff isMax).mp are.max, (Datum.exists_under_iff isFlag).mp are.exclusive⟩,
      fun ⟨known, min, max, exclusive⟩ => ⟨known, (Datum.exists_under_iff isMin).mpr min,
        (Datum.exists_under_iff isMax).mpr max, (Datum.exists_under_iff isFlag).mpr exclusive⟩⟩
  refine Option.ext fun limits => ?_
  rw [Datum.limits_eq_some_iff, limitsAre, known, exclusive, limitOf?_of_gives lower,
    limitOf?_of_gives upper, ofFields?]
  obtain ⟨least, most, excluded⟩ := limits
  by_cases names : (Fields.ofList named).keys.all parts.contains = true
  · rw [if_pos names]
    simp only [names, limitAt, Option.map_eq_some_iff, Option.some.injEq, RangeSpec.mk.injEq,
      true_and]
    constructor
    · rintro ⟨rfl, rfl, is⟩
      exact ⟨excluded, is, rfl, rfl, rfl⟩
    · rintro ⟨_, is, rfl, rfl, rfl⟩
      exact ⟨rfl, rfl, is⟩
  · rw [if_neg names]
    simp [names]

end RangeSpec

/-- Fields are limits iff they have no other names and a flag among them is a truth value. -/
theorem RangeSpec.exists_ofFields?_iff {fields : FieldValues} :
    (∃ limits, ofFields? fields = some limits) ↔ (∀ name ∈ fields.keys, name ∈ parts) ∧
      ∀ flag, fields.get? "exclusive" = some flag → ∃ b, flag = .bool b := by
  have names : fields.keys.all parts.contains = true ↔ ∀ name ∈ fields.keys, name ∈ parts := by
    simp only [List.all_eq_true, List.contains_iff_mem]
  rw [← names, ofFields?]
  cases fields.get? "exclusive" with
  | none => simp
  | some flag => cases flag <;> simp [Value.bool?]

namespace ConstraintSpec

/-- What a written record of values is read as. -/
def ofFields (fields : FieldValues) : ConstraintSpec :=
  match (fields.get? conditionPart).bind Value.text? with
  | some source => .condition source
  | none => ((RangeSpec.ofFields? fields).map .range).getD (.literal (.object fields))

/-- A record of values is **captured** if, once it is written, another form fits it: a condition,
which only needs a text under its name, or limits. -/
def Captures (fields : FieldValues) : Prop :=
  (∃ source, fields.get? conditionPart = some (.string source)) ∨
    (∀ name ∈ fields.keys, name ∈ RangeSpec.parts) ∧
      ∀ flag, fields.get? "exclusive" = some flag → ∃ b, flag = .bool b

/-- **What a written constraint comes back as.** -/
def renewed : ConstraintSpec → ConstraintSpec
  | .literal (.object fields) => ofFields fields
  | spec => spec

/-- **Constraints come back as they were** unless they are records that are captured. -/
theorem renewed_eq_self_iff (spec : ConstraintSpec) :
    spec.renewed = spec ↔ ∀ fields, spec = .literal (.object fields) → ¬ Captures fields := by
  cases spec with
  | condition source => exact ⟨fun _ _ => nofun, fun _ => rfl⟩
  | range limits => exact ⟨fun _ _ => nofun, fun _ => rfl⟩
  | literal value =>
    cases value with
    | object fields =>
      have text : (∃ source, Fields.get? fields conditionPart = some (.string source)) ↔
          ∃ source, (Fields.get? fields conditionPart).bind Value.text? = some source := by
        cases Fields.get? fields conditionPart with
        | none => simp
        | some value => cases value <;> simp [Value.text?]
      have one : (∀ others, literal (.object fields) = .literal (.object others) →
          ¬ Captures others) ↔ ¬ Captures fields :=
        ⟨fun free => free fields rfl, fun free others same => by cases same; exact free⟩
      rw [one, Captures, text, ← RangeSpec.exists_ofFields?_iff, renewed, ofFields]
      cases (Fields.get? fields conditionPart).bind Value.text? with
      | some source => exact ⟨nofun, fun free => absurd (.inl ⟨source, rfl⟩) free⟩
      | none =>
        cases RangeSpec.ofFields? fields with
        | some limits => exact ⟨nofun, fun free => absurd (.inr ⟨limits, rfl⟩) free⟩
        | none => simp
    | _ => exact ⟨fun _ _ => nofun, fun _ => rfl⟩

/-- A constraint is **sound** if it can be written and what is written can be told from null, from
limits that are absent and from limits in a list. Whatever is read is sound, with so many levels
left (`sound_of_ofDatum?`). -/
structure Sound (depth : Nat) (spec : ConstraintSpec) : Prop where
  /-- What is written fits a document. -/
  fits : spec.toValue.Fits depth
  /-- It is not null. -/
  present : spec.toValue ≠ .null
  /-- No limit is null. -/
  limits : ∀ range, spec = .range range → .null ∉ range.min ∧ .null ∉ range.max
  /-- A list of values is no list of limits. -/
  unlimited : ∀ items, spec = .literal (.array items) →
    RangeSpec.ofDatum? (.list (Datum.ofItems items)) = none

/-- Sound constraints are sound with more levels left. -/
theorem Sound.mono {depth deeper : Nat} {spec : ConstraintSpec} (sound : spec.Sound depth)
    (within : depth ≤ deeper) : spec.Sound deeper :=
  { sound with fits := sound.fits.mono within }

/-- **A record is read as the fields that it gives** unless it repeats a word. -/
theorem ofDatum?_entries {pairs : List (Datum × Datum)} {named : List (String × Value)}
    (give : Datum.GiveNamed pairs named) (unrepeated : ¬ Datum.RepeatsWord pairs)
    (stands : (Datum.entries pairs).toValue? = some (.object (Fields.ofList named))) :
    ofDatum? (.entries pairs) = some (ofFields (Fields.ofList named)) := by
  have once := not_lt.mp fun repeated => unrepeated ⟨conditionPart, List.mem_cons_self, repeated⟩
  rw [ofDatum?, give.bind_text?_singlePart? once, RangeSpec.ofDatum?_entries give unrepeated, stands,
    ofFields]
  cases ((Fields.ofList named).get? conditionPart).bind Value.text? with
  | some source => rfl
  | none => cases RangeSpec.ofFields? (Fields.ofList named) <;> rfl

/-- A **written record** is read as the fields. -/
theorem ofDatum?_record {depth : Nat} {fields : FieldValues}
    (fits : Value.Fits (depth + 1) (.object fields)) :
    ofDatum? (.entries (Datum.ofFields fields)) = some (ofFields fields) := by
  have stands : (Datum.entries (Datum.ofFields fields)).toValue? = some (.object fields) :=
    Datum.toValue?_ofValue fits
  obtain ⟨sorted, each⟩ : fields.Sorted ∧ ∀ field ∈ fields, field.2.Fits depth := fits
  have same : Fields.ofList fields = fields := Fields.ofList_of_sorted sorted
  have read := ofDatum?_entries (Datum.giveNamed_ofFields each)
    (Datum.not_repeatsWord_ofFields sorted) (same.symm ▸ stands)
  rwa [same] at read

/-- Limits are read back from the fields in which they are written. -/
theorem ofFields_range {range : RangeSpec} {fields : FieldValues}
    (written : range.toValue = .object fields) (min : .null ∉ range.min) (max : .null ∉ range.max) :
    ofFields fields = .range range := by
  have kept {limit : Option Value} (present : .null ∉ limit) :
      (limit.filter fun value => !value.isNull) = limit := by
    cases limit with
    | none => rfl
    | some value => cases value <;> first | rfl | exact absurd rfl present
  have lower := kept min
  have upper := kept max
  obtain ⟨least, most, exclusive⟩ := range
  cases written
  cases least <;> cases most <;>
    simp_all [ofFields, RangeSpec.ofFields?, RangeSpec.limitAt, conditionPart, RangeSpec.parts,
      Fields.keys, Value.bool?]

/-- What is read as a value is neither a condition nor limits. -/
theorem ofDatum?_eq_literal_iff {datum : Datum} {value : Value} :
    ofDatum? datum = some (.literal value) ↔
      (singlePart? conditionPart datum).bind Datum.text? = none ∧
        RangeSpec.ofDatum? datum = none ∧ datum.toValue? = some value := by
  constructor
  · intro read
    unfold ofDatum? at read
    split at read
    · cases read
    · next unconditional =>
      split at read
      · cases read
      · next unlimited =>
        obtain ⟨_, stands, same⟩ := Option.map_eq_some_iff.mp read
        cases same
        exact ⟨unconditional, unlimited, stands⟩
  · rintro ⟨unconditional, unlimited, stands⟩
    rw [ofDatum?, unconditional, unlimited, stands]
    rfl

/-- **Sound constraints** are read back, unless they are captured. -/
theorem ofDatum?_ofValue {depth : Nat} {spec : ConstraintSpec} (sound : spec.Sound depth) :
    ofDatum? (.ofValue spec.toValue) = some spec.renewed := by
  have record {fields : FieldValues} (written : spec.toValue = .object fields) :
      ofDatum? (.ofValue spec.toValue) = some (ofFields fields) := by
    have fits := sound.fits
    rw [written] at fits ⊢
    cases depth with
    | zero => exact fits.elim
    | succ depth => exact ofDatum?_record fits
  have stands := Datum.toValue?_ofValue sound.fits
  cases spec with
  | condition source =>
    rw [record rfl]
    simp [ofFields, Value.text?, renewed]
  | range range =>
    obtain ⟨min, max⟩ := sound.limits range rfl
    rw [record rfl]
    exact congrArg some (ofFields_range rfl min max)
  | literal value =>
    cases value with
    | object fields => exact record rfl
    | array items => exact ofDatum?_eq_literal_iff.mpr ⟨rfl, sound.unlimited items rfl, stands⟩
    | number n =>
      cases n with
      | float x => exact ofDatum?_eq_literal_iff.mpr ⟨rfl, rfl, stands⟩
      | int n =>
        have scalar : (singlePart? conditionPart (.ofValue (.number (.int n)))).bind Datum.text? =
            none ∧ RangeSpec.ofDatum? (.ofValue (.number (.int n))) = none := by
          rw [Datum.ofValue]
          split <;> exact ⟨rfl, rfl⟩
        exact ofDatum?_eq_literal_iff.mpr ⟨scalar.1, scalar.2, stands⟩
    | _ => rfl

end ConstraintSpec

/-! ## Constraints that were read -/

namespace RangeSpec

/-- A limit that was read is what a datum other than null stands for. -/
theorem exists_of_limitOf? {written : Option Datum} {limit : Option Value}
    (read : limitOf? written = some limit) {value : Value} (is : value ∈ limit) :
    ∃ datum ∈ written, datum ≠ .null ∧ datum.toValue? = some value := by
  cases written with
  | none =>
    cases read
    cases is
  | some datum =>
    by_cases present : datum = .null
    · subst present
      cases read
      cases is
    · obtain ⟨stood, stands, rfl⟩ := Datum.limitOf?_written present read
      cases is
      exact ⟨datum, rfl, present, stands⟩

/-- A value can be read as a limit. -/
theorem exists_limitOf? {written : Option Datum}
    (each : ∀ datum ∈ written, ∃ value, datum.toValue? = some value) :
    ∃ limit, limitOf? written = some limit := by
  cases written with
  | none => exact ⟨none, rfl⟩
  | some datum =>
    obtain ⟨value, stands⟩ := each datum rfl
    by_cases present : datum = .null
    · subst present
      exact ⟨none, rfl⟩
    · exact ⟨some value, by rw [limitOf?_of_ne_null present, stands]; rfl⟩

/-- The limits of a datum are what data **inside** it stand for. -/
theorem exists_of_ofDatum? {depth : Nat} {datum : Datum} (fits : datum.Fits depth)
    (finite : datum.isFinite = true) {limits : RangeSpec} (read : ofDatum? datum = some limits) :
    ∃ inner, depth = inner + 1 ∧ ∀ value, value ∈ limits.min ∨ value ∈ limits.max →
      ∃ item : Datum, item.Fits inner ∧ item.isFinite = true ∧ item ≠ .null ∧
        item.toValue? = some value := by
  cases datum with
  | entries pairs =>
    cases depth with
    | zero => exact fits.elim
    | succ depth =>
      have each : ∀ entry ∈ pairs, entry.1.Fits depth ∧ entry.2.Fits depth := fits
      have are := Datum.limits_eq_some_iff.mp read
      have within {name : String} {written : Option Datum} {limit : Option Value}
          (only : Datum.under parts name pairs = written.toList)
          (reads : limitOf? written = some limit) {value : Value} (is : value ∈ limit) :
          ∃ item : Datum, item.Fits depth ∧ item.isFinite = true ∧ item ≠ .null ∧
            item.toValue? = some value := by
        obtain ⟨item, here, present, stands⟩ := exists_of_limitOf? reads is
        have mem : item ∈ Datum.under parts name pairs := only ▸ Option.mem_toList.mpr here
        obtain ⟨entry, among, rfl⟩ := List.mem_map.mp mem
        have inside := (List.mem_filter.mp among).1
        exact ⟨entry.2, (each entry inside).2, Datum.isFinite_of_mem_entries finite inside, present,
          stands⟩
      obtain ⟨min, onlyMin, readMin⟩ := are.min
      obtain ⟨max, onlyMax, readMax⟩ := are.max
      exact ⟨depth, rfl, fun value is => is.elim (within onlyMin readMin) (within onlyMax readMax)⟩
  | list items =>
    cases depth with
    | zero => exact fits.elim
    | succ depth =>
      have each : ∀ item ∈ items, item.Fits depth := fits
      rw [ofDatum?] at read
      split at read
      · obtain ⟨readMin, readMax, -⟩ := Datum.ofParts?_eq_some_iff.mp read
        have within {place : Nat} {limit : Option Value}
            (reads : limitOf? items[place]? = some limit) {value : Value} (is : value ∈ limit) :
            ∃ item : Datum, item.Fits depth ∧ item.isFinite = true ∧ item ≠ .null ∧
              item.toValue? = some value := by
          obtain ⟨item, here, present, stands⟩ := exists_of_limitOf? reads is
          have among : item ∈ items := List.mem_of_getElem? here
          exact ⟨item, each item among, Datum.isFinite_of_mem_list finite among, present, stands⟩
        exact ⟨depth, rfl, fun value is => is.elim (within readMin) (within readMax)⟩
      · cases read
  | _ => cases read

/-- Written limits fit if the limits do. -/
theorem fits_toValue {depth : Nat} {range : RangeSpec}
    (each : ∀ value, value ∈ range.min ∨ value ∈ range.max → value.Fits depth) :
    range.toValue.Fits (depth + 1) := by
  obtain ⟨min, max, exclusive⟩ := range
  have flag : Value.Fits depth (.bool exclusive) := Value.fits_bool depth exclusive
  have lower : ∀ value ∈ min, value.Fits depth := fun value is => each value (.inl is)
  have upper : ∀ value ∈ max, value.Fits depth := fun value is => each value (.inr is)
  clear each
  cases min <;> cases max
  · have names : ["exclusive"].Pairwise (· < ·) := by decide
    exact ⟨Fields.sorted_of_keys names rfl, by simp_all⟩
  · have names : ["exclusive", "max"].Pairwise (· < ·) := by decide
    exact ⟨Fields.sorted_of_keys names rfl, by simp_all⟩
  · have names : ["exclusive", "min"].Pairwise (· < ·) := by decide
    exact ⟨Fields.sorted_of_keys names rfl, by simp_all⟩
  · have names : ["exclusive", "max", "min"].Pairwise (· < ·) := by decide
    exact ⟨Fields.sorted_of_keys names rfl, by simp_all⟩

/-- A list of values **is no list of limits** iff it is too long or the third item is no truth
value. -/
theorem ofDatum?_list_eq_none_iff {items : List Datum}
    (each : ∀ item ∈ items, ∃ value, item.toValue? = some value) :
    ofDatum? (.list items) = none ↔
      ¬ ((items.map Datum.bool?).length ≤ 3 ∧ (items.map Datum.bool?)[2]? ≠ some none) := by
  have limit (place : Nat) : ∃ limit, limitOf? items[place]? = some limit :=
    exists_limitOf? fun datum here => each datum (List.mem_of_getElem? here)
  obtain ⟨min, readMin⟩ := limit 0
  obtain ⟨max, readMax⟩ := limit 1
  rw [ofDatum?, List.length_map, List.getElem?_map]
  split
  · next short =>
    cases flag : items[2]? with
    | none =>
      have read : ofParts? items[0]? items[1]? none = some ⟨min, max, false⟩ :=
        Datum.ofParts?_eq_some_iff.mpr ⟨readMin, readMax, rfl⟩
      rw [read]
      simp [short]
    | some datum =>
      cases is : datum.bool? with
      | none =>
        have never : ofParts? items[0]? items[1]? (some datum) = none := by
          refine Option.eq_none_iff_forall_ne_some.mpr fun limits read => ?_
          cases is.symm.trans (Datum.ofParts?_eq_some_iff.mp read).2.2
        rw [never]
        simp [is]
      | some b =>
        have read : ofParts? items[0]? items[1]? (some datum) = some ⟨min, max, b⟩ :=
          Datum.ofParts?_eq_some_iff.mpr ⟨readMin, readMax, is⟩
        rw [read]
        simp [short, is]
  · next long => simp [long]

/-- Written items are limits iff the data are that they were read from: what tells a list from
limits are its length and whether the third item is a truth value. -/
theorem ofDatum?_ofItems_eq_none_iff {depth : Nat} {items : List Datum} {values : List Value}
    (stand : Datum.valuesOf? items = some values) (fits : ∀ value ∈ values, value.Fits depth) :
    ofDatum? (.list (Datum.ofItems values)) = none ↔ ofDatum? (.list items) = none := by
  have related := Datum.forall₂_of_valuesOf? stand
  have each : ∀ item ∈ items, ∃ value, item.toValue? = some value :=
    exists_forall₂_iff.mp ⟨values, related⟩
  have written : ∀ item ∈ Datum.ofItems values, ∃ value, item.toValue? = some value := by
    rw [Datum.ofItems_eq_map, List.forall_mem_map]
    exact fun value mem => ⟨value, Datum.toValue?_ofValue (fits value mem)⟩
  have flags : items.map Datum.bool? = (Datum.ofItems values).map Datum.bool? := by
    have first : items.map Datum.bool? = values.map Value.bool? := by
      rw [← List.forall₂_eq_eq_eq, List.forall₂_map_left_iff, List.forall₂_map_right_iff]
      exact related.imp fun item value stands => (Datum.kind_of_toValue? stands).2
    rw [first, Datum.ofItems_eq_map, List.map_map]
    exact List.map_congr_left fun value mem =>
      (Datum.kind_of_toValue? (Datum.toValue?_ofValue (fits value mem))).2.symm
  rw [ofDatum?_list_eq_none_iff each, ofDatum?_list_eq_none_iff written, flags]

end RangeSpec

namespace ConstraintSpec

/-- Only a list stands for a list of values. -/
theorem exists_of_toValue?_array {datum : Datum} {values : List Value}
    (stands : datum.toValue? = some (.array values)) :
    ∃ items, datum = .list items ∧ Datum.valuesOf? items = some values := by
  cases datum with
  | list items =>
    obtain ⟨_, is, same⟩ := Option.map_eq_some_iff.mp stands
    cases same
    exact ⟨items, rfl, is⟩
  | float x =>
    rw [Datum.toValue?, Value.ofFloat] at stands
    split at stands <;> cases stands
  | entries pairs =>
    obtain ⟨_, -, never⟩ := Option.map_eq_some_iff.mp stands
    cases never
  | _ => cases stands

/-- A condition that is read is sound. -/
theorem sound_of_condition {depth : Nat} {datum : Datum} {source : String}
    (fits : datum.Fits depth)
    (read : (singlePart? conditionPart datum).bind Datum.text? = some source) :
    (condition source).Sound depth := by
  obtain ⟨part, single, -⟩ := Option.bind_eq_some_iff.mp read
  cases datum with
  | entries pairs =>
    cases depth with
    | zero => exact fits.elim
    | succ depth =>
      exact ⟨Value.fits_single _ (Value.fits_string depth source), nofun, nofun, nofun⟩
  | _ => cases single

/-- Limits that are read are sound. -/
theorem sound_of_limits {depth : Nat} {datum : Datum} {limits : RangeSpec}
    (fits : datum.Fits depth) (finite : datum.isFinite = true)
    (read : RangeSpec.ofDatum? datum = some limits) : (range limits).Sound depth := by
  obtain ⟨inner, rfl, inside⟩ := RangeSpec.exists_of_ofDatum? fits finite read
  have limit {value : Value} (is : value ∈ limits.min ∨ value ∈ limits.max) :
      value.Fits inner ∧ value ≠ .null := by
    obtain ⟨item, fits, finite, present, stands⟩ := inside value is
    refine ⟨fits.value stands, ?_⟩
    rintro rfl
    exact present (Datum.eq_null_of_toValue? finite stands)
  refine ⟨RangeSpec.fits_toValue fun value is => (limit is).1, nofun, ?_, nofun⟩
  rintro range ⟨⟩
  exact ⟨fun null => (limit (.inl null)).2 rfl, fun null => (limit (.inr null)).2 rfl⟩

/-- Values that are read where no other form fits are sound. -/
theorem sound_of_value {depth : Nat} {datum : Datum} {value : Value} (fits : datum.Fits depth)
    (finite : datum.isFinite = true) (present : datum ≠ .null)
    (unlimited : RangeSpec.ofDatum? datum = none) (stands : datum.toValue? = some value) :
    (literal value).Sound depth := by
  have written : value.Fits depth := fits.value stands
  refine ⟨written, ?_, nofun, ?_⟩
  · rintro (rfl : value = .null)
    exact present (Datum.eq_null_of_toValue? finite stands)
  · rintro values ⟨⟩
    obtain ⟨items, rfl, stand⟩ := exists_of_toValue?_array stands
    cases depth with
    | zero => exact fits.elim
    | succ depth => exact (RangeSpec.ofDatum?_ofItems_eq_none_iff stand written).mpr unlimited

/-- **Constraints that are read are sound.** -/
theorem sound_of_ofDatum? {depth : Nat} {datum : Datum} (fits : datum.Fits depth)
    (finite : datum.isFinite = true) (present : datum ≠ .null) {spec : ConstraintSpec}
    (read : ofDatum? datum = some spec) : spec.Sound depth := by
  unfold ofDatum? at read
  split at read
  · next source condition =>
    cases read
    exact sound_of_condition fits condition
  · split at read
    · next limits limited =>
      cases read
      exact sound_of_limits fits finite limited
    · next unlimited =>
      obtain ⟨value, stands, rfl⟩ := Option.map_eq_some_iff.mp read
      exact sound_of_value fits finite present unlimited stands

end ConstraintSpec

/-! ## Captured records -/

namespace ConstraintSpec

/-- Only entries stand for a record of values. -/
theorem exists_of_toValue?_object {datum : Datum} {fields : FieldValues}
    (stands : datum.toValue? = some (.object fields)) :
    ∃ pairs named, datum = .entries pairs ∧ Datum.fieldsOf? pairs = some named ∧
      fields = Fields.ofList named := by
  cases datum with
  | entries pairs =>
    obtain ⟨named, is, same⟩ := Option.map_eq_some_iff.mp stands
    cases same
    exact ⟨pairs, named, rfl, is, rfl⟩
  | float x =>
    rw [Datum.toValue?, Value.ofFloat] at stands
    split at stands <;> cases stands
  | list items =>
    obtain ⟨_, -, never⟩ := Option.map_eq_some_iff.mp stands
    cases never
  | _ => cases stands

/-- **Only a record that repeats a word** is read as a value and captured once it is written: any
other record is read as the fields that it gives, as the written one is. -/
theorem repeatsWord_of_captures {datum : Datum} {fields : FieldValues}
    (finite : datum.isFinite = true) (read : ofDatum? datum = some (.literal (.object fields)))
    (captures : Captures fields) :
    ∃ pairs, datum = .entries pairs ∧ Datum.RepeatsWord pairs := by
  obtain ⟨-, -, stands⟩ := ofDatum?_eq_literal_iff.mp read
  obtain ⟨pairs, named, rfl, stand, rfl⟩ := exists_of_toValue?_object stands
  refine ⟨pairs, rfl, ?_⟩
  by_contra unrepeated
  have each : ∀ entry ∈ pairs, entry.2.isFinite = true :=
    fun entry mem => Datum.isFinite_of_mem_entries finite mem
  have give : Datum.GiveNamed pairs named :=
    ((List.forall₂_and_left _ _).mpr ⟨each, Datum.forall₂_of_fieldsOf? stand⟩).imp
      fun _ _ ⟨finite, isKey, stands⟩ => ⟨isKey, Datum.gives_of_isFinite finite stands⟩
  have again : (literal (.object (Fields.ofList named))).renewed =
      .literal (.object (Fields.ofList named)) :=
    Option.some.inj ((ofDatum?_entries give unrepeated stands).symm.trans read)
  exact (renewed_eq_self_iff _).mp again _ rfl captures

end ConstraintSpec

end Warden
