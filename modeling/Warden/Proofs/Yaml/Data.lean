import Mathlib
import Warden.Proofs.FieldMaps
import Warden.Proofs.Numerals
import Warden.Proofs.Run
import Warden.Proofs.Yaml.Written
/-! # Data that are read back
Of the data in documents only those are values whose keys are texts. A value that was read **fits**
a document again (`Yaml.Datum.Fits.value`): it is nested no deeper than before, its integers are in
range and its binary64 values finite. And what fits is read back as it was written
(`Yaml.Datum.ofNode_ofValue`, `Yaml.Datum.toValue?_ofValue`). What is lost in between are binary64
values that are not finite: they become null, which nothing else does
(`Yaml.Datum.eq_null_of_toValue?`). -/

namespace Warden

/-! ## Values that fit -/

/-- A number **fits** a document if it is an integer in range or a finite binary64. -/
def Number.Fits : Number → Prop
  | .int n => minWord ≤ n ∧ n ≤ maxUnsigned
  | .float x => x.isFinite = true

/-- A value **fits** a document, with so many levels left for lists and field maps. -/
def Value.Fits : Nat → Value → Prop
  | _, .null => True
  | _, .bool _ => True
  | _, .string _ => True
  | _, .number n => n.Fits
  | 0, .array _ => False
  | 0, .object _ => False
  | depth + 1, .array items => ∀ item ∈ items, Value.Fits depth item
  | depth + 1, .object fields => Fields.Sorted fields ∧ ∀ field ∈ fields, Value.Fits depth field.2

namespace Value

theorem fits_null (depth : Nat) : Fits depth .null := by cases depth <;> trivial

theorem fits_bool (depth : Nat) (b : Bool) : Fits depth (.bool b) := by cases depth <;> trivial

theorem fits_string (depth : Nat) (s : String) : Fits depth (.string s) := by
  cases depth <;> trivial

/-- A field map with one field fits if its value fits one level further in. -/
theorem fits_single {depth : Nat} (name : String) {value : Value} (fits : value.Fits depth) :
    Fits (depth + 1) (.object [(name, value)]) :=
  ⟨List.pairwise_singleton _ _, List.forall_mem_singleton.mpr fits⟩

/-- What fits without any levels fits at every depth. -/
theorem Fits.of_zero {value : Value} (fits : value.Fits 0) (depth : Nat) : value.Fits depth := by
  cases depth with
  | zero => exact fits
  | succ depth => cases value <;> first | exact fits | exact False.elim fits

/-- What fits is a scalar, a list or a field map. -/
theorem Fits.cases {depth : Nat} {value : Value} (fits : value.Fits depth) :
    value.Fits 0 ∨ (∃ items, value = .array items) ∨ ∃ fields, value = .object fields := by
  cases value with
  | array items => exact .inr (.inl ⟨items, rfl⟩)
  | object fields => exact .inr (.inr ⟨fields, rfl⟩)
  | _ => exact .inl (by cases depth <;> exact fits)

/-- What fits still fits with more levels left. -/
theorem Fits.mono {depth deeper : Nat} {value : Value} (fits : value.Fits depth)
    (within : depth ≤ deeper) : value.Fits deeper := by
  induction depth generalizing value deeper with
  | zero => exact fits.of_zero deeper
  | succ depth ih =>
    obtain ⟨deeper, rfl⟩ : ∃ inner, deeper = inner + 1 := Nat.exists_eq_add_one.mpr (by omega)
    have inside : depth ≤ deeper := Nat.le_of_succ_le_succ within
    rcases fits.cases with leaf | ⟨items, rfl⟩ | ⟨fields, rfl⟩
    · exact leaf.of_zero _
    · exact fun item mem => ih (fits item mem) inside
    · exact ⟨fits.1, fun field mem => ih (fits.2 field mem) inside⟩

end Value

namespace Yaml

namespace Datum

mutual

/-- The datum of a written value. -/
def ofValue : Value → Datum
  | .null => .null
  | .bool b => .bool b
  | .number (.int n) => if n < 0 then .negative n else .natural n.toNat
  | .number (.float x) => .float x
  | .string s => .text s
  | .array items => .list (ofItems items)
  | .object fields => .entries (ofFields fields)

/-- The data of written items. -/
def ofItems : List Value → List Datum
  | [] => []
  | item :: rest => ofValue item :: ofItems rest

/-- The data of written fields. -/
def ofFields : List (String × Value) → List (Datum × Datum)
  | [] => []
  | (name, value) :: rest => (.text name, ofValue value) :: ofFields rest

end

theorem ofItems_eq_map (items : List Value) : ofItems items = items.map ofValue := by
  induction items with
  | nil => rfl
  | cons item rest ih => rw [ofItems, ih, List.map_cons]

theorem ofFields_eq_map (fields : List (String × Value)) :
    ofFields fields = fields.map fun field => (.text field.1, ofValue field.2) := by
  induction fields with
  | nil => rfl
  | cons field rest ih => rw [ofFields, ih, List.map_cons]

/-! ## Reading what was written -/

theorem ofNode_scalar (depth : Nat) (written : String) (plain : Bool) :
    ofNode depth (.scalar written plain) = Reading.ofOption (ofScalar? written plain) := by
  cases depth <;> rfl

/-- A plain scalar is read as the datum that it stands for. -/
theorem ofNode_of_plain {depth : Nat} {written : String} {datum : Datum}
    (stands : plainDatum? written = some datum) :
    ofNode depth (.scalar written true) = pure datum := by
  rw [ofNode_scalar, ofScalar?, if_pos rfl, stands]
  rfl

/-- Written scalars are read back, at every depth. -/
theorem ofNode_of_fits_zero (depth : Nat) {value : Value} (fits : value.Fits 0) :
    ofNode depth (.ofValue value) = pure (ofValue value) := by
  cases value with
  | null => exact ofNode_of_plain rfl
  | bool b =>
    cases b with
    | true => exact ofNode_of_plain rfl
    | false => exact ofNode_of_plain rfl
  | number n =>
    cases n with
    | int n => exact ofNode_of_plain (plainDatum?_text_int fits.1 fits.2)
    | float x => exact ofNode_of_plain (plainDatum?_text_float fits)
  | string s => exact ofNode_scalar depth s false
  | array items => exact fits.elim
  | object fields => exact fits.elim

/-- **Written values are read back.** -/
theorem ofNode_ofValue {depth : Nat} {value : Value} (fits : value.Fits depth) :
    ofNode depth (.ofValue value) = pure (ofValue value) := by
  induction depth generalizing value with
  | zero => exact ofNode_of_fits_zero 0 fits
  | succ depth ih =>
    rcases fits.cases with leaf | ⟨items, rfl⟩ | ⟨fields, rfl⟩
    · exact ofNode_of_fits_zero _ leaf
    · have each : ∀ item ∈ items, item.Fits depth := fits
      have read :
          (Node.ofItems items).mapM (ofNode depth) = (pure (ofItems items) : Reading _) := by
        clear fits
        induction items with
        | nil => rfl
        | cons item rest more =>
          rw [Node.ofItems, List.mapM_cons, ih (each item List.mem_cons_self), pure_bind,
            more fun later mem => each later (List.mem_cons_of_mem item mem)]
          rfl
      rw [Node.ofValue, ofNode, Node.target_sequence, pure_bind]
      dsimp only
      rw [read]
      rfl
    · have each : ∀ field ∈ fields, field.2.Fits depth := fits.2
      have read : (Node.ofFields fields).mapM (fun entry => do
          let key ← ofNode depth entry.1
          let value ← ofNode depth entry.2
          return (key, value)) = (pure (ofFields fields) : Reading _) := by
        clear fits
        induction fields with
        | nil => rfl
        | cons field rest more =>
          obtain ⟨name, value⟩ := field
          rw [Node.ofFields, List.mapM_cons, ofNode_scalar, ih (each _ List.mem_cons_self),
            more fun later mem => each later (List.mem_cons_of_mem _ mem)]
          rfl
      rw [Node.ofValue, ofNode, Node.target_mapping, pure_bind]
      dsimp only
      rw [read]
      rfl

/-- Scalars stand for the values that were written. -/
theorem toValue?_of_fits_zero {value : Value} (fits : value.Fits 0) :
    (ofValue value).toValue? = some value := by
  cases value with
  | number n =>
    cases n with
    | int n =>
      rw [ofValue]
      split
      · rfl
      · next nonneg =>
        rw [toValue?, Int.toNat_of_nonneg (not_lt.mp nonneg)]
        rfl
    | float x =>
      rw [ofValue, toValue?, Value.ofFloat, if_pos (show x.isFinite = true from fits)]
  | null => rfl
  | bool => rfl
  | string => rfl
  | array => exact fits.elim
  | object => exact fits.elim

/-- **Data stand for the values** that were written. -/
theorem toValue?_ofValue {depth : Nat} {value : Value} (fits : value.Fits depth) :
    (ofValue value).toValue? = some value := by
  induction depth generalizing value with
  | zero => exact toValue?_of_fits_zero fits
  | succ depth ih =>
    rcases fits.cases with leaf | ⟨items, rfl⟩ | ⟨fields, rfl⟩
    · exact toValue?_of_fits_zero leaf
    · have each : ∀ item ∈ items, item.Fits depth := fits
      have values : valuesOf? (ofItems items) = some items := by
        clear fits
        induction items with
        | nil => rfl
        | cons item rest more =>
          rw [ofItems, valuesOf?, ih (each item List.mem_cons_self),
            more fun later mem => each later (List.mem_cons_of_mem item mem)]
          rfl
      rw [ofValue, toValue?, values]
      rfl
    · obtain ⟨sorted, each⟩ : Fields.Sorted fields ∧ ∀ field ∈ fields, field.2.Fits depth := fits
      have values : fieldsOf? (ofFields fields) = some fields := by
        clear sorted
        induction fields with
        | nil => rfl
        | cons field rest more =>
          obtain ⟨name, value⟩ := field
          rw [ofFields, fieldsOf?, ih (each _ List.mem_cons_self),
            more fun later mem => each later (List.mem_cons_of_mem _ mem)]
          rfl
      rw [ofValue, toValue?, values, Option.map_some, Fields.ofList_of_sorted sorted]

/-- A datum is a text or a truth value iff the value that it **stands for** is. -/
theorem kind_of_toValue? {datum : Datum} {value : Value} (stands : datum.toValue? = some value) :
    datum.text? = value.text? ∧ datum.bool? = value.bool? := by
  cases datum with
  | float x =>
    cases stands
    unfold Value.ofFloat
    split <;> exact ⟨rfl, rfl⟩
  | list items =>
    obtain ⟨_, -, rfl⟩ := Option.map_eq_some_iff.mp stands
    exact ⟨rfl, rfl⟩
  | entries pairs =>
    obtain ⟨_, -, rfl⟩ := Option.map_eq_some_iff.mp stands
    exact ⟨rfl, rfl⟩
  | _ => cases stands; exact ⟨rfl, rfl⟩

theorem text?_eq_some_iff {datum : Datum} {text : String} :
    datum.text? = some text ↔ datum = .text text := by
  cases datum <;> simp [text?]

/-! ## Data of documents -/

/-- A datum **fits** a document, with so many levels left for lists and entries. -/
def Fits : Nat → Datum → Prop
  | _, .null => True
  | _, .bool _ => True
  | _, .text _ => True
  | _, .float _ => True
  | _, .natural n => (n : Int) ≤ maxUnsigned
  | _, .negative n => minWord ≤ n ∧ n ≤ 0
  | 0, .list _ => False
  | 0, .entries _ => False
  | depth + 1, .list items => ∀ item ∈ items, Fits depth item
  | depth + 1, .entries pairs => ∀ entry ∈ pairs, Fits depth entry.1 ∧ Fits depth entry.2

/-- The integers of scalars have the sign that they are written with. -/
theorem integerOf?_cases {chars : List Char} {datum : Datum}
    (read : integerOf? chars = some datum) :
    (∃ n : Nat, datum = .natural n) ∨ ∃ n : Int, n ≤ 0 ∧ datum = .negative n := by
  unfold integerOf? at read
  split at read
  · next unsigned =>
    obtain ⟨n, is, rfl⟩ := Option.map_eq_some_iff.mp read
    obtain ⟨k, -, is⟩ := Option.bind_eq_some_iff.mp is
    cases is
    exact .inr ⟨_, by omega, rfl⟩
  · obtain ⟨n, -, rfl⟩ := Option.map_eq_some_iff.mp read
    exact .inl ⟨n, rfl⟩
  · obtain ⟨n, -, rfl⟩ := Option.map_eq_some_iff.mp read
    exact .inl ⟨n, rfl⟩

/-- What fits without any levels fits at every depth. -/
theorem Fits.of_zero {datum : Datum} (fits : datum.Fits 0) (depth : Nat) : datum.Fits depth := by
  cases depth with
  | zero => exact fits
  | succ depth => cases datum <;> first | exact fits | exact False.elim fits

/-- What fits is a scalar, a list or made of entries. -/
theorem Fits.cases {depth : Nat} {datum : Datum} (fits : datum.Fits depth) :
    datum.Fits 0 ∨ (∃ items, datum = .list items) ∨ ∃ pairs, datum = .entries pairs := by
  cases datum with
  | list items => exact .inr (.inl ⟨items, rfl⟩)
  | entries pairs => exact .inr (.inr ⟨pairs, rfl⟩)
  | _ => exact .inl (by cases depth <;> exact fits)

/-- Scalars fit. -/
theorem fits_of_ofScalar? {written : String} {plain : Bool} {datum : Datum}
    (read : ofScalar? written plain = some datum) : datum.Fits 0 := by
  unfold ofScalar? at read
  split at read
  · unfold plainDatum? at read
    split at read
    · cases read
      trivial
    · split at read
      · cases read
        trivial
      · split at read
        · next n integer =>
          split at read
          · next inRange =>
            cases read
            have is := (Option.filter_eq_some_iff.mp integer).1
            rcases integerOf?_cases is with ⟨n, rfl⟩ | ⟨n, negative, rfl⟩
            · have most : (n : Int) ≤ maxUnsigned := of_decide_eq_true inRange
              exact most
            · exact ⟨of_decide_eq_true inRange, negative⟩
          · cases read
        · cases read
          cases floatOf? written <;> trivial
  · cases read
    trivial

/-- **Data that are read** fit the depth at which they are read. -/
theorem ensures_fits (depth : Nat) (node : Node) : (ofNode depth node).Ensures (Fits depth) := by
  have scalar (depth : Nat) (written : String) (plain : Bool) :
      (Reading.ofOption (ofScalar? written plain)).Ensures (Fits depth) := by
    intro document followed datum left returned
    obtain ⟨_, is, same⟩ := Option.map_eq_some_iff.mp returned
    cases same
    exact (fits_of_ofScalar? is).of_zero depth
  induction depth generalizing node with
  | zero =>
    refine (Reading.ensures_true node.target).bind fun target _ => ?_
    cases target with
    | scalar written plain => exact scalar 0 written plain
    | _ => exact fun _ _ _ _ never => nomatch never
  | succ depth ih =>
    refine (Reading.ensures_true node.target).bind fun target _ => ?_
    cases target with
    | scalar written plain => exact scalar _ written plain
    | sequence items =>
      refine (Reading.ensures_mapM fun item => ih item).bind fun data each => ?_
      exact Reading.ensures_pure each
    | mapping pairs =>
      have entry (pair : Node × Node) : (ofNode depth pair.1 >>= fun key =>
          ofNode depth pair.2 >>= fun value => pure (key, value)).Ensures
            fun entry => Fits depth entry.1 ∧ Fits depth entry.2 :=
        (ih pair.1).bind fun key one => (ih pair.2).bind fun value other =>
          Reading.ensures_pure ⟨one, other⟩
      refine (Reading.ensures_mapM entry).bind fun data each => ?_
      exact Reading.ensures_pure each
    | «alias» number => exact fun _ _ _ _ never => nomatch never

/-- A scalar stands for a value that fits. -/
theorem Fits.value_of_zero {datum : Datum} (fits : datum.Fits 0) {value : Value}
    (stands : datum.toValue? = some value) : value.Fits 0 := by
  have low : minWord = -9223372036854775808 := rfl
  have high : maxUnsigned = 18446744073709551615 := rfl
  cases datum with
  | natural n =>
    cases stands
    have most : (n : Int) ≤ maxUnsigned := fits
    exact ⟨by omega, most⟩
  | negative n =>
    cases stands
    obtain ⟨least, most⟩ : minWord ≤ n ∧ n ≤ 0 := fits
    exact ⟨least, by omega⟩
  | float x =>
    cases stands
    unfold Value.ofFloat
    split
    · next finite => exact finite
    · trivial
  | null => cases stands; trivial
  | bool => cases stands; trivial
  | text => cases stands; trivial
  | list => exact fits.elim
  | entries => exact fits.elim

/-- Items stand for values one by one. -/
theorem forall₂_of_valuesOf? {items : List Datum} {values : List Value}
    (stand : valuesOf? items = some values) :
    List.Forall₂ (fun item value => item.toValue? = some value) items values := by
  induction items generalizing values with
  | nil =>
    cases stand
    exact .nil
  | cons item rest ih =>
    obtain ⟨value, one, more⟩ := Option.bind_eq_some_iff.mp stand
    obtain ⟨others, rest, same⟩ := Option.bind_eq_some_iff.mp more
    cases same
    exact .cons one (ih rest)

/-- Entries stand for fields one by one. -/
theorem forall₂_of_fieldsOf? {pairs : List (Datum × Datum)} {fields : List (String × Value)}
    (stand : fieldsOf? pairs = some fields) :
    List.Forall₂ (fun entry field => entry.1 = .text field.1 ∧ entry.2.toValue? = some field.2)
      pairs fields := by
  induction pairs generalizing fields with
  | nil =>
    cases stand
    exact .nil
  | cons entry rest ih =>
    obtain ⟨key, datum⟩ := entry
    obtain ⟨name, isName, more⟩ := Option.bind_eq_some_iff.mp stand
    obtain ⟨value, one, more⟩ := Option.bind_eq_some_iff.mp more
    obtain ⟨others, rest, same⟩ := Option.bind_eq_some_iff.mp more
    cases same
    cases key with
    | text name => cases isName; exact .cons ⟨rfl, one⟩ (ih rest)
    | _ => cases isName

/-- **Data that fit** stand for values that fit. -/
theorem Fits.value {depth : Nat} {datum : Datum} (fits : datum.Fits depth) {value : Value}
    (stands : datum.toValue? = some value) : value.Fits depth := by
  induction depth generalizing datum value with
  | zero => exact fits.value_of_zero stands
  | succ depth ih =>
    rcases fits.cases with leaf | ⟨items, rfl⟩ | ⟨pairs, rfl⟩
    · exact (leaf.value_of_zero stands).of_zero _
    · have each : ∀ item ∈ items, item.Fits depth := fits
      obtain ⟨values, stand, rfl⟩ := Option.map_eq_some_iff.mp stands
      intro value mem
      obtain ⟨item, among, is⟩ := exists_of_mem_right (forall₂_of_valuesOf? stand) mem
      exact ih (each item among) is
    · have each : ∀ entry ∈ pairs, entry.1.Fits depth ∧ entry.2.Fits depth := fits
      obtain ⟨fields, stand, rfl⟩ := Option.map_eq_some_iff.mp stands
      refine ⟨Fields.sorted_ofList fields, fun field mem => ?_⟩
      obtain ⟨entry, among, -, is⟩ :=
        exists_of_mem_right (forall₂_of_fieldsOf? stand) (Fields.mem_of_mem_ofList mem)
      exact ih (each entry among).2 is

/-! ## Values that are not finite -/

mutual

/-- Whether every binary64 value in a datum is finite. -/
def isFinite : Datum → Bool
  | .float x => x.isFinite
  | .list items => areFinite items
  | .entries pairs => haveFinite pairs
  | _ => true

/-- Whether every binary64 value in items is finite. -/
def areFinite : List Datum → Bool
  | [] => true
  | item :: rest => isFinite item && areFinite rest

/-- Whether every binary64 value in entries is finite. -/
def haveFinite : List (Datum × Datum) → Bool
  | [] => true
  | (key, value) :: rest => isFinite key && isFinite value && haveFinite rest

end

theorem isFinite_of_mem_list {items : List Datum} (finite : (list items).isFinite = true)
    {item : Datum} (mem : item ∈ items) : item.isFinite = true := by
  rw [isFinite] at finite
  induction items with
  | nil => cases mem
  | cons first rest ih =>
    obtain ⟨here, there⟩ := (Bool.and_eq_true _ _).mp finite
    rcases List.mem_cons.mp mem with rfl | later
    · exact here
    · exact ih there later

theorem isFinite_of_mem_entries {pairs : List (Datum × Datum)}
    (finite : (entries pairs).isFinite = true) {entry : Datum × Datum} (mem : entry ∈ pairs) :
    entry.2.isFinite = true := by
  rw [isFinite] at finite
  induction pairs with
  | nil => cases mem
  | cons first rest ih =>
    obtain ⟨here, there⟩ := (Bool.and_eq_true _ _).mp finite
    rcases List.mem_cons.mp mem with rfl | later
    · exact ((Bool.and_eq_true _ _).mp here).2
    · exact ih there later

/-- Only null **stands for null** where every binary64 value is finite. -/
theorem eq_null_of_toValue? {datum : Datum} (finite : datum.isFinite = true)
    (stands : datum.toValue? = some .null) : datum = .null := by
  cases datum with
  | null => rfl
  | float x =>
    rw [toValue?, Value.ofFloat, if_pos (show x.isFinite = true from finite)] at stands
    cases stands
  | list items =>
    obtain ⟨_, -, never⟩ := Option.map_eq_some_iff.mp stands
    cases never
  | entries pairs =>
    obtain ⟨_, -, never⟩ := Option.map_eq_some_iff.mp stands
    cases never
  | _ => cases stands

end Datum

end Yaml

end Warden
