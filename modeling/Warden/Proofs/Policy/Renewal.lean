import Mathlib
import Warden.Proofs.Policy.Captured
import Warden.Proofs.Policy.Raw
/-! # Rules that are written and read again
A rule is written part by part: requirements by name, fields and scopes in the form in which they
were read, and a scope only if there is one. Whatever was read is **sound** (`RawRule.Forms.sound`),
provided that its binary64 values are finite: its maps are in order, it is nested no deeper than the
document that it came from, and no written constraint is taken for a missing one. Sound rules are
read again, part by part (`PolicyRule.ofNode_ofValue`), and all parts come back as they were but for
captured constraints (`PolicyRule.renewed_eq_self_iff`), which only a record that repeats a word
gives rise to (`RawRule.Forms.exists_repeating`). -/

namespace Warden

open Yaml

/-! ## Fields -/

namespace FieldList

/-- **What written fields come back as**: fields with constraints may come back with others. -/
def renewed : FieldList → FieldList
  | .constrained fields =>
    .constrained (fields.mapValues fun spec => spec.map ConstraintSpec.renewed)
  | list => list

/-- The constraints of fields. -/
def constraints : FieldList → List ConstraintSpec
  | .constrained fields => fields.filterMap Prod.snd
  | _ => []

/-- Fields come back as they were iff their constraints do. -/
theorem renewed_eq_self_iff (list : FieldList) :
    list.renewed = list ↔ ∀ spec ∈ list.constraints, spec.renewed = spec := by
  cases list with
  | constrained fields =>
    have demand (spec : Option ConstraintSpec) :
        spec.map ConstraintSpec.renewed = spec ↔ ∀ inner ∈ spec, inner.renewed = inner := by
      cases spec <;> simp
    rw [renewed, constrained.injEq, Fields.mapValues_eq_self_iff]
    simp only [demand, constraints, List.mem_filterMap, Option.mem_def]
    exact ⟨fun kept spec ⟨entry, mem, is⟩ => kept entry mem spec is,
      fun kept entry mem spec is => kept spec ⟨entry, mem, is⟩⟩
  | _ => exact ⟨fun _ => nofun, fun _ => rfl⟩

/-- Fields are **sound** if they can be written and their constraints are sound. -/
structure Sound (depth : Nat) (list : FieldList) : Prop where
  /-- What is written fits a document. -/
  fits : list.toValue.Fits depth
  /-- Constrained fields are in order, and their constraints are sound. -/
  constraints : ∀ fields, list = .constrained fields → fields.Sorted ∧
    ∀ entry ∈ fields, ∀ spec ∈ entry.2, ConstraintSpec.Sound (depth - 1) spec

/-- A written constraint is read back; null stands for none. -/
theorem entryOf?_ofValue {depth : Nat} (name : String) {spec : Option ConstraintSpec}
    (sound : ∀ spec' ∈ spec, ConstraintSpec.Sound depth spec') :
    entryOf? (.text name, .ofValue ((spec.map ConstraintSpec.toValue).getD .null)) =
      some (name, spec.map ConstraintSpec.renewed) := by
  cases spec with
  | none => rfl
  | some spec =>
    have read := ConstraintSpec.ofDatum?_ofValue (sound spec rfl)
    have present : Datum.ofValue spec.toValue ≠ .null := by
      intro null
      have stands := Datum.toValue?_ofValue (sound spec rfl).fits
      rw [null] at stands
      exact (sound spec rfl).present (Option.some.inj stands).symm
    show entryOf? (.text name, .ofValue spec.toValue) = _
    generalize Datum.ofValue spec.toValue = datum at read present
    cases datum with
    | null => exact absurd rfl present
    | _ => simp [entryOf?, Datum.text?, read]

/-- **Sound fields** are read back. -/
theorem ofDatum?_ofValue {depth : Nat} {list : FieldList} (sound : list.Sound depth) :
    ofDatum? (.ofValue list.toValue) = some list.renewed := by
  cases list with
  | flag value => rfl
  | name field => rfl
  | names fields =>
    have texts : Datum.texts? (Datum.ofItems (fields.map Value.string)) = some fields := by
      rw [Datum.texts?, Datum.ofItems_eq_map, List.map_map, mapM_eq_some_iff,
        List.forall₂_map_left_iff]
      exact List.forall₂_same.mpr fun _ _ => rfl
    show (Datum.texts? _).map names = _
    rw [texts]
    rfl
  | constrained fields =>
    obtain ⟨sorted, each⟩ := sound.constraints fields rfl
    have read : (Datum.ofFields (fields.mapValues fun spec =>
        (spec.map ConstraintSpec.toValue).getD .null)).mapM entryOf? =
          some (fields.mapValues fun spec => spec.map ConstraintSpec.renewed) := by
      rw [Datum.ofFields_eq_map, mapM_eq_some_iff, Fields.mapValues, Fields.mapValues, List.map_map,
        List.forall₂_map_left_iff, List.forall₂_map_right_iff]
      exact List.forall₂_same.mpr fun entry mem => entryOf?_ofValue entry.1 (each entry mem)
    show ((Datum.ofFields _).mapM entryOf?).map _ = _
    rw [read, Option.map_some, Fields.ofList_of_sorted (Fields.sorted_mapValues _ sorted)]
    rfl

/-- A constraint that is read is sound. -/
theorem sound_of_entryOf? {depth : Nat} {pair : Datum × Datum}
    {entry : String × Option ConstraintSpec} (fits : pair.2.Fits depth)
    (finite : pair.2.isFinite = true) (read : entryOf? pair = some entry) :
    ∀ spec ∈ entry.2, ConstraintSpec.Sound depth spec := by
  obtain ⟨key, datum⟩ := pair
  obtain ⟨name, -, read⟩ := Option.bind_eq_some_iff.mp read
  dsimp only at read fits finite
  split at read
  · cases read
    exact nofun
  · next present =>
    obtain ⟨spec, is, same⟩ := Option.bind_eq_some_iff.mp read
    cases same
    rintro _ ⟨⟩
    exact ConstraintSpec.sound_of_ofDatum? fits finite present is

/-- **Fields that are read** are sound. -/
theorem sound_of_ofDatum? {depth : Nat} {datum : Datum} (fits : datum.Fits depth)
    (finite : datum.isFinite = true) {list : FieldList} (read : ofDatum? datum = some list) :
    list.Sound depth := by
  cases datum with
  | bool value =>
    cases read
    exact ⟨Value.fits_bool depth value, nofun⟩
  | text field =>
    cases read
    exact ⟨Value.fits_string depth field, nofun⟩
  | list items =>
    obtain ⟨fields, -, rfl⟩ := Option.map_eq_some_iff.mp read
    cases depth with
    | zero => exact fits.elim
    | succ depth =>
      refine ⟨?_, nofun⟩
      show ∀ item ∈ fields.map Value.string, item.Fits depth
      exact List.forall_mem_map.mpr fun field _ => Value.fits_string depth field
  | entries pairs =>
    obtain ⟨named, each, rfl⟩ := Option.map_eq_some_iff.mp read
    cases depth with
    | zero => exact fits.elim
    | succ depth =>
      have within : ∀ pair ∈ pairs, pair.1.Fits depth ∧ pair.2.Fits depth := fits
      have sorted := Fields.sorted_ofList named
      have sound : ∀ entry ∈ Fields.ofList named, ∀ spec ∈ entry.2,
          ConstraintSpec.Sound depth spec := by
        intro entry mem
        obtain ⟨pair, among, is⟩ :=
          exists_of_mem_right (mapM_eq_some_iff.mp each) (Fields.mem_of_mem_ofList mem)
        exact sound_of_entryOf? (within pair among).2
          (Datum.isFinite_of_mem_entries finite among) is
      refine ⟨⟨Fields.sorted_mapValues _ sorted, List.forall_mem_map.mpr fun entry mem => ?_⟩, ?_⟩
      · have demanded := sound entry mem
        generalize entry.2 = demand at demanded ⊢
        cases demand with
        | none => exact Value.fits_null depth
        | some spec => exact (demanded spec rfl).fits
      · rintro fields ⟨⟩
        exact ⟨sorted, sound⟩
  | _ => cases read

/-- Sound fields are sound with more levels left. -/
theorem Sound.mono {depth deeper : Nat} {list : FieldList} (sound : list.Sound depth)
    (within : depth ≤ deeper) : list.Sound deeper := by
  refine ⟨sound.fits.mono within, fun fields is => ?_⟩
  obtain ⟨sorted, each⟩ := sound.constraints fields is
  exact ⟨sorted, fun entry mem spec demanded =>
    (each entry mem spec demanded).mono (Nat.sub_le_sub_right within 1)⟩

/-- A constraint of fields that were read is read from what an entry gives. -/
theorem exists_of_mem_constraints {datum : Datum} {list : FieldList}
    (read : ofDatum? datum = some list) {spec : ConstraintSpec} (mem : spec ∈ list.constraints) :
    ∃ pairs, datum = .entries pairs ∧
      ∃ entry ∈ pairs, ConstraintSpec.ofDatum? entry.2 = some spec := by
  cases datum with
  | entries pairs =>
    obtain ⟨named, each, rfl⟩ := Option.map_eq_some_iff.mp read
    obtain ⟨entry, among, demanded⟩ := List.mem_filterMap.mp mem
    obtain ⟨⟨key, part⟩, inside, is⟩ :=
      exists_of_mem_right (mapM_eq_some_iff.mp each) (Fields.mem_of_mem_ofList among)
    refine ⟨pairs, rfl, (key, part), inside, ?_⟩
    obtain ⟨name, -, given⟩ := Option.bind_eq_some_iff.mp is
    dsimp only at given ⊢
    split at given
    · cases given
      cases demanded
    · obtain ⟨stood, reads, same⟩ := Option.bind_eq_some_iff.mp given
      cases same
      cases demanded
      exact reads
  | list items =>
    obtain ⟨_, -, rfl⟩ := Option.map_eq_some_iff.mp read
    cases mem
  | bool => cases read; cases mem
  | text => cases read; cases mem
  | _ => cases read

end FieldList

/-! ## Scopes -/

namespace ScopeSpec

/-- **Written scopes** are read back. -/
theorem ofDatum?_ofValue {depth : Nat} {spec : ScopeSpec} (fits : spec.toValue.Fits depth) :
    ofDatum? (.ofValue spec.toValue) = some spec := by
  cases spec with
  | nothing => rfl
  | owner column => rfl
  | matching values =>
    cases depth with
    | zero => exact fits.elim
    | succ depth =>
      have inside : Value.Fits depth (.object values) := fits.2 _ List.mem_cons_self
      have read : valuesOf? (.ofValue (.object values)) = some values := by
        show (Datum.ofValue (.object values)).toValue?.bind Value.fields? = _
        rw [Datum.toValue?_ofValue inside]
        rfl
      show ((some (Datum.ofValue (.object values))).bind valuesOf?).map matching = _
      rw [Option.bind_some, read]
      rfl

/-- A single part of a record fits one level further in. -/
theorem fits_of_singlePart? {depth : Nat} {datum part : Datum} {name : String}
    (fits : datum.Fits depth) (single : singlePart? name datum = some part) :
    ∃ inner, depth = inner + 1 ∧ part.Fits inner := by
  cases datum with
  | entries pairs =>
    cases depth with
    | zero => exact fits.elim
    | succ depth =>
      have each : ∀ entry ∈ pairs, entry.1.Fits depth ∧ entry.2.Fits depth := fits
      have mem : part ∈ Datum.under [name] name pairs := by
        rw [(Datum.singlePart?_eq_some_iff.mp single).only]
        exact List.mem_singleton_self part
      obtain ⟨entry, among, rfl⟩ := List.mem_map.mp mem
      exact ⟨depth, rfl, (each entry (List.mem_filter.mp among).1).2⟩
  | _ => cases single

/-- **Scopes that are read** fit a document again. -/
theorem fits_of_ofDatum? {depth : Nat} {datum : Datum} (fits : datum.Fits depth)
    {spec : ScopeSpec} (read : ofDatum? datum = some spec) : spec.toValue.Fits depth := by
  unfold ofDatum? at read
  split at read
  · cases read
    exact Value.fits_string depth nothingWord
  · split at read
    · next column owned =>
      cases read
      obtain ⟨part, is, -⟩ := Option.bind_eq_some_iff.mp owned
      obtain ⟨inner, rfl, -⟩ := fits_of_singlePart? fits is
      exact Value.fits_single "owner" (Value.fits_string inner column)
    · obtain ⟨values, valued, rfl⟩ := Option.map_eq_some_iff.mp read
      obtain ⟨part, is, valued⟩ := Option.bind_eq_some_iff.mp valued
      obtain ⟨inner, rfl, inside⟩ := fits_of_singlePart? fits is
      refine Value.fits_single "where" ?_
      cases part with
      | entries pairs =>
        obtain ⟨value, stands, fields⟩ := Option.bind_eq_some_iff.mp valued
        cases value with
        | object fields =>
          cases fields
          exact inside.value stands
        | _ => cases fields
      | _ => cases valued

end ScopeSpec

/-! ## Rules that were read -/

/-- A requirement that is read from a name has this name. -/
theorem RoleRequirement.name_ofName (name : String) : (ofName name).name = name := by
  unfold ofName
  split <;> rfl

namespace RawRule

/-- A rule as it stands **fits** a document of its depth. -/
structure Fits (depth : Nat) (raw : RawRule) : Prop where
  /-- The requirements are read from their names. -/
  roles : ∀ role ∈ raw.roles, RoleRequirement.ofName role.name = role
  /-- What is given as granted is in order and fits. -/
  can : raw.can.Sorted ∧ ∀ given ∈ raw.can, given.2.Fits (depth - 1)
  /-- So is what is given as withdrawn. -/
  cannot : raw.cannot.Sorted ∧ ∀ given ∈ raw.cannot, given.2.Fits (depth - 1)
  /-- What is given as the scope fits. -/
  scope : ∀ datum ∈ raw.scope, datum.Fits depth

/-- Rules fit as they are read. -/
theorem ensures_fits (depth : Nat) (node : Node) : (ofNode depth node).Ensures (Fits depth) := by
  have grants (node : Node) : (Node.fields (Datum.ofNode (depth - 1)) node).Ensures
      fun given => given.Sorted ∧ ∀ entry ∈ given, entry.2.Fits (depth - 1) :=
    Node.ensures_fields (Datum.ensures_fits (depth - 1)) node
  have roles (node : Node) : (PolicyRule.rolesOf node).Ensures
      fun roles => ∀ role ∈ roles, RoleRequirement.ofName role.name = role :=
    (Reading.ensures_true _).bind fun _ _ => (Reading.ensures_true _).bind fun names _ =>
      Reading.ensures_pure (List.forall_mem_map.mpr fun name _ =>
        congrArg RoleRequirement.ofName (RoleRequirement.name_ofName name))
  refine (Reading.ensures_true _).bind fun record _ => ?_
  refine (Node.ensures_part record "roles" nofun roles).bind fun _ named => ?_
  refine (Node.ensures_part record "can" ⟨Fields.sorted_nil, nofun⟩ grants).bind fun _ granted => ?_
  refine (Node.ensures_part record "cannot" ⟨Fields.sorted_nil, nofun⟩ grants).bind
    fun _ withdrawn => ?_
  refine (Node.ensures_part record "scope" nofun
    (Node.ensures_optional (Datum.ensures_fits depth))).bind fun _ confined => ?_
  exact Reading.ensures_pure ⟨named, granted, withdrawn, confined⟩

/-- Whether every binary64 value in what a rule gives for actions is finite. The scope makes no
difference: there a value that is not finite is null from the start. -/
def isFinite (raw : RawRule) : Bool := (raw.can ++ raw.cannot).all fun given => given.2.isFinite

/-- The records that a rule gives as constraints. -/
def records (raw : RawRule) : List (List (Datum × Datum)) :=
  (raw.can ++ raw.cannot).flatMap fun given =>
    (given.2.entries?.getD []).filterMap fun entry => entry.2.entries?

end RawRule

namespace PolicyRule

/-- **What a written rule comes back as.** -/
def renewed (rule : PolicyRule) : PolicyRule :=
  { rule with
    can := rule.can.mapValues FieldList.renewed
    cannot := rule.cannot.mapValues FieldList.renewed }

/-- The constraints of a rule. -/
def constraints (rule : PolicyRule) : List ConstraintSpec :=
  (rule.can ++ rule.cannot).flatMap fun entry => entry.2.constraints

/-- **Rules come back as they were** iff none of their constraints is captured. -/
theorem renewed_eq_self_iff (rule : PolicyRule) :
    rule.renewed = rule ↔ ∀ fields, .literal (.object fields) ∈ rule.constraints →
      ¬ ConstraintSpec.Captures fields := by
  have parts : rule.renewed = rule ↔ ∀ spec ∈ rule.constraints, spec.renewed = spec := by
    obtain ⟨roles, can, cannot, scope⟩ := rule
    simp only [renewed, constraints, PolicyRule.mk.injEq, true_and, and_true,
      Fields.mapValues_eq_self_iff, FieldList.renewed_eq_self_iff, List.mem_flatMap,
      List.mem_append, forall_exists_index, and_imp, or_imp, forall_and]
    exact ⟨fun kept => ⟨fun spec entry mem => kept.1 entry mem spec,
        fun spec entry mem => kept.2 entry mem spec⟩,
      fun kept => ⟨fun entry mem spec => kept.1 spec entry mem,
        fun entry mem spec => kept.2 spec entry mem⟩⟩
  simp only [parts, ConstraintSpec.renewed_eq_self_iff]
  exact ⟨fun free fields mem => free _ mem fields rfl,
    fun free spec mem fields is => free fields (is ▸ mem)⟩

/-- A rule is **sound** if all its parts can be written and told apart again. -/
structure Sound (depth : Nat) (rule : PolicyRule) : Prop where
  /-- The requirements are read from their names. -/
  roles : ∀ role ∈ rule.roles, RoleRequirement.ofName role.name = role
  /-- Granted fields are in order and sound. -/
  can : rule.can.Sorted ∧ ∀ entry ∈ rule.can, entry.2.Sound (depth - 1)
  /-- So are withdrawn fields. -/
  cannot : rule.cannot.Sorted ∧ ∀ entry ∈ rule.cannot, entry.2.Sound (depth - 1)
  /-- The scope fits a document. -/
  scope : ∀ spec ∈ rule.scope, spec.toValue.Fits depth

/-- Sound rules are sound with more levels left. -/
theorem Sound.mono {depth deeper : Nat} {rule : PolicyRule} (sound : rule.Sound depth)
    (within : depth ≤ deeper) : rule.Sound deeper where
  roles := sound.roles
  can := ⟨sound.can.1,
    fun entry mem => (sound.can.2 entry mem).mono (Nat.sub_le_sub_right within 1)⟩
  cannot := ⟨sound.cannot.1,
    fun entry mem => (sound.cannot.2 entry mem).mono (Nat.sub_le_sub_right within 1)⟩
  scope := fun spec is => (sound.scope spec is).mono within

end PolicyRule

/-- Related maps have the same names. -/
theorem Fields.Related.keys_eq {α β : Type} {related : α → β → Prop} {fields : Fields α}
    {others : Fields β} (each : Related related fields others) : fields.keys = others.keys := by
  rw [Fields.keys, Fields.keys, ← List.forall₂_eq_eq_eq, List.forall₂_map_left_iff,
    List.forall₂_map_right_iff]
  exact each.imp fun _ _ both => both.1

/-- Fields that are read from what is given in order are in order and sound. -/
theorem FieldList.sound_of_related {depth : Nat} {given : Fields Datum} {lists : Fields FieldList}
    (read : Fields.Related (fun datum list => ofDatum? datum = some list) given lists)
    (fits : given.Sorted ∧ ∀ entry ∈ given, entry.2.Fits depth)
    (finite : ∀ entry ∈ given, entry.2.isFinite = true) :
    lists.Sorted ∧ ∀ entry ∈ lists, entry.2.Sound depth := by
  refine ⟨Fields.sorted_of_keys (List.pairwise_map.mpr fits.1) read.keys_eq.symm, ?_⟩
  intro entry mem
  obtain ⟨datum, among, -, is⟩ := exists_of_mem_right read mem
  exact sound_of_ofDatum? (fits.2 datum among) (finite datum among) is

/-- **Rules that are read are sound.** -/
theorem RawRule.Forms.sound {depth : Nat} {raw : RawRule} {rule : PolicyRule}
    (forms : raw.Forms rule) (fits : raw.Fits depth) (finite : raw.isFinite = true) : rule.Sound depth := by
  have each := List.forall_mem_append.mp (List.all_eq_true.mp finite)
  refine ⟨forms.roles ▸ fits.roles, FieldList.sound_of_related forms.can fits.can each.1,
    FieldList.sound_of_related forms.cannot fits.cannot each.2, fun spec is => ?_⟩
  have scope := forms.scope
  have inside := fits.scope
  rw [Option.mem_def.mp is] at scope
  generalize raw.scope = given at scope inside
  cases scope with
  | some read => exact ScopeSpec.fits_of_ofDatum? (inside _ rfl) read

/-- **A constraint of a rule that was read** is captured only if the rule gives a record that
repeats a word. -/
theorem RawRule.Forms.exists_repeating {raw : RawRule} {rule : PolicyRule} (forms : raw.Forms rule)
    (finite : raw.isFinite = true) {fields : FieldValues}
    (mem : .literal (.object fields) ∈ rule.constraints)
    (captures : ConstraintSpec.Captures fields) :
    ∃ pairs ∈ raw.records, Datum.RepeatsWord pairs := by
  obtain ⟨entry, among, demanded⟩ := List.mem_flatMap.mp mem
  have related : Fields.Related (fun datum list => FieldList.ofDatum? datum = some list)
      (raw.can ++ raw.cannot) (rule.can ++ rule.cannot) := List.rel_append forms.can forms.cannot
  obtain ⟨⟨action, given⟩, stands, -, read⟩ := exists_of_mem_right related among
  have givenFinite : given.isFinite = true := List.all_eq_true.mp finite _ stands
  obtain ⟨entries, rfl, part, inside, reads⟩ := FieldList.exists_of_mem_constraints read demanded
  have partFinite : part.2.isFinite = true := Datum.isFinite_of_mem_entries givenFinite inside
  obtain ⟨pairs, is, repeats⟩ := ConstraintSpec.repeatsWord_of_captures partFinite reads captures
  have listed : part.2.entries? = some pairs := by
    rw [is]
    rfl
  have given : pairs ∈ raw.records :=
    List.mem_flatMap.mpr ⟨_, stands, List.mem_filterMap.mpr ⟨part, inside, listed⟩⟩
  exact ⟨pairs, given, repeats⟩

namespace PolicyRule

/-- Written requirements are read back. -/
theorem rolesOf_ofValue {roles : List RoleRequirement}
    (named : ∀ role ∈ roles, RoleRequirement.ofName role.name = role) :
    rolesOf (.ofValue (.array (roles.map fun role => .string role.name))) = pure roles := by
  have names : (Node.ofItems (roles.map fun role => .string role.name)).mapM Node.text =
      (pure (roles.map RoleRequirement.name) : Reading _) := by
    clear named
    induction roles with
    | nil => rfl
    | cons role rest ih =>
      rw [List.map_cons, Node.ofItems, List.mapM_cons, ih]
      rfl
  have same : (roles.map RoleRequirement.name).map RoleRequirement.ofName = roles := by
    rw [List.map_map]
    exact (List.map_congr_left named).trans (List.map_id roles)
  rw [rolesOf, Node.ofValue, Node.items, Node.target_sequence, pure_bind]
  dsimp only
  rw [pure_bind, names, pure_bind, same]

/-- Written fields are read back, action by action. -/
theorem fields_ofValue {depth : Nat} {lists : Fields FieldList}
    (sound : lists.Sorted ∧ ∀ entry ∈ lists, entry.2.Sound depth) :
    Node.fields (fieldsOf depth) (.ofValue (.object (lists.mapValues FieldList.toValue))) =
      pure (lists.mapValues FieldList.renewed) := by
  have each : ∀ entry ∈ lists,
      fieldsOf depth (.ofValue entry.2.toValue) = pure entry.2.renewed := by
    intro entry mem
    have fields := sound.2 entry mem
    rw [fieldsOf, Datum.ofNode_ofValue fields.fits, pure_bind, FieldList.ofDatum?_ofValue fields]
    rfl
  rw [Node.fields_ofValue FieldList.renewed each,
    Fields.ofList_of_sorted (Fields.sorted_mapValues _ sound.1)]

/-- A written scope is read back. -/
theorem optional_scopeOf_ofValue {depth : Nat} {spec : ScopeSpec} (fits : spec.toValue.Fits depth) :
    Node.optional (scopeOf depth) (.ofValue spec.toValue) = pure (some spec) := by
  have target : (Node.ofValue spec.toValue).target = pure (Node.ofValue spec.toValue) := by
    cases spec <;> rfl
  have present : (Node.ofValue spec.toValue).isAbsent = false := by cases spec <;> rfl
  rw [Node.optional, target, pure_bind, present, if_neg Bool.false_ne_true, scopeOf,
    Datum.ofNode_ofValue fits, pure_bind, ScopeSpec.ofDatum?_ofValue fits]
  rfl

/-- The parts of a written rule. -/
theorem record_toValue (rule : PolicyRule) :
    (Node.ofValue rule.toValue).record parts =
      pure ([("can", .ofValue (.object (rule.can.mapValues FieldList.toValue))),
        ("cannot", .ofValue (.object (rule.cannot.mapValues FieldList.toValue))),
        ("roles", .ofValue (.array (rule.roles.map fun role => .string role.name)))] ++
          (rule.scope.map fun spec => ("scope", Node.ofValue spec.toValue)).toList) := by
  obtain ⟨roles, can, cannot, scope⟩ := rule
  cases scope with
  | none =>
    exact Node.record_ofValue parts
      (Fields.sorted_of_keys (by decide : ["can", "cannot", "roles"].Pairwise (· < ·)) rfl)
  | some spec =>
    exact Node.record_ofValue parts
      (Fields.sorted_of_keys (by decide : ["can", "cannot", "roles", "scope"].Pairwise (· < ·)) rfl)

/-- **Sound rules** are read back, but for constraints that are captured. -/
theorem ofNode_ofValue {depth : Nat} {rule : PolicyRule} (sound : rule.Sound depth) :
    ofNode depth (.ofValue rule.toValue) = pure rule.renewed := by
  have roles := rolesOf_ofValue sound.roles
  have can := fields_ofValue sound.can
  have cannot := fields_ofValue sound.cannot
  rw [ofNode, record_toValue, pure_bind]
  cases confined : rule.scope with
  | none =>
    show (rolesOf _ >>= fun roles => Node.fields _ _ >>= fun can => Node.fields _ _ >>=
      fun cannot => pure none >>= fun scope => pure _) = _
    rw [roles, pure_bind, can, pure_bind, cannot, pure_bind, pure_bind, ← confined]
    rfl
  | some spec =>
    have scope := optional_scopeOf_ofValue (sound.scope spec confined)
    show (rolesOf _ >>= fun roles => Node.fields _ _ >>= fun can => Node.fields _ _ >>=
      fun cannot => Node.optional _ _ >>= fun scope => pure _) = _
    rw [roles, pure_bind, can, pure_bind, cannot, pure_bind, scope, pure_bind, ← confined]
    rfl

/-- **Rules that were read come back from writing.** If every binary64 value in what a rule gives
for its actions is finite, the rule is written and read again, with as many levels or more, and what
may have changed are records among its constraints that are captured. So it comes back as it was iff
there are none, and there are none if no record that it gave as a constraint repeats a word. -/
theorem returns_unless_captured {depth : Nat} {node : Node} {document : Document}
    {followed left : Nat} {rule : PolicyRule}
    (read : ofNode depth node document followed = some (rule, left)) :
    ∃ raw, RawRule.ofNode depth node document followed = some (raw, left) ∧ raw.Forms rule ∧
      (raw.isFinite = true →
        (∀ deeper, depth ≤ deeper → ofNode deeper (.ofValue rule.toValue) = pure rule.renewed) ∧
        (rule.renewed = rule ↔ ∀ fields, .literal (.object fields) ∈ rule.constraints →
          ¬ ConstraintSpec.Captures fields) ∧
        ((∀ pairs ∈ raw.records, ¬ Datum.RepeatsWord pairs) → rule.renewed = rule)) := by
  obtain ⟨raw, stands, forms⟩ := RawRule.refines_ofNode depth node document followed rule left read
  have fits : raw.Fits depth := RawRule.ensures_fits depth node document followed raw left stands
  refine ⟨raw, stands, forms, fun finite => ?_⟩
  have sound : rule.Sound depth := forms.sound fits finite
  refine ⟨fun deeper within => ofNode_ofValue (sound.mono within), renewed_eq_self_iff rule, ?_⟩
  intro unrepeated
  rw [renewed_eq_self_iff]
  intro fields mem captures
  obtain ⟨pairs, given, repeats⟩ := forms.exists_repeating finite mem captures
  exact unrepeated pairs given repeats

set_option maxRecDepth 4096 in
/-- A rule with limits, with a list of values and with a scope comes back. -/
theorem returns_unless_captured_limits :
    let rule : PolicyRule :=
      { can := [("create", .constrained [
          ("kind", some (.literal (.array [.string "a", .string "b", .string "c"]))),
          ("title", some (.range { min := some (.string "a") }))])]
        scope := some (.owner "author") }
    ∃ document left,
      Document.ofText? "{can: {create: {kind: [a, b, c], title: {min: a}}}, scope: {owner: author}}" =
        some document ∧
      ofNode (maxDepth - 1) document.root document 0 = some (rule, left) ∧
      ofNode (maxDepth - 1) (.ofValue rule.toValue) = pure rule := by
  intro rule
  let word (text : String) : Node := .scalar text true
  let kind : Node := .sequence [word "a", word "b", word "c"]
  let title : Node := .mapping [(word "min", word "a")]
  let create : Node := .mapping [(word "kind", kind), (word "title", title)]
  let root : Node := .mapping [(word "can", .mapping [(word "create", create)]),
    (word "scope", .mapping [(word "owner", word "author")])]
  let document : Document := { root, anchors := {}, reach := 2400 }
  have parsed : Document.ofText?
      "{can: {create: {kind: [a, b, c], title: {min: a}}}, scope: {owner: author}}" =
        some document := by cbv
  have read : ofNode (maxDepth - 1) root document 0 = some (rule, 0) := by rfl
  obtain ⟨raw, stands, -, returns⟩ := returns_unless_captured read
  let given : RawRule :=
    { roles := [], cannot := [], scope := some (.entries [(.text "owner", .text "author")])
      can := [("create", .entries [(.text "kind", .list [.text "a", .text "b", .text "c"]),
        (.text "title", .entries [(.text "min", .text "a")])])] }
  have known : RawRule.ofNode (maxDepth - 1) root document 0 = some (given, 0) := by rfl
  obtain rfl : raw = given := congrArg Prod.fst (Option.some.inj (stands.symm.trans known))
  obtain ⟨again, kept, -⟩ := returns rfl
  have free : ∀ fields, .literal (.object fields) ∈ rule.constraints →
      ¬ ConstraintSpec.Captures fields := by
    intro fields mem
    simp [rule, constraints, FieldList.constraints] at mem
  exact ⟨document, 0, parsed, read, (again _ le_rfl).trans (congrArg pure (kept.mpr free))⟩

/-- Limits that give one limit twice are read as a record of values, with the last limit; it is
captured once it is written, and comes back as limits. -/
theorem captures_repeated_limit :
    let limit : Value := .number (.int 1)
    let rule : PolicyRule :=
      { can := [("create", .constrained [("title", some (.literal (.object [("min", limit)])))])] }
    let again : PolicyRule :=
      { can := [("create", .constrained [("title", some (.range { min := some limit }))])] }
    (Document.ofText? "{can: {create: {title: {min: 0, min: 1}}}}").bind
        (·.read? (ofNode (maxDepth - 1))) = some rule ∧
      (Document.ofValue rule.toValue).read? (ofNode (maxDepth - 1)) = some again ∧
      again ≠ rule := by
  intro limit rule again
  let word (text : String) : Node := .scalar text true
  let title : Node := .mapping [(word "min", word "0"), (word "min", word "1")]
  let root : Node := .mapping [(word "can", .mapping [(word "create",
    .mapping [(word "title", title)])])]
  have parsed : Document.ofText? "{can: {create: {title: {min: 0, min: 1}}}}" =
      some { root, anchors := {}, reach := 1500 } := by cbv
  refine ⟨?_, by rfl, fun same => ?_⟩
  · rw [parsed]
    rfl
  · simp [rule, again] at same

end PolicyRule

end Warden
