import Mathlib.Data.Option.Basic
import Mathlib.Order.MinMax
import Warden.Sql.Select
/-! # What a query demands
The conditions of a query are joined by `AND`, so that it **demands** each of them. A condition is
not added twice: one that is there already, up to equality of form, is demanded without being
repeated (`Sql.Select.Demands`). Demands are never given up when conditions are added
(`Sql.Select.Demands.mono`), and what a condition means for a row (`Sql.Condition.Holds`) does not
tell conditions of the same form apart, so that the rows of a query meet everything that was ever
demanded (`Sql.Select.Demands.holds`).

In the text of a query the same conditions stand between the `AND`s of the outermost level, those
that are joined by `OR` in parentheses (`Sql.Condition.render_allOf`). -/

namespace Warden

namespace Sql

namespace Condition

/-! ## Meaning -/

/-- Whether a condition **holds** of a row of which it is known which single tests it passes. -/
def Holds (passes : Condition → Prop) : Condition → Prop
  | .never => False
  | .always => True
  | .both left right => left.Holds passes ∧ right.Holds passes
  | .either left right => left.Holds passes ∨ right.Holds passes
  | test => passes test

/-- All conditions together hold iff each of them does. -/
theorem holds_allOf {passes : Condition → Prop} {conditions : List Condition} :
    (allOf conditions).Holds passes ↔ ∀ condition ∈ conditions, condition.Holds passes := by
  cases conditions with
  | nil => exact ⟨fun _ => nofun, fun _ => trivial⟩
  | cons first rest =>
    rw [allOf, List.forall_mem_cons]
    induction rest generalizing first with
    | nil => exact ⟨fun holds => ⟨holds, nofun⟩, And.left⟩
    | cons second rest ih =>
      rw [List.foldl_cons, ih, List.forall_mem_cons, ← and_assoc]
      rfl

/-- One of several conditions holds iff there is one that does. -/
theorem holds_anyOf {passes : Condition → Prop} {conditions : List Condition} :
    (anyOf conditions).Holds passes ↔ ∃ condition ∈ conditions, condition.Holds passes := by
  cases conditions with
  | nil => exact ⟨False.elim, fun ⟨_, mem, _⟩ => nomatch mem⟩
  | cons first rest =>
    simp only [anyOf, List.mem_cons, exists_eq_or_imp]
    induction rest generalizing first with
    | nil => exact ⟨.inl, fun holds => holds.resolve_right fun ⟨_, mem, _⟩ => nomatch mem⟩
    | cons second rest ih =>
      simp only [List.foldl_cons, ih, List.mem_cons, exists_eq_or_imp, ← or_assoc]
      rfl

/-- Whether tests of the same form come out the same. -/
def Uniform (passes : Condition → Prop) : Prop :=
  ∀ one other : Condition, one.same other = true → (passes one ↔ passes other)

/-- Conditions of the same form hold of the same rows. -/
theorem holds_of_same {passes : Condition → Prop} (uniform : Uniform passes)
    {one other : Condition} (same : one.same other = true) :
    one.Holds passes ↔ other.Holds passes := by
  induction one generalizing other with
  | both left right ihLeft ihRight =>
    cases other with
    | both left' right' =>
      obtain ⟨first, second⟩ := Bool.and_eq_true_iff.mp same
      exact and_congr (ihLeft first) (ihRight second)
    | _ => cases same
  | either left right ihLeft ihRight =>
    cases other with
    | either left' right' =>
      obtain ⟨first, second⟩ := Bool.and_eq_true_iff.mp same
      exact or_congr (ihLeft first) (ihRight second)
    | _ => cases same
  | never =>
    cases other with
    | never => exact Iff.rfl
    | _ => cases same
  | always =>
    cases other with
    | always => exact Iff.rfl
    | _ => cases same
  -- What is left are single tests, which have the form of single tests of the same kind only.
  | _ => cases other <;> first | cases same | exact uniform _ _ same

/-- Nothing but the condition without rows has its form. -/
theorem same_never {condition : Condition} (same : condition.same .never = true) :
    condition = .never := by
  cases condition <;> first | rfl | cases same

/-! ## Text -/

/-- The texts between the `AND`s, in which conditions joined by `OR` stand in parentheses. -/
def conjuncts : List Condition → List String
  | [] => []
  | [condition] => [condition.render]
  | first :: rest =>
    render.conjunct first true first.render ::
      rest.map fun condition => render.conjunct condition false condition.render

/-- Joining two conditions first makes no difference to the text. -/
theorem intercalate_conjuncts_both (first second : Condition) (rest : List Condition) :
    " AND ".intercalate (conjuncts (.both first second :: rest)) =
      " AND ".intercalate (conjuncts (first :: second :: rest)) := by
  have joined : (both first second).render = render.conjunct first true first.render ++
      " AND " ++ render.conjunct second false second.render := rfl
  cases rest with
  | nil =>
    rw [conjuncts, conjuncts, List.map_singleton, String.intercalate_singleton,
      String.intercalate_cons_cons, String.intercalate_singleton, joined]
    exact nofun
  | cons third more =>
    show " AND ".intercalate ((both first second).render :: List.map _ (third :: more)) =
      " AND ".intercalate (_ :: _ :: List.map _ (third :: more))
    rw [joined, String.intercalate_cons_append, String.intercalate_cons_cons]

/-- **The text of conditions together** joins the texts of each by `AND`. -/
theorem render_allOf {conditions : List Condition} (demanding : conditions ≠ []) :
    (allOf conditions).render = " AND ".intercalate (conjuncts conditions) := by
  cases conditions with
  | nil => exact absurd rfl demanding
  | cons first rest =>
    rw [allOf]
    induction rest generalizing first with
    | nil => exact (String.intercalate_singleton).symm
    | cons second rest ih =>
      rw [List.foldl_cons, ih _ (List.cons_ne_nil _ _), intercalate_conjuncts_both]

end Condition

namespace Select

variable {query other : Select} {condition : Condition} {conditions : List Condition}

/-! ## Demands -/

/-- A query **demands** a condition if it has it, or one of the same form. -/
def Demands (query : Select) (condition : Condition) : Prop :=
  condition ∈ query.conditions ∨ query.hasCondition condition = true

/-- A query demands the condition without rows only if it has it. -/
theorem never_mem (demands : query.Demands .never) : .never ∈ query.conditions := by
  rcases demands with mem | known
  · exact mem
  · obtain ⟨one, mem, same⟩ := List.any_eq_true.mp known
    exact Condition.same_never same ▸ mem

/-- Demands stay where conditions are added. -/
theorem Demands.mono (demands : query.Demands condition)
    (kept : query.conditions <+: other.conditions) : other.Demands condition := by
  rcases demands with mem | known
  · exact .inl (kept.subset mem)
  · obtain ⟨one, mem, same⟩ := List.any_eq_true.mp known
    exact .inr (List.any_eq_true.mpr ⟨one, kept.subset mem, same⟩)

/-- A demanded condition holds where all conditions do. -/
theorem Demands.holds {passes : Condition → Prop} (uniform : Condition.Uniform passes)
    (demands : query.Demands condition)
    (all : ∀ known ∈ query.conditions, known.Holds passes) : condition.Holds passes := by
  rcases demands with mem | known
  · exact all condition mem
  · obtain ⟨one, mem, same⟩ := List.any_eq_true.mp known
    exact (Condition.holds_of_same uniform same).mp (all one mem)

/-! ## Adding conditions -/

/-- A condition is added at the end, if at all. -/
theorem conditions_satisfying (query : Select) (condition : Condition) :
    (query.satisfying condition).conditions =
      query.conditions ++ if query.hasCondition condition then [] else [condition] := by
  rw [satisfying]
  split
  · exact (List.append_nil _).symm
  · rfl

/-- An added condition is demanded. -/
theorem demands_satisfying (query : Select) (condition : Condition) :
    (query.satisfying condition).Demands condition := by
  rw [satisfying]
  split
  · next known => exact .inr known
  · exact .inl (List.mem_append_right _ List.mem_cons_self)

/-- Adding conditions keeps those that were there, in front. -/
theorem prefix_satisfyingAll (query : Select) (conditions : List Condition) :
    query.conditions <+: (query.satisfyingAll conditions).conditions := by
  induction conditions generalizing query with
  | nil => exact List.prefix_rfl
  | cons first rest ih =>
    refine List.IsPrefix.trans ?_ (ih (query.satisfying first))
    rw [conditions_satisfying]
    exact List.prefix_append _ _

/-- All added conditions are demanded. -/
theorem demands_satisfyingAll (query : Select) (mem : condition ∈ conditions) :
    (query.satisfyingAll conditions).Demands condition := by
  induction conditions generalizing query with
  | nil => cases mem
  | cons first rest ih =>
    rcases List.mem_cons.mp mem with rfl | later
    · exact (query.demands_satisfying condition).mono (prefix_satisfyingAll _ rest)
    · exact ih (query.satisfying first) later

/-- Nothing else is added. -/
theorem mem_satisfyingAll (mem : condition ∈ (query.satisfyingAll conditions).conditions) :
    condition ∈ query.conditions ∨ condition ∈ conditions := by
  induction conditions generalizing query with
  | nil => exact .inl mem
  | cons first rest ih =>
    rcases ih mem with before | later
    · rw [conditions_satisfying, List.mem_append] at before
      rcases before with before | added
      · exact .inl before
      · split at added
        · cases added
        · exact .inr (List.mem_singleton.mp added ▸ List.mem_cons_self)
    · exact .inr (List.mem_cons_of_mem first later)

/-- Adding conditions changes nothing else. -/
theorem frame_satisfyingAll (query : Select) (conditions : List Condition) :
    (query.satisfyingAll conditions).table = query.table ∧
      (query.satisfyingAll conditions).columns = query.columns ∧
      (query.satisfyingAll conditions).limit = query.limit := by
  induction conditions generalizing query with
  | nil => exact ⟨rfl, rfl, rfl⟩
  | cons first rest ih =>
    obtain ⟨table, columns, limit⟩ := ih (query.satisfying first)
    have same : (query.satisfying first).table = query.table ∧
        (query.satisfying first).columns = query.columns ∧
        (query.satisfying first).limit = query.limit := by
      rw [satisfying]
      split <;> exact ⟨rfl, rfl, rfl⟩
    exact ⟨table.trans same.1, columns.trans same.2.1, limit.trans same.2.2⟩

/-- It does not matter when columns are chosen. -/
theorem satisfyingAll_withColumns (query : Select) (columns : List String)
    (conditions : List Condition) :
    (query.withColumns columns).satisfyingAll conditions =
      (query.satisfyingAll conditions).withColumns columns := by
  induction conditions generalizing query with
  | nil => rfl
  | cons first rest ih =>
    have one : (query.withColumns columns).satisfying first =
        (query.satisfying first).withColumns columns := by
      rw [satisfying, satisfying]
      split
      · next known => exact (if_pos known).symm ▸ rfl
      · next unknown => exact (if_neg unknown).symm ▸ rfl
    show ((query.withColumns columns).satisfying first).satisfyingAll rest = _
    rw [one, ih]
    rfl

/-! ## Limits -/

/-- Of two limits the smaller one holds. -/
theorem limit_withinLimit (query : Select) (limit : Option Nat) :
    (query.withinLimit limit).limit = query.limit.merge min limit := by
  cases limit with
  | none => exact Option.merge_none_right.symm
  | some limit =>
    show some _ = _
    cases query.limit <;> rfl

/-- A limit only concerns the number of rows. -/
theorem conditions_withinLimit (query : Select) (limit : Option Nat) :
    (query.withinLimit limit).conditions = query.conditions := by
  cases limit <;> rfl

@[simp] theorem table_withinLimit (query : Select) (limit : Option Nat) :
    (query.withinLimit limit).table = query.table := by
  cases limit <;> rfl

/-- The smaller one of two limits is no larger than either. -/
theorem merge_min_le {one other : Option Nat} {bound : Nat}
    (limited : one = some bound ∨ other = some bound) :
    ∃ least ≤ bound, one.merge min other = some least := by
  rcases limited with rfl | rfl
  · cases other with
    | none => exact ⟨bound, le_refl bound, rfl⟩
    | some limit => exact ⟨min bound limit, min_le_left bound limit, rfl⟩
  · cases one with
    | none => exact ⟨bound, le_refl bound, rfl⟩
    | some limit => exact ⟨min limit bound, min_le_right limit bound, rfl⟩

/-! ## Narrowings -/

/-- One way to narrow a query. -/
inductive Narrowing where
  /-- A column has a value. -/
  | hasValue (column : String) (value : Value)
  /-- A column has one of several values. -/
  | hasAnyValue (column : String) (values : List Value)
  /-- There are at most so many rows. -/
  | atMost (limit : Nat)
  /-- No row is meant. -/
  | nothing

namespace Narrowing

/-- Narrow a query. -/
def apply (query : Select) : Narrowing → Select
  | .hasValue column value => Query.filterEq query column value
  | .hasAnyValue column values => Query.filterIn query column values
  | .atMost limit => query.atMost limit
  | .nothing => Query.none query

/-- The condition that a narrowing puts on the rows of a table, unless it limits their number. -/
def condition? (table : String) : Narrowing → Option Condition
  | .hasValue column value => some (.hasValue ⟨table, column⟩ value)
  | .hasAnyValue column values => some (.hasAnyValue ⟨table, column⟩ values)
  | .atMost _ => .none
  | .nothing => some .never

/-- The number of rows that a narrowing allows, if it limits it. -/
def limit? : Narrowing → Option Nat
  | .atMost limit => some limit
  | _ => .none

/-- A narrowing demands its condition, or takes its limit over. -/
theorem apply_eq (query : Select) (narrowing : Narrowing) :
    narrowing.apply query =
      (query.satisfyingAll (narrowing.condition? query.table).toList).withinLimit
        narrowing.limit? := by
  cases narrowing <;> rfl

end Narrowing

/-- Narrow a query by each narrowing in turn. -/
def narrowBy (query : Select) (narrowings : List Narrowing) : Select :=
  narrowings.foldl Narrowing.apply query

/-- A narrowing keeps the table and the conditions that were there. -/
theorem kept_apply (query : Select) (narrowing : Narrowing) :
    (narrowing.apply query).table = query.table ∧
      query.conditions <+: (narrowing.apply query).conditions := by
  rw [Narrowing.apply_eq, conditions_withinLimit, table_withinLimit]
  exact ⟨(query.frame_satisfyingAll _).1, query.prefix_satisfyingAll _⟩

/-- Of the limits of a query and a narrowing the smaller one holds. -/
theorem limit_apply (query : Select) (narrowing : Narrowing) :
    (narrowing.apply query).limit = query.limit.merge min narrowing.limit? := by
  rw [Narrowing.apply_eq, limit_withinLimit, (query.frame_satisfyingAll _).2.2]

/-- Narrowings keep the conditions that were there, and exceed no limit. -/
theorem kept_narrowBy (query : Select) (narrowings : List Narrowing) :
    query.conditions <+: (query.narrowBy narrowings).conditions ∧
      ∀ bound, query.limit = some bound →
        ∃ least ≤ bound, (query.narrowBy narrowings).limit = some least := by
  induction narrowings generalizing query with
  | nil => exact ⟨List.prefix_rfl, fun bound limited => ⟨bound, le_refl bound, limited⟩⟩
  | cons first rest ih =>
    obtain ⟨kept, within⟩ := ih (first.apply query)
    refine ⟨(query.kept_apply first).2.trans kept, fun bound limited => ?_⟩
    obtain ⟨between, le, merged⟩ : ∃ least ≤ bound,
      query.limit.merge min first.limit? = some least := merge_min_le (.inl limited)
    obtain ⟨least, le', limited⟩ := within between ((query.limit_apply _).trans merged)
    exact ⟨least, le'.trans le, limited⟩

/-- **A narrowed query demands** the condition of every narrowing, and exceeds no limit of any. -/
theorem demands_narrowBy (query : Select) {narrowings : List Narrowing} {narrowing : Narrowing}
    (mem : narrowing ∈ narrowings) :
    (∀ condition, narrowing.condition? query.table = some condition →
        (query.narrowBy narrowings).Demands condition) ∧
      ∀ bound, narrowing.limit? = some bound →
        ∃ least ≤ bound, (query.narrowBy narrowings).limit = some least := by
  induction narrowings generalizing query with
  | nil => cases mem
  | cons first rest ih =>
    rcases List.mem_cons.mp mem with rfl | later
    · obtain ⟨kept, within⟩ := (narrowing.apply query).kept_narrowBy rest
      constructor
      · intro condition given
        have demanded : (query.satisfyingAll [condition]).Demands condition :=
          query.demands_satisfyingAll (List.mem_singleton_self condition)
        refine demanded.mono (List.IsPrefix.trans ?_ kept)
        rw [Narrowing.apply_eq, given, conditions_withinLimit]
        exact List.prefix_rfl
      · intro bound limited
        obtain ⟨between, le, merged⟩ : ∃ least ≤ bound,
          query.limit.merge min narrowing.limit? = some least := merge_min_le (.inr limited)
        obtain ⟨least, le', limited⟩ := within between ((query.limit_apply _).trans merged)
        exact ⟨least, le'.trans le, limited⟩
    · have table : (first.apply query).table = query.table := (query.kept_apply first).1
      rw [← table]
      exact ih (first.apply query) later

end Select

end Sql

end Warden
