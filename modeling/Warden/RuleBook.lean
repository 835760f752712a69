import Warden.Rule
/-! # The rule book
Every model has a *rule set*. A rule set may have a parent, whose rules run before its own; as a
parent is always an older set, following parents comes to an end. The rule book keeps all sets, so
that a rule registered later on a parent counts for its descendants too. -/

namespace Warden

/-- What tells a rule set from others: its position in the rule book. -/
abbrev RuleSetId : Type := Nat

/-- The rules registered on one model. -/
structure RuleSet (S Q : Type) where
  /-- The set whose rules run first. -/
  parent : Option RuleSetId := none
  /-- The set's own rules, in order of registration. -/
  own : List (Rule S Q) := []

/-- All rule sets, the oldest first. -/
structure RuleBook (S Q : Type) where
  /-- The sets; the position of a set is its identity. -/
  sets : List (RuleSet S Q) := []
  /-- A parent is older than its child. -/
  parent_lt : ∀ (id : Nat) (set : RuleSet S Q) (parent : RuleSetId),
    sets[id]? = some set → set.parent = some parent → parent < id := by simp

namespace RuleBook

variable {S Q : Type}

/-- A rule book without sets. -/
def empty : RuleBook S Q := {}

/-- Add a set without rules, below a parent that is in the book already. -/
def add (book : RuleBook S Q) (parent : Option RuleSetId)
    (older : ∀ p ∈ parent, p < book.sets.length) : RuleBook S Q :=
  { sets := book.sets ++ [{ parent }]
    parent_lt := by
      intro id set p found isParent
      rcases Nat.lt_or_ge id book.sets.length with old | new
      · rw [List.getElem?_append_left old] at found
        exact book.parent_lt id set p found isParent
      · rw [List.getElem?_append_right new] at found
        rw [List.getElem?_singleton] at found
        split at found
        · cases found
          exact Nat.lt_of_lt_of_le (older p isParent) new
        · cases found }

/-- Add a set without parent; returns its identity. -/
def create (book : RuleBook S Q) : RuleBook S Q × RuleSetId :=
  (book.add none (by simp), book.sets.length)

/-- Add a set below another one; returns its identity. A parent that is not in the book counts as
none. -/
def inherit (book : RuleBook S Q) (parent : RuleSetId) : RuleBook S Q × RuleSetId :=
  if known : parent < book.sets.length then
    (book.add (some parent) (by simpa using known), book.sets.length)
  else book.create

/-- Register a rule on a set, after the rules that it has. -/
def register (book : RuleBook S Q) (id : RuleSetId) (rule : Rule S Q) : RuleBook S Q :=
  { sets := book.sets.modify id fun set => { set with own := set.own ++ [rule] }
    parent_lt := by
      intro i set p found isParent
      rw [List.getElem?_modify] at found
      cases old : book.sets[i]? with
      | none => simp [old] at found
      | some before =>
        simp only [old, Option.map_eq_map, Option.map_some, Option.some.injEq] at found
        refine book.parent_lt i before p old ?_
        rw [← isParent, ← found]
        split <;> rfl }

/-- The rules of a set in the order in which they run: those of its ancestors, the oldest first,
then its own. -/
def rules (book : RuleBook S Q) (id : RuleSetId) : List (Rule S Q) :=
  match found : book.sets[id]? with
  | none => []
  | some set =>
    match isParent : set.parent with
    | none => set.own
    | some parent =>
      have : parent < id := book.parent_lt id set parent found isParent
      book.rules parent ++ set.own
termination_by id

/-- A set's own rules. -/
def ownRules (book : RuleBook S Q) (id : RuleSetId) : List (Rule S Q) :=
  match book.sets[id]? with
  | none => []
  | some set => set.own

/-- Whether a set has a parent. -/
def isInherited (book : RuleBook S Q) (id : RuleSetId) : Bool :=
  match book.sets[id]? with
  | none => false
  | some set => set.parent.isSome

/-- The number of rules that run for a set, counted along its ancestors. -/
def ruleCount (book : RuleBook S Q) (id : RuleSetId) : Nat :=
  match found : book.sets[id]? with
  | none => 0
  | some set =>
    match isParent : set.parent with
    | none => set.own.length
    | some parent =>
      have : parent < id := book.parent_lt id set parent found isParent
      set.own.length + book.ruleCount parent
termination_by id

/-- The description of a set. -/
def describe (book : RuleBook S Q) (id : RuleSetId) : String :=
  Describe.record "RuleSet"
    [("own", toString (book.ownRules id).length),
     ("inherited", Describe.bool (book.isInherited id))]

end RuleBook

end Warden
