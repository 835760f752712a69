import Warden.Trust
import Warden.Describe
/-! # Constraints
A rule may grant a field only for some of its values. A *constraint* says which: any value, a range
of numbers or texts, exactly one value, or those that pass a predicate. Predicates belong to the
application: they run trusted, they may look at the depth of trusted execution, and they may
panic. -/

namespace Warden

/-- One end of a range. -/
inductive Bound where
  /-- No limit. -/
  | unbounded
  /-- A limit that belongs to the range. -/
  | included (limit : Value)
  /-- A limit that does not belong to the range. -/
  | excluded (limit : Value)

namespace Bound

/-- Equality of structure. -/
def same : Bound → Bound → Bool
  | .unbounded, .unbounded => true
  | .included a, .included b => a.same b
  | .excluded a, .excluded b => a.same b
  | _, _ => false

/-- Whether a value lies on the upper side of a lower bound. -/
def admitsAbove (bound : Bound) (value : Value) : Bool :=
  match bound with
  | .unbounded => true
  | .included limit =>
    match limit.compare? value with
    | some .lt | some .eq => true
    | _ => false
  | .excluded limit => limit.compare? value == some .lt

/-- Whether a value lies on the lower side of an upper bound. -/
def admitsBelow (bound : Bound) (value : Value) : Bool :=
  match bound with
  | .unbounded => true
  | .included limit =>
    match value.compare? limit with
    | some .lt | some .eq => true
    | _ => false
  | .excluded limit => value.compare? limit == some .lt

/-- The description of a bound. -/
def describe : Bound → String
  | .unbounded => "Unbounded"
  | .included limit => Describe.tagged "Included" limit.describe
  | .excluded limit => Describe.tagged "Excluded" limit.describe

end Bound

/-- A range of numbers or of texts. -/
structure ValueRange where
  /-- The lower end. -/
  lower : Bound
  /-- The upper end. -/
  upper : Bound

namespace ValueRange

/-- Both limits belong to the range. -/
def closed (lower upper : Value) : ValueRange := ⟨.included lower, .included upper⟩

/-- The lower limit belongs to the range, the upper does not. -/
def halfOpen (lower upper : Value) : ValueRange := ⟨.included lower, .excluded upper⟩

/-- Everything from a limit on. -/
def atLeast (lower : Value) : ValueRange := ⟨.included lower, .unbounded⟩

/-- Everything up to a limit. -/
def atMost (upper : Value) : ValueRange := ⟨.unbounded, .included upper⟩

/-- Everything before a limit. -/
def below (upper : Value) : ValueRange := ⟨.unbounded, .excluded upper⟩

/-- Equality of structure. -/
def same (a b : ValueRange) : Bool := a.lower.same b.lower && a.upper.same b.upper

/-- Whether a value lies in the range. A value that is neither number nor text lies in none, not
even in the range without limits, and a limit of another kind keeps every value out. -/
def contains (range : ValueRange) (value : Value) : Bool :=
  range.lower.admitsAbove value && range.upper.admitsBelow value && value.isRangeable

/-- The description of a range. -/
def describe (range : ValueRange) : String :=
  Describe.record "ValueRange" [("start", range.lower.describe), ("end", range.upper.describe)]

end ValueRange

/-- A test that an application brings along. Two predicates are the same if their identities are;
the test itself cannot be compared. -/
structure Predicate where
  /-- A name for descriptions. -/
  label : Option String := none
  /-- What tells the predicate from others. -/
  identity : Nat := 0
  /-- The test of a value at a depth of trusted execution. -/
  test : (depth : Nat) → Value → Except Panic Bool

namespace Predicate

/-- Run the test at the current depth. -/
def call (predicate : Predicate) (value : Value) : Run Bool := do
  match predicate.test (← Run.depth) value with
  | .ok passed => return passed
  | .error panic => throw panic

/-- The description of a predicate. -/
def describe (predicate : Predicate) : String :=
  Describe.tagged "Predicate" (predicate.label.getD "<fn>")

end Predicate

/-- The values for which a field is granted. -/
inductive Constraint where
  /-- Every value. -/
  | unconstrained
  /-- The values of a range. -/
  | range (range : ValueRange)
  /-- The values that pass a test. -/
  | predicate (predicate : Predicate)
  /-- One value. A number stands for every number that is compared as equal to it: a signed word for
  no other signed word, and else for all numbers with the same nearest binary64. -/
  | literal (value : Value)

namespace Constraint

/-- Whether a value satisfies the constraint. Only predicates can panic; they run trusted. -/
def check (constraint : Constraint) (value : Value) : Run Bool :=
  match constraint with
  | .unconstrained => return true
  | .range r => return r.contains value
  | .predicate p => Run.insecurely (p.call value)
  | .literal expected => return expected.equal value

/-- Whether every value satisfies the constraint by its form. -/
def isUnconstrained : Constraint → Bool
  | .unconstrained => true
  | _ => false

/-- Equality of form; predicates are compared by identity. -/
def same : Constraint → Constraint → Bool
  | .unconstrained, .unconstrained => true
  | .range a, .range b => a.same b
  | .predicate a, .predicate b => a.identity == b.identity
  | .literal a, .literal b => a.same b
  | _, _ => false

/-- The description of a constraint. -/
def describe : Constraint → String
  | .unconstrained => "Unconstrained"
  | .range r => Describe.tagged "Range" r.describe
  | .predicate p => Describe.tagged "Predicate" p.describe
  | .literal value => Describe.tagged "Literal" value.describe

end Constraint

end Warden
