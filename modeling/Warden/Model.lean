import Warden.Config
import Warden.Restriction
import Warden.RuleBook
/-! # Models
A model is a table together with its rule set and, if it is pinned, its own answer to the question
whether rows are hidden without a scope. A `Site` is everything that answers depend on: the
settings, the rules, the models by name and the store. -/

namespace Warden

/-- A protected table. -/
structure Model where
  /-- The table. -/
  table : Table
  /-- The rules. -/
  rules : RuleSetId
  /-- Whether rows are hidden without a scope, if this model has an answer of its own. -/
  paranoid : Option Bool := none
  deriving DecidableEq, Repr

/-- Settings, rules, models and rows. -/
structure Site (S Q : Type) where
  /-- The settings. -/
  config : Config := {}
  /-- The rules of all models. -/
  book : RuleBook S Q := {}
  /-- The models that rules may ask about, by name. -/
  models : Fields Model := []
  /-- What carries out queries. -/
  store : Store Q := Store.empty

namespace Model

variable {S Q : Type}

/-- The name of the table. -/
def name (model : Model) : String := model.table.name

/-- All fields of the table, the primary key first. -/
def fields (model : Model) : List String := model.table.fieldNames

/-- Whether rows are hidden without a scope; the settings decide unless the model is pinned. -/
def isParanoid (model : Model) (config : Config) : Bool :=
  model.paranoid.getD config.paranoid

/-- The permissions before any rule has run. -/
def noPermissions (model : Model) (config : Config) : Permissions Q :=
  Permissions.none model.fields model.table (model.isParanoid config)

/-- The description of a model. -/
def describe (model : Model) (book : RuleBook S Q) : String :=
  Describe.record "Model"
    [("table", Describe.quoted model.name),
     ("rules", toString (book.ruleCount model.rules)),
     ("paranoid", Describe.option (model.paranoid.map Describe.bool))]

end Model

/-- A way to work out the permissions of a subject for a model and perhaps a record. -/
abbrev Evaluator (S Q : Type) : Type := Model → S → Option Row → Run (Permissions Q)

namespace Site

variable {S Q : Type}

/-- Define a model for a table, without rules. -/
def define (site : Site S Q) (table : Table) (paranoid : Option Bool) : Site S Q × Model :=
  let (book, rules) := site.book.create
  ({ site with book }, { table, rules, paranoid })

/-- Define a model on the table of another one, whose rules run first. Unless it is pinned itself,
it is paranoid as the other one is. -/
def inherit (site : Site S Q) (model : Model) (paranoid : Option Bool) : Site S Q × Model :=
  let (book, rules) := site.book.inherit model.rules
  ({ site with book }, { model with rules, paranoid := paranoid.or model.paranoid })

/-- Register a rule on a model. -/
def protect (site : Site S Q) (model : Model) (rule : Rule S Q) : Site S Q :=
  { site with book := site.book.register model.rules rule }

/-- Run the rules of a model in order, in trusted execution, starting from no permissions. -/
def evaluateWith (site : Site S Q) (census : Census S) : Evaluator S Q :=
  fun model subject entry =>
    Run.insecurely <|
      Rule.runAll census (site.book.rules model.rules) subject entry
        (model.noPermissions site.config)

end Site

end Warden
