import Warden.Rule.Script
/-! # Rules
A rule fills permissions. A *plain* rule knows nothing but the permissions, a *subject* rule knows
the subject, and an *entry* rule also knows the record, unless the permissions are for a whole
table. -/

namespace Warden

/-- A rule for subjects of type `S` and queries of type `Q`. -/
inductive Rule (S Q : Type) where
  /-- The same for every subject. -/
  | plain (body : Script S Q)
  /-- Depends on the subject. -/
  | subject (body : S → Script S Q)
  /-- Depends on the subject and on the record, if there is one. -/
  | entry (body : S → Option Row → Script S Q)

namespace Rule

variable {S Q : Type}

/-- What a rule does for a subject and a record. -/
def script (rule : Rule S Q) (subject : S) (entry : Option Row) : Script S Q :=
  match rule with
  | .plain body => body
  | .subject body => body subject
  | .entry body => body subject entry

/-- The name of the rule's kind. -/
def kind : Rule S Q → String
  | .plain _ => "plain"
  | .subject _ => "subject"
  | .entry _ => "entry"

/-- Run rules in order, each on the permissions that the former ones left. -/
def runAll (census : Census S) (rules : List (Rule S Q)) (subject : S) (entry : Option Row)
    (perms : Permissions Q) : Run (Permissions Q) :=
  match rules with
  | [] => return perms
  | rule :: rest => do
    let perms ← (rule.script subject entry).run census perms
    Rule.runAll census rest subject entry perms

/-- The description of a rule. -/
def describe (rule : Rule S Q) : String :=
  Describe.tagged "Rule" (Describe.quoted rule.kind)

end Rule

end Warden
