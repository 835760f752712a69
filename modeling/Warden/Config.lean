/-! # Configuration
Two settings hold for a whole application: whether rows are hidden from subjects for whom no scope
is registered, and whether new values are limited to fields that the subject may write. -/

namespace Warden

/-- The settings of an application. -/
structure Config where
  /-- Hide every row of a table from a subject for whom no scope is registered. -/
  paranoid : Bool := false
  /-- Take over only those given values that the subject may write. -/
  strongParameters : Bool := true
  deriving DecidableEq, Repr, Inhabited

namespace Config

/-- The truth value that a setting spells, if it spells one. -/
def flag? : String → Option Bool
  | "true" => some true
  | "false" => some false
  | _ => none

/-- The settings that an environment spells; one that is absent or spells nothing has its default. -/
def ofEnvironment (paranoid strongParameters : Option String) : Config :=
  let defaults : Config := {}
  { paranoid := (paranoid.bind flag?).getD defaults.paranoid
    strongParameters := (strongParameters.bind flag?).getD defaults.strongParameters }

end Config

end Warden
