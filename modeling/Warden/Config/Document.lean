import Warden.Config
import Warden.Error
import Warden.Yaml.Record
/-! # Configuration documents
A configuration document is a record of the two settings; a setting that is absent has its default,
and so does every setting of an empty document. -/

namespace Warden

namespace Config

open Yaml

/-- Read settings. -/
def ofNode (node : Node) : Reading Config := do
  let defaults : Config := {}
  let record ← node.record ["paranoid", "strong_parameters"]
  let paranoid ← Node.part record "paranoid" defaults.paranoid Node.bool
  let strongParameters ←
    Node.part record "strong_parameters" defaults.strongParameters Node.bool
  return { paranoid, strongParameters }

/-- Read a configuration document. -/
def ofText (text : String) : Except Error Config :=
  match (Document.ofText? text).bind (·.read? ofNode) with
  | some config => .ok config
  | none => .error (.config "the document describes no settings")

/-- The settings that a value describes; one that is absent or no truth value has its default. -/
def ofValue (value : Value) : Config :=
  let defaults : Config := {}
  let fields := (value.record? ["paranoid", "strong_parameters"]).getD []
  let flag? := fun (name : String) => (Fields.get? fields name).bind Value.bool?
  { paranoid := (flag? "paranoid").getD defaults.paranoid
    strongParameters := (flag? "strong_parameters").getD defaults.strongParameters }

/-- The value that describes settings. -/
def toValue (config : Config) : Value :=
  .object [("paranoid", .bool config.paranoid), ("strong_parameters", .bool config.strongParameters)]

end Config

end Warden
