import ClassAudit.Config.FromToml
import ClassAudit.Config.FromYaml
import ClassAudit.Config.Lines
import ClassAudit.Files.Tree

/-!
# Reading configurations

## Main definitions

* `ConfigFault` - why a text gives no configuration.
* `Config.parseBytes`, `Config.parse` - the configuration that a byte string or a text describes in a
  given format.
* `Config.load` - the configuration in a file, whose name tells the format.
-/

namespace ClassAudit

/-- Why a text gives no configuration. -/
inductive ConfigFault where
  | lines (fault : LinesFault)
  | yaml (failure : Yaml.Failure)
  | toml (fault : TomlFault)
deriving DecidableEq, Repr

/-- The wording of a fault. -/
def ConfigFault.message : ConfigFault → String
  | lines fault => fault.message
  | yaml failure => "parsing yaml config: " ++ failure.message
  | toml fault => fault.message

/-- Does the fault break off the whole program instead of being told? -/
def ConfigFault.isBreakdown : ConfigFault → Bool
  | yaml .unusableKey => true
  | _ => false

/-- The configuration that a byte string describes. -/
def Config.parseBytes (format : ConfigFormat) (bytes : List UInt8) : Except ConfigFault Config :=
  match format with
  | .yaml => (Config.ofYaml bytes).mapError .yaml
  | .toml => (Config.ofToml bytes).mapError .toml
  | .lines => (Config.ofLines bytes).mapError .lines

/-- The configuration that a text describes. -/
def Config.parse (format : ConfigFormat) (text : String) : Except ConfigFault Config :=
  Config.parseBytes format (Text.utf8Bytes text)

/-- Why a file gives no configuration. -/
inductive ConfigFileFault where
  | unreadable (fault : FileTree.ReadFault)
  | invalid (path : String) (fault : ConfigFault)
deriving DecidableEq, Repr

/-- The wording of a fault. -/
def ConfigFileFault.message : ConfigFileFault → String
  | unreadable fault => "reading config: " ++ fault.message
  | invalid path fault => path ++ ": " ++ fault.message

/-- The configuration in a file. -/
def Config.load (t : FileTree) (path : String) : Except ConfigFileFault Config := do
  let content ← (t.read path).mapError .unreadable
  (Config.parseBytes (.ofPath path) content).mapError (.invalid path)

end ClassAudit
