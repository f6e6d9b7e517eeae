import ClassAudit.Config.Basic
import ClassAudit.Yaml.Decode

/-!
# Configurations in YAML

## Main definitions

* `Config.ofYaml` - the configuration that a YAML document describes. Unknown fields are refused.
-/

namespace ClassAudit.Config

open Yaml

/-- A list of texts. -/
def yamlTexts : Node → Decode (Option (List String)) := decodeList "[]string" decodeText

/-- A rule. -/
def yamlRule : Node → Decode (Option LinterRule) :=
  decodeRecord true "config.LinterRule" {}
    [.of "name" decodeText fun name r => { r with name },
     .of "all" decodeBool fun all r => { r with all },
     .of "classes" yamlTexts fun classes r => { r with classes },
     .of "packages" yamlTexts fun packages r => { r with packages }]

/-- A suppression. -/
def yamlSuppression : Node → Decode (Option Suppression) :=
  decodeRecord true "suppress.Rule" {}
    [.of "linter" decodeText fun linter r => { r with linter },
     .of "class" decodeText fun className r => { r with className },
     .of "member" decodeText fun member r => { r with member },
     .of "reason" decodeText fun reason r => { r with reason }]

/-- The platform packages. -/
def yamlPlatform : Node → List String → Decode (List String) := fun n old => do
  let read := decodeRecord true "config.Platform" old
    [.of "prefixes" yamlTexts fun prefixes _ => prefixes]
  return (← read n).getD old

/-- A configuration. -/
def yamlConfig : Node → Decode (Option Config) :=
  decodeRecord true "config.Config" {}
    [.of "linters" (decodeList "[]config.LinterRule" yamlRule) fun linters c => { c with linters },
     .of "suppress" (decodeList "[]suppress.Rule" yamlSuppression)
       fun suppress c => { c with suppress },
     { name := "platform"
       set := fun n c => return { c with platform := ← yamlPlatform n c.platform } }]

/-- The configuration that the first document of a byte string describes; an empty one without a
document. -/
def ofYaml (bytes : List UInt8) : Except Yaml.Failure Config := do
  return (← decodeDocument yamlConfig bytes).getD {}

end ClassAudit.Config
