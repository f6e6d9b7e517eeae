import ClassAudit.Files.Path
import ClassAudit.Golden.ClassOutline
import ClassAudit.Golden.Pairing
import ClassAudit.Yaml.Decode

/-!
# Golden cases

A golden case describes classes and, for one or several configurations, the findings that an
analysis of them has to report. Cases are written in YAML.

## Main definitions

* `GoldenRun` - a configuration with what is expected of it; `GoldenCase` - a whole case.
* `GoldenCase.ofYaml` - the case that a text describes.
-/

namespace ClassAudit

/-- A configuration with what is expected of it. -/
structure GoldenRun where
  name : String := ""
  /-- The text of the configuration. When it is empty, the linters run on every class. -/
  config : String := ""
  format : String := ""
  linters : List String := []
  expectedFindings : List ExpectedFinding := []
  /-- Parts of error messages, one of which has to occur if the analysis fails. -/
  expectedErrors : List String := []
deriving DecidableEq, Repr, Inhabited

/-- A golden case. -/
structure GoldenCase where
  description : String := ""
  classes : List ClassOutline := []
  runs : List GoldenRun := []
deriving DecidableEq, Repr, Inhabited

namespace GoldenCase

open Yaml

/-- A list of texts. -/
def yamlTexts : Node → Decode (Option (List String)) := decodeList "list of texts" decodeText

/-- A field. -/
def yamlField : Node → Decode (Option FieldOutline) :=
  decodeRecord false "field" {}
    [.of "name" decodeText fun name o => { o with name },
     .of "desc" decodeText fun desc o => { o with desc },
     .of "access" yamlTexts fun access o => { o with access }]

/-- A local variable. -/
def yamlLocal : Node → Decode (Option LocalOutline) :=
  decodeRecord false "local" {}
    [.of "slot" decodeInt fun slot o => { o with slot },
     .of "name" decodeText fun name o => { o with name },
     .of "desc" decodeText fun desc o => { o with desc }]

/-- A method. -/
def yamlMethod : Node → Decode (Option MethodOutline) :=
  decodeRecord false "method" {}
    [.of "name" decodeText fun name o => { o with name },
     .of "desc" decodeText fun desc o => { o with desc },
     .of "access" yamlTexts fun access o => { o with access },
     .of "code" decodeText fun code o => { o with code },
     .of "locals" (decodeList "list of locals" yamlLocal) fun locals o => { o with locals }]

/-- A class. -/
def yamlClass : Node → Decode (Option ClassOutline) :=
  decodeRecord false "class" {}
    [.of "name" decodeText fun name o => { o with name },
     .of "super" decodeText fun superName o => { o with superName },
     .of "interfaces" yamlTexts fun interfaces o => { o with interfaces },
     .of "access" yamlTexts fun access o => { o with access },
     .of "fields" (decodeList "list of fields" yamlField) fun fields o => { o with fields },
     .of "methods" (decodeList "list of methods" yamlMethod) fun methods o => { o with methods }]

/-- An expected finding. -/
def yamlExpected : Node → Decode (Option ExpectedFinding) :=
  decodeRecord false "expected finding" {}
    [.of "linter" decodeText fun linter e => { e with linter },
     .of "class" decodeText fun className e => { e with className },
     .of "member" decodeText fun member e => { e with member },
     .of "line" decodeInt fun line e => { e with line },
     .of "message" decodeText fun message e => { e with message },
     .of "suppressed" decodeBool fun suppressed e => { e with suppressed }]

/-- A configuration with what is expected of it. -/
def yamlRun : Node → Decode (Option GoldenRun) :=
  decodeRecord false "configuration" {}
    [.of "name" decodeText fun name r => { r with name },
     .of "config" decodeText fun config r => { r with config },
     .of "format" decodeText fun format r => { r with format },
     .of "linters" yamlTexts fun linters r => { r with linters },
     .of "expected_findings" (decodeList "list of findings" yamlExpected)
       fun expectedFindings r => { r with expectedFindings },
     .of "expected_errors" yamlTexts fun expectedErrors r => { r with expectedErrors }]

/-- A case. -/
def yamlCase : Node → Decode (Option GoldenCase) :=
  decodeRecord false "case" {}
    [.of "description" decodeText fun description c => { c with description },
     .of "classes" (decodeList "list of classes" yamlClass) fun classes c => { c with classes },
     .of "configurations" (decodeList "list of configurations" yamlRun)
       fun runs c => { c with runs }]

/-- The case that the first document of a text describes; an empty one without a document.
Fields that a case does not know are ignored. -/
def ofYaml (text : String) : Except Yaml.Failure GoldenCase := do
  return (← decodeDocument yamlCase (Text.utf8Bytes text)).getD {}

/-- The name of a case: the way to its directory from a given root, and otherwise the last part of
its path. -/
def nameOf (directory root : String) : String :=
  if root == "" then Path.base directory
  else (Path.relative? root directory).getD (Path.base directory)

end GoldenCase

end ClassAudit
