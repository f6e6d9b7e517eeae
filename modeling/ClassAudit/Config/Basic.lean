import ClassAudit.Files.Path
import ClassAudit.Lint.Registry
import ClassAudit.Lint.Suppression
import ClassAudit.Platform

/-!
# Configurations

A configuration says which linters run on which classes, which findings are suppressed and which
packages count as part of the platform.

## Main definitions

* `LinterRule` - a linter with its targets; `Config` - a whole configuration.
* `Config.standard` - the configuration when none is given; `Config.forLinters` - given linters
  on every class.
* `ConfigFormat` - the ways to write a configuration down.
-/

namespace ClassAudit

/-! ### Formats -/

/-- A way to write a configuration down. -/
inductive ConfigFormat where
  | yaml
  | toml
  /-- One rule a line. -/
  | lines
deriving DecidableEq, Repr, Inhabited

namespace ConfigFormat

/-- The name of a format. -/
def name : ConfigFormat → String
  | yaml => "yaml"
  | toml => "toml"
  | lines => "lines"

/-- The formats by number; every other number stands for lines. -/
def ofNumber (n : Int) : ConfigFormat := if n = 0 then yaml else if n = 1 then toml else lines

/-- The format of a file by the extension of its name. -/
def ofPath (path : String) : ConfigFormat :=
  let extension := Text.lower (Path.extension path)
  if extension == ".yaml" || extension == ".yml" then yaml
  else if extension == ".toml" then toml
  else lines

end ConfigFormat

/-! ### Rules -/

/-- A linter with the classes that it runs on. -/
structure LinterRule where
  /-- The name of a linter, or a star for every linter. -/
  name : String := ""
  /-- Does the linter run on every class? -/
  all : Bool := false
  /-- Classes by dotted or internal name. -/
  classes : List String := []
  /-- Packages by dotted or internal name. -/
  packages : List String := []
deriving DecidableEq, Repr, Inhabited

/-- The name of a rule for every linter. -/
def allLinters : String := "*"

/-- The names of the linters that a rule stands for. -/
def LinterRule.linterNames (r : LinterRule) (reg : Registry) : List String :=
  if r.name == allLinters then reg.names else [r.name]

/-- What a run does. -/
structure Config where
  linters : List LinterRule := []
  suppress : List Suppression := []
  /-- The beginnings of the names of platform classes. -/
  platform : List String := []
deriving DecidableEq, Repr, Inhabited

namespace Config

/-- The configuration when none is given: every linter on every class. -/
def standard : Config where
  linters := [{ name := allLinters, all := true }]
  platform := Namespaces.defaultPrefixes

/-- The configuration that runs some linters on every class. -/
def forLinters (names : List String) : Config where
  linters := names.map fun name => { name, all := true }
  platform := standard.platform

/-- The platform packages of a configuration. -/
def namespaces (c : Config) : Namespaces := .ofPrefixes c.platform

/-- The names of the linters that a configuration may run, in ascending order and each once. -/
def linterNames (c : Config) (reg : Registry) : List String :=
  Text.sortedDistinct (c.linters.flatMap (·.linterNames reg))

end Config

end ClassAudit
