import ClassAudit.Text.Basic
import ClassAudit.Text.LowerCase

/-!
# Names of members and classes

Class names come in two forms: internal, with slashes, as class files store them, and dotted, as
source code and reports write them. A few method names are special.

## Main definitions

* `packageOf`, `dottedName`, `internalName` - parts and forms of a class name.
* `isInitializer` - constructors and static initializers.
* `isBuilderish` - names that read like a fluent setter or a builder step.
-/

namespace ClassAudit

/-- The root of the class hierarchy. -/
def objectClass : String := "java/lang/Object"

/-- The name of every instance constructor. -/
def constructorName : String := "<init>"

/-- The name of a static initializer. -/
def staticInitializerName : String := "<clinit>"

/-- A constructor or a static initializer. -/
def isInitializer (name : String) : Bool :=
  name == constructorName || name == staticInitializerName

/-- The package part of an internal class name, empty for the default package. -/
def packageOf (name : String) : String :=
  match Text.cutAt (· == '/') name.toList.reverse with
  | some (_, rest) => String.ofList rest.reverse
  | none => ""

/-- A class name in dotted form. -/
def dottedName (name : String) : String := name.map fun c => if c == '/' then '.' else c

/-- A class name in internal form. -/
def internalName (name : String) : String := name.map fun c => if c == '.' then '/' else c

/-- Does the name read like a fluent setter (`set...`, `with...`) or like a builder step
(`...build...`), whatever its case? -/
def isBuilderish (name : String) : Bool :=
  let lower := Text.lower name
  Text.contains lower "build" || Text.startsWith lower "set" || Text.startsWith lower "with"

end ClassAudit
