import ClassAudit.Bytecode.MemberName
import ClassAudit.ClassFile.Descriptor
import ClassAudit.Text.Blank

/-!
# Platform classes

Classes of the Java platform, as opposed to those of the code base under analysis, are
recognised by the beginning of their names.

## Main definitions

* `Namespaces` - a set of name beginnings; `Namespaces.ofPrefixes` - the set that a
  configuration describes.
* `isLanguageOwner`, `isStringOwner` - classes that count as part of the language.
* `isCollectionDescriptor` - types that hold several objects.
-/

namespace ClassAudit

/-- The beginnings of the names of platform classes, in ascending order. -/
structure Namespaces where
  prefixes : List String
deriving DecidableEq, Repr, Inhabited

namespace Namespaces

/-- The platform packages when nothing is configured. -/
def defaultPrefixes : List String := ["java/", "javax/", "jdk/", "sun/"]

/-- A configured beginning in internal form, with a separator at its end; none when blank. -/
def normalPrefix? (p : String) : Option String :=
  let p := internalName (Text.trim p)
  if p == "" then none
  else if Text.endsWith p "/" then some p
  else some (p ++ "/")

/-- The namespaces that a list of configured beginnings describes; an empty list stands for the
defaults. -/
def ofPrefixes (configured : List String) : Namespaces :=
  let chosen := if configured.isEmpty then defaultPrefixes else configured
  ⟨Text.sortedDistinct (chosen.filterMap normalPrefix?)⟩

/-- The namespaces when nothing is configured. -/
def standard : Namespaces := ofPrefixes []

/-- Is the internal name that of a platform class? -/
def holds (n : Namespaces) (name : String) : Bool := n.prefixes.any fun p => Text.startsWith name p

/-- Is the element type of a field descriptor a platform class? -/
def holdsDescriptor (n : Namespaces) (desc : String) : Bool :=
  match objectType? (elementType desc) with
  | some name => n.holds name
  | none => false

end Namespaces

/-- Classes whose methods are used everywhere, so that calling them says nothing. -/
def isLanguageOwner (owner : String) : Bool :=
  ["java/lang/", "java/util/", "java/io/"].any fun p => Text.startsWith owner p

/-- Classes that hold or build text. -/
def isStringOwner (owner : String) : Bool :=
  ["java/lang/String", "java/lang/StringBuilder", "java/lang/StringBuffer"].contains owner

/-- A type that holds several objects: an array of objects, or a class whose descriptor contains
the name of a collection. -/
def isCollectionDescriptor (desc : String) : Bool :=
  Text.startsWith desc "[L" ||
    (Text.startsWith desc "L" &&
      ["List", "Set", "Collection", "Deque", "Queue"].any fun c => Text.contains desc c)

end ClassAudit
