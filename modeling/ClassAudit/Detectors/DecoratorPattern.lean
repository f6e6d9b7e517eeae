import ClassAudit.Detectors.Collaboration
import ClassAudit.Lint.Registry

/-!
# The decorator pattern

A decorator wraps an object of a type that it implements itself. Classes that look like
decorators are checked for the usual mistakes.

## Main definitions

* `DecoratorPattern.looksLikeDecorator` - by name, by superclass, and with a type to decorate.
* `DecoratorPattern.wrapped?` - the field that holds the wrapped object.
* `DecoratorPattern.linter` - reports mistakes.
-/

namespace ClassAudit.DecoratorPattern

/-- The name of the linter. -/
def name : String := "DecoratorPattern"

/-- Base classes of stream decorators, in lower case. -/
def filterStreams : List String :=
  ["java/io/filterinputstream", "java/io/filteroutputstream", "java/io/filterreader",
   "java/io/filterwriter"]

/-- A name or superclass of a decorator, and some supertype to decorate. -/
def looksLikeDecorator (c : ClassModel) : Bool :=
  let words := ["decorator", "wrapper"]
  (mentions words c.name || mentions words c.superName ||
    filterStreams.contains (Text.lower c.superName)) &&
  (!c.interfaces.isEmpty || c.hasSuper)

/-- The first instance field whose type the class implements or extends; a subclass of a filter
can wrap any stream, reader or writer. -/
def wrapped? (c : ClassModel) : Option FieldModel :=
  let filters := Text.contains c.superName "Filter"
  c.fields.find? fun f =>
    let t := typeName f.desc
    !f.access.isStatic && isReferenceType f.desc &&
      (c.isSupertype t ||
        (filters && ["InputStream", "OutputStream", "Reader", "Writer"].any (Text.contains t ·)))

/-- Does a public method with a name like an accessor return the field's type? -/
def hasPublicAccessor (c : ClassModel) (f : FieldModel) : Bool :=
  let field := Text.lower f.name
  c.methods.any fun m =>
    let method := Text.lower m.name
    m.access.isPublic && returnType m.desc == f.desc &&
      (method == "get" ++ field || method == field ||
        ["component", "wrapped", "delegate"].any (Text.contains method ·))

/-- The linter for a class. -/
def linter (c : ClassModel) : Linter where
  name := name
  category := .pattern
  findings :=
    let o : Origin := ⟨name, .pattern, c.name⟩
    if looksLikeDecorator c then
      match wrapped? c with
      | none =>
        [o.finding .warning "" 0 "appears to be a decorator but has no wrapped component field"]
      | some f =>
        let t := typeName f.desc
        (if f.access.isPublic || hasPublicAccessor c f then
          [o.finding .warning f.name 0
            ("exposes its wrapped component publicly (field " ++ f.name ++ ")")]
        else []) ++
        (if f.access.isFinal then [] else
          [o.finding .warning f.name 0 ("wrapped component field " ++ f.name ++ " is not final")]) ++
        (if c.methods.any fun m => m.isConstructor && c.acceptsParam m t then [] else
          [o.finding .warning "" 0 "no constructor accepts the component to wrap"]) ++
        (if c.isSupertype t then [] else
          [o.finding .warning f.name 0
            ("does not share an interface or superclass with its wrapped component " ++
              dottedName t)])
    else []

end ClassAudit.DecoratorPattern
