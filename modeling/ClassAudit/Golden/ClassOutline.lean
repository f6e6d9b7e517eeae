import ClassAudit.Assembly.ClassDraft
import ClassAudit.Assembly.Source

/-!
# Class outlines

An outline describes a class in words: access flags by name, and method bodies as assembly text.

## Main definitions

* `accessFlag?` - the bit of an access flag by its name.
* `ClassOutline` - the outline of a class; `ClassOutline.draft` - the class that it describes.
* `OutlineFault` - why it describes none.
-/

namespace ClassAudit

/-! ### Access flags -/

/-- The bits of access flags by name. -/
def accessFlagBits : List (String × Nat) :=
  [("public", 0x0001), ("private", 0x0002), ("protected", 0x0004), ("static", 0x0008),
   ("final", 0x0010), ("bridge", 0x0040), ("native", 0x0100), ("interface", 0x0200),
   ("abstract", 0x0400), ("synthetic", 0x1000), ("annotation", 0x2000), ("enum", 0x4000)]

/-- The bit of an access flag by its name, whatever the case. -/
def accessFlag? (name : String) : Option Nat := accessFlagBits.lookup (Text.lower name)

/-- The bits of access flags; an error names the first that is unknown. -/
def accessBits (names : List String) : Except String Nat :=
  names.foldlM (fun bits name =>
    match accessFlag? name with
    | some bit => .ok (bits ||| bit)
    | none => .error name) 0

/-! ### Outlines -/

/-- The outline of a field. -/
structure FieldOutline where
  name : String := ""
  desc : String := ""
  access : List String := []
deriving DecidableEq, Repr, Inhabited

/-- The name of a local variable. -/
structure LocalOutline where
  slot : Int := 0
  name : String := ""
  desc : String := ""
deriving DecidableEq, Repr, Inhabited

/-- The outline of a method. A blank text stands for no body. -/
structure MethodOutline where
  name : String := ""
  desc : String := ""
  access : List String := []
  code : String := ""
  locals : List LocalOutline := []
deriving DecidableEq, Repr, Inhabited

/-- The outline of a class. -/
structure ClassOutline where
  name : String := ""
  superName : String := ""
  interfaces : List String := []
  access : List String := []
  fields : List FieldOutline := []
  methods : List MethodOutline := []
deriving DecidableEq, Repr, Inhabited

/-- Why an outline describes no class. -/
inductive OutlineFault where
  /-- An unknown access flag; `part` says where. -/
  | unknownFlag (part name : String)
  /-- A body that cannot be read; `part` says where. -/
  | unreadableCode (part : String) (error : Source.Error)
deriving DecidableEq, Repr

/-- The wording of a fault. -/
def OutlineFault.message : OutlineFault → String
  | unknownFlag part name => part ++ ": unknown access flag " ++ Text.quote name
  | unreadableCode part error => part ++ ": " ++ error.message

namespace ClassOutline

/-- The source file that a class is said to come from. -/
def sourceFile (o : ClassOutline) : String :=
  String.ofList (o.name.toList.reverse.takeWhile (· != '/')).reverse ++ ".java"

/-- The bits of a class; an interface is abstract, too. -/
def classBits (bits : Nat) : Nat := if bits &&& 0x0200 != 0 then bits ||| 0x0400 else bits

/-- The field that an outline describes. -/
def fieldDraft (o : ClassOutline) (f : FieldOutline) : Except OutlineFault FieldDraft := do
  let bits ← (accessBits f.access).mapError (.unknownFlag ("field " ++ o.name ++ "." ++ f.name))
  return { name := f.name, desc := f.desc, access := bits }

/-- The method that an outline describes. -/
def methodDraft (o : ClassOutline) (m : MethodOutline) : Except OutlineFault MethodDraft := do
  let part := "method " ++ o.name ++ "." ++ m.name
  let bits ← (accessBits m.access).mapError (.unknownFlag part)
  let steps ←
    if Text.trim m.code == "" then pure []
    else (Step.parseAll m.code).mapError (.unreadableCode (part ++ m.desc))
  return { name := m.name, desc := m.desc, access := bits, steps
           locals := m.locals.map fun l => { slot := l.slot, name := l.name, desc := l.desc } }

/-- The outline as a class file can hold it, with U+FFFD for stray bytes. -/
def shown (o : ClassOutline) : ClassOutline where
  name := Text.shown o.name
  superName := Text.shown o.superName
  interfaces := o.interfaces.map Text.shown
  access := o.access
  fields := o.fields.map fun f => { f with name := Text.shown f.name, desc := Text.shown f.desc }
  methods := o.methods.map fun m =>
    { m with
      name := Text.shown m.name
      desc := Text.shown m.desc
      code := Text.shown m.code
      locals := m.locals.map fun l =>
        { l with name := Text.shown l.name, desc := Text.shown l.desc } }

/-- The class that an outline describes. -/
def draft (o : ClassOutline) : Except OutlineFault ClassDraft := do
  let bits ← (accessBits o.access).mapError (.unknownFlag ("class " ++ o.name))
  let fields ← o.fields.mapM o.fieldDraft
  let methods ← o.methods.mapM o.methodDraft
  return { name := o.name, superName := o.superName, interfaces := o.interfaces
           access := classBits bits, sourceFile := o.sourceFile, fields, methods }

end ClassOutline

end ClassAudit
