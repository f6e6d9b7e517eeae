import ClassAudit.Bytecode.MemberName
import ClassAudit.Bytecode.Body

/-!
# Classes

The structure of one class: its names, access flags, fields and methods with their decoded
bodies.

## Main definitions

* `AccessFlags` - the access bits of a class, field or method.
* `FieldModel`, `MethodModel`, `ClassModel` - the parts of a class.
-/

namespace ClassAudit

/-! ### Access flags -/

/-- The access bits of a class, field or method. -/
structure AccessFlags where
  bits : Nat
deriving DecidableEq, Repr, Inhabited

namespace AccessFlags

/-- Are all bits of `flag` set? -/
def has (a : AccessFlags) (flag : Nat) : Bool := a.bits &&& flag == flag

/-- Visible everywhere. -/
def isPublic (a : AccessFlags) : Bool := a.has 0x0001
/-- Visible in its class only. -/
def isPrivate (a : AccessFlags) : Bool := a.has 0x0002
/-- Visible in subclasses. -/
def isProtected (a : AccessFlags) : Bool := a.has 0x0004
/-- Belongs to the class and not to its instances. -/
def isStatic (a : AccessFlags) : Bool := a.has 0x0008
/-- Cannot be extended, overridden or assigned again. -/
def isFinal (a : AccessFlags) : Bool := a.has 0x0010
/-- A method that forwards to one with another descriptor. -/
def isBridge (a : AccessFlags) : Bool := a.has 0x0040
/-- Has its body outside the class file. -/
def isNative (a : AccessFlags) : Bool := a.has 0x0100
/-- An interface. -/
def isInterface (a : AccessFlags) : Bool := a.has 0x0200
/-- Has no body, or may not be instantiated. -/
def isAbstract (a : AccessFlags) : Bool := a.has 0x0400
/-- Not present in the source. -/
def isSynthetic (a : AccessFlags) : Bool := a.has 0x1000
/-- An enumeration. -/
def isEnum (a : AccessFlags) : Bool := a.has 0x4000

end AccessFlags

/-! ### Members -/

/-- A field of a class. -/
structure FieldModel where
  name : String
  desc : String
  access : AccessFlags
deriving DecidableEq, Repr, Inhabited

/-- A method of a class with its decoded body. -/
structure MethodModel where
  name : String
  desc : String
  access : AccessFlags
  /-- Empty when the method has no body. -/
  code : Body := {}
  /-- Declared names of local variables; no variable is listed twice. -/
  localNames : List (Nat × String) := []
deriving DecidableEq, Repr, Inhabited

namespace MethodModel

/-- A constructor or a static initializer. -/
def isInitializer (m : MethodModel) : Bool := ClassAudit.isInitializer m.name

theorem isInitializer_eq_false_iff {m : MethodModel} :
    m.isInitializer = false ↔ m.name ≠ "<init>" ∧ m.name ≠ "<clinit>" := by
  simp [isInitializer, ClassAudit.isInitializer, constructorName, staticInitializerName]

theorem not_isInitializer_eq (m : MethodModel) :
    (!m.isInitializer) = decide (m.name ≠ "<init>" ∧ m.name ≠ "<clinit>") := by
  rw [Bool.eq_iff_iff, Bool.not_eq_true', decide_eq_true_eq, isInitializer_eq_false_iff]

/-- An instance constructor. -/
def isConstructor (m : MethodModel) : Bool := m.name == constructorName

/-- Name and descriptor, which identify a method inside its class. -/
def signature (m : MethodModel) : String := m.name ++ m.desc

/-- The declared name of a local variable, or `varN` when none is known. -/
def localName (m : MethodModel) (slot : Int) : String :=
  match m.localNames.find? fun (s, name) => (s : Int) == slot && name != "" with
  | some (_, name) => name
  | none => "var" ++ toString slot

end MethodModel

/-! ### Classes -/

/-- The structure of one class. -/
structure ClassModel where
  name : String
  /-- Empty when the class extends nothing. -/
  superName : String := ""
  interfaces : List String := []
  access : AccessFlags := ⟨0⟩
  fields : List FieldModel := []
  methods : List MethodModel := []
  major : Nat := 0
  minor : Nat := 0
  /-- Empty when unknown. -/
  sourceFile : String := ""
deriving DecidableEq, Repr, Inhabited

namespace ClassModel

/-- Neither an interface nor abstract. -/
def isConcrete (c : ClassModel) : Bool := !c.access.isInterface && !c.access.isAbstract

/-- Does the class extend something else than the root class? -/
def hasSuper (c : ClassModel) : Bool := c.superName != "" && c.superName != objectClass

/-- The package of the class. -/
def package (c : ClassModel) : String := packageOf c.name

/-- Is the interface among those that the class itself lists? -/
def implements (c : ClassModel) (iface : String) : Bool := c.interfaces.contains iface

/-- The method with this name and descriptor. -/
def method? (c : ClassModel) (name desc : String) : Option MethodModel :=
  c.methods.find? fun m => m.name == name && m.desc == desc

/-- Is some method called `name`? -/
def hasMethodNamed (c : ClassModel) (name : String) : Bool := c.methods.any (·.name == name)

end ClassModel

end ClassAudit
