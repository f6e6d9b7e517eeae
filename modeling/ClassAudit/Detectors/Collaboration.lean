import ClassAudit.ClassFile.Descriptor
import ClassAudit.ClassFile.Model

/-!
# How classes work together

What the detectors of design patterns have in common: types of fields, what constructors accept,
accesses to a field, and vocabularies of names.

## Main definitions

* `typeName` - the class or array that a descriptor stands for.
* `ClassModel.isSupertype`, `ClassModel.acceptsParam` - how a class relates to a type.
* `readsField`, `writesField` - accesses to a field of a class.
* `mentions` - whether a name contains one of several words.
-/

namespace ClassAudit

/-- The internal name of a class descriptor, and any other descriptor itself. -/
def typeName (desc : String) : String := (objectType? desc).getD desc

/-- Is the type a direct interface of the class, or its superclass other than the root class? -/
def ClassModel.isSupertype (c : ClassModel) (type : String) : Bool :=
  c.implements type || (c.hasSuper && c.superName == type)

/-- Does a method take a parameter of the given type, or of an interface of the class? -/
def ClassModel.acceptsParam (c : ClassModel) (m : MethodModel) (type : String) : Bool :=
  match MethodDescriptor.parse m.desc with
  | .ok d => (d.params.filter isReferenceType).any fun p =>
      typeName p == type || c.implements (typeName p)
  | .error _ => false

/-- Does the action read this field of the class `owner`? -/
def readsField (owner : String) (f : FieldModel) : Action → Bool
  | .field .getField m => m.owner == owner && m.name == f.name && m.desc == f.desc
  | _ => false

/-- Does the action write this field of the class `owner`? -/
def writesField (owner : String) (f : FieldModel) : Action → Bool
  | .field .putField m => m.owner == owner && m.name == f.name && m.desc == f.desc
  | _ => false

/-- Does the name contain one of the words, whatever its case? -/
def mentions (words : List String) (name : String) : Bool :=
  let lower := Text.lower name
  words.any fun w => Text.contains lower w

/-- Names of methods that tell observers about something. -/
def isNotifyName (name : String) : Bool :=
  mentions ["update", "notify", "onchange", "onevent", "dispatch", "trigger", "publish",
    "broadcast", "fire"] name

end ClassAudit
