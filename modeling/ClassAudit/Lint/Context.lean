import ClassAudit.ClassFile.Model

/-!
# Package contexts

Some linters look at a class together with the other classes of its package. A package context
holds those classes by name.

## Main definitions

* `PackageContext` - classes with distinct names.
* `PackageContext.ofClasses` - the context of a list of classes; a later class replaces an
  earlier one of the same name.
-/

namespace ClassAudit

/-- Classes that are looked up by name. -/
structure PackageContext where
  /-- No two classes have the same name. -/
  classes : List ClassModel
deriving Repr, Inhabited

namespace PackageContext

/-- The context without classes. -/
def empty : PackageContext := ⟨[]⟩

/-- Adds a class; it takes the place of a class with the same name. -/
def insert (ctx : PackageContext) (c : ClassModel) : PackageContext :=
  if ctx.classes.any (·.name == c.name) then
    ⟨ctx.classes.map fun d => if d.name == c.name then c else d⟩
  else ⟨ctx.classes ++ [c]⟩

/-- The context of a list of classes. -/
def ofClasses (cs : List ClassModel) : PackageContext := cs.foldl insert empty

/-- The class with an internal name. -/
def lookup? (ctx : PackageContext) (name : String) : Option ClassModel :=
  ctx.classes.find? (·.name == name)

/-- Is there a class with this name? -/
def contains (ctx : PackageContext) (name : String) : Bool := (ctx.lookup? name).isSome

/-- The number of classes. -/
def size (ctx : PackageContext) : Nat := ctx.classes.length

/-- The names of the classes in ascending order. -/
def names (ctx : PackageContext) : List String := Text.sorted (ctx.classes.map (·.name))

end PackageContext

end ClassAudit
