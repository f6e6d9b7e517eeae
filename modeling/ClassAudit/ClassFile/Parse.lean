import ClassAudit.ClassFile.Code
import ClassAudit.ClassFile.Model

/-!
# Reading class files

A class file is read from its first byte to its last: version, constant pool, names, interfaces,
fields, methods, attributes. Nothing may follow.

## Main definitions

* `ClassModel.parse` - the class that a byte string spells, or why it spells none.
-/

namespace ClassAudit

namespace ClassModel

/-- The first four bytes of every class file. -/
def magic : Nat := 0xcafebabe

/-- The lowest major version that is accepted. -/
def minMajor : Nat := 45

/-- The highest major version that is accepted. -/
def maxMajor : Nat := 69

/-- The part that fields and methods share. -/
structure MemberInfo where
  access : AccessFlags
  name : String
  desc : String
  attributes : List (String × List UInt8)

/-- Reads a field or method up to its last attribute. -/
def readMember (pool : ConstantPool) (kind : MemberKind) : Read MemberInfo := do
  let access ← Read.u2 (kind.name ++ " access_flags")
  let nameIndex ← Read.u2 (kind.name ++ " name_index")
  let name ← Read.within (.memberName kind) (Decode.lookup (pool.text nameIndex))
  let descIndex ← Read.u2 (kind.name ++ " descriptor_index")
  let desc ← Read.within (.memberDescriptor kind name) (Decode.lookup (pool.text descIndex))
  let count ← Read.u2 (kind.name ++ " attributes_count")
  let attributes ← Read.times count (Read.within (.member kind name) (Code.readAttribute pool))
  return { access := ⟨access⟩, name, desc, attributes }

/-- Reads a field. -/
def readField (pool : ConstantPool) : Read FieldModel := do
  let m ← readMember pool .field
  if ← Read.access (checkFieldDescriptor m.desc) then
    return { name := m.name, desc := m.desc, access := m.access }
  else Read.fail (.badField m.name m.desc)

/-- Reads a method with its body. Of several code attributes the first counts. -/
def readMethod (pool : ConstantPool) : Read MethodModel := do
  let m ← readMember pool .method
  match MethodDescriptor.parse m.desc with
  | .error (.outside access) => Read.access (.error access)
  | .error fault => Read.fail (.badMethod m.name m.desc fault)
  | .ok _ =>
    match m.attributes.lookup "Code" with
    | none => return { name := m.name, desc := m.desc, access := m.access }
    | some content =>
      if m.access.isAbstract || m.access.isNative then
        Read.fail (.unexpectedCode m.name m.desc)
      else
        let (code, localNames) ←
          Read.within (.body m.name m.desc) (Decode.lookup (Code.read pool content))
        return { name := m.name, desc := m.desc, access := m.access, code, localNames }

/-- Reads `n` attributes of a class; the last source file wins. -/
def readSourceFile (pool : ConstantPool) : Nat → String → Read String
  | 0, source => return source
  | n + 1, source => do
    let (name, content) ← Code.readAttribute pool
    if name == "SourceFile" && content.length == 2 then
      let source ←
        Read.within .sourceFile do
          Decode.lookup (pool.text (← Read.access (Binary.leading content.toArray 2)))
      readSourceFile pool n source
    else readSourceFile pool n source

/-- Reads an interface that a class implements. -/
def readInterface (pool : ConstantPool) : Read String := do
  let index ← Read.u2 "interface index"
  Read.within .interface (Decode.lookup (pool.className index))

/-- The name of the superclass, which is empty for a class that has none. -/
def superNameAt (pool : ConstantPool) (index : Nat) : Read String :=
  if index = 0 then return ""
  else Read.within .superClass (Decode.lookup (pool.className index))

/-- Reads what follows the constant pool of a class file. -/
def readBody (pool : ConstantPool) (major minor : Nat) : Read ClassModel := do
  let access ← Read.u2 "access_flags"
  let thisIndex ← Read.u2 "this_class"
  let name ← Read.within .thisClass (Decode.lookup (pool.className thisIndex))
  let superIndex ← Read.u2 "super_class"
  let superName ← superNameAt pool superIndex
  let interfaceCount ← Read.u2 "interfaces_count"
  let interfaces ← Read.times interfaceCount (readInterface pool)
  let fieldCount ← Read.u2 "fields_count"
  let fields ← Read.times fieldCount (readField pool)
  let methodCount ← Read.u2 "methods_count"
  let methods ← Read.times methodCount (readMethod pool)
  let attributeCount ← Read.u2 "attributes_count"
  let sourceFile ← readSourceFile pool attributeCount ""
  let left ← Read.remaining
  if left ≠ 0 then Read.fail (.trailing left) (some (← Read.position))
  else
    return {
      name, superName, interfaces, access := ⟨access⟩, fields, methods, major, minor, sourceFile }

/-- Reads a class file. -/
def read : Read ClassModel := do
  let magic' ← Read.u4 "magic"
  if magic' ≠ magic then Read.fail (.badMagic magic') (some 0)
  else
    let minor ← Read.u2 "minor_version"
    let major ← Read.u2 "major_version"
    if major < minMajor ∨ major > maxMajor then Read.fail (.unsupportedMajor major) (some 6)
    else
      let pool ← ConstantPool.read
      readBody pool major minor

/-- The class that a byte string spells. -/
def parse (data : List UInt8) : Except Malformed ClassModel := Read.runOn data read

end ClassModel

end ClassAudit
