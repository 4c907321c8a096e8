import ClasspathAudit.ClassFile.InPlace.Annotations
import ClasspathAudit.ClassFile.InPlace.Instruction
import ClasspathAudit.ClassFile.Scan

/-
# Scanning a compiled class in place
-/
namespace ClasspathAudit
namespace ClassFile
namespace InPlace

/-! ### Attributes -/

/-- Reads a counted list of attributes, each with the reading that `body` gives for its name. What
the reading leaves of an attribute is passed over. -/
def attributes {α : Type} (pool : ConstantPool) (body : String → Reading (List α)) :
    Reading (List α) :=
  counted do
    let name ← readUtf8 pool
    let inner ← prefixedWindow
    within inner (body name)

/-- Reads the body of a `Signature` attribute of a member. -/
def signatureDetail (pool : ConstantPool) : Reading (List MemberDetail) := do
  let text ← readUtf8 pool
  return [.signature text]

/-- Reads the attributes of a member whose own mentions `body` reads. The result is what they
mention, then the type of the member as a mention of the given kind. -/
def memberDetails (pool : ConstantPool) (kind : ReferenceKind) (descriptor : String)
    (body : String → Reading (List TypeUse)) : Reading (List TypeUse) := do
  let details ← attributes pool fun name =>
    if name = "Signature" then signatureDetail pool
    else do
      let mentions ← body name
      return mentions.map .mention
  return MemberDetail.mentions details ++
    [.signature kind (MemberDetail.typeText details descriptor)]

/-! ### Record components and fields -/

/-- Reads a record component. -/
def recordComponent (pool : ConstantPool) : Reading (List TypeUse) := do
  skip 2
  let descriptor ← readUtf8 pool
  memberDetails pool .recordComponent descriptor (ofAttribute pool)

/-- Reads a field. -/
def field (pool : ConstantPool) : Reading (List TypeUse) := do
  skip 4
  let descriptor ← readUtf8 pool
  memberDetails pool .fieldType descriptor fun name =>
    if name = "ConstantValue" then readIndex (fieldConstant pool)
    else ofAttribute pool name

/-! ### Code -/

/-- Reads a counted list of local variables. -/
def localVariables (pool : ConstantPool) : Reading (List LocalVariable) :=
  counted do
    let start ← u2
    skip 2
    let name ← readUtf8 pool
    let descriptor ← readUtf8 pool
    let index ← u2
    return [⟨start.toNat, index.toNat, name, descriptor⟩]

/-- Reads the body of an attribute of code. -/
def codeDetail (pool : ConstantPool) (name : String) : Reading (List CodeDetail) := do
  if name = "LocalVariableTable" then do
    let locals ← localVariables pool
    return locals.map .plainVariable
  else if name = "LocalVariableTypeTable" then do
    let locals ← localVariables pool
    return locals.map .genericVariable
  else do
    let mentions ← ofAttribute pool name
    return mentions.map .mention

/-- Reads an entry of the exception table; catching everything names no class. -/
def catchEntry (pool : ConstantPool) : Reading (List TypeUse) := do
  skip 6
  match ← readClassName? pool with
  | some name => return [.internalName .catchType name]
  | none => return []

/-- Reads the body of a `Code` attribute. -/
def code (pool : ConstantPool) : Reading (List TypeUse) := do
  skip 4
  let inner ← prefixedWindow
  let instructions ← within inner (sequence pool)
  let catches ← counted (catchEntry pool)
  let details ← attributes pool (codeDetail pool)
  return instructions ++ catches ++ CodeDetail.mentions details

/-! ### Methods -/

/-- Reads the body of an attribute of a method. -/
def methodAttribute (pool : ConstantPool) (name : String) : Reading (List TypeUse) :=
  if name = "Exceptions" then
    counted do
      let exception ← readClassName pool
      return [.internalName .thrownException exception]
  else if name = "Code" then
    code pool
  else if name = "RuntimeVisibleParameterAnnotations" ∨
      name = "RuntimeInvisibleParameterAnnotations" then do
    let parameters ← u1
    repeated parameters.toNat (annotationList pool)
  else if name = "AnnotationDefault" then
    value pool
  else
    ofAttribute pool name

/-- Reads a method. -/
def method (pool : ConstantPool) : Reading (List TypeUse) := do
  skip 4
  let descriptor ← readUtf8 pool
  memberDetails pool .methodType descriptor (methodAttribute pool)

/-! ### Classes -/

/-- Reads the number that marks class files. -/
def magic : Reading Unit := do
  let number ← u4
  if number.toNat = magicNumber then return ()
  else failAt 0 (.badMagic number.toNat)

/-- Reads the version, which stands at offset 4, the major number at 6. -/
def version : Reading Unit := do
  let minor ← u2
  let major ← u2
  if minMajorVersion ≤ major.toNat ∧ major.toNat ≤ maxMajorVersion then return ()
  else failAt 6 (.unsupportedVersion major.toNat minor.toNat)

/-- Reads the body of an attribute of a class. -/
def classAttribute (pool : ConstantPool) (name : String) : Reading (List TypeUse) :=
  if name = "Signature" then do
    let text ← readUtf8 pool
    return [.signature .classSignature text]
  else if name = "Record" then
    counted (recordComponent pool)
  else
    ofAttribute pool name

/-- Reads the superclass, which only the root of all classes does not have. -/
def superclass (pool : ConstantPool) : Reading (List TypeUse) := do
  match ← readClassName? pool with
  | some name => return [.internalName .superclass name]
  | none => return []

/-- Reads one interface. -/
def interface (pool : ConstantPool) : Reading (List TypeUse) := do
  let name ← readClassName pool
  return [.internalName .interface name]

/-- Reads a class after its constant pool. -/
def body (pool : ConstantPool) : Reading ClassReferences := do
  skip 2
  let name ← readClassName pool
  let superclass ← superclass pool
  let interfaces ← counted (interface pool)
  let fields ← counted (field pool)
  let methods ← counted (method pool)
  let attributes ← attributes pool (classAttribute pool)
  return ⟨ClassName.ofInternal name,
    superclass ++ interfaces ++ fields ++ methods ++ attributes⟩

/-- Reads a class file. -/
def file : Reading ClassReferences := do
  magic
  version
  let pool ← constantPool
  body pool

/-- What reading the bytes of a class file in place comes to. -/
def scan (bytes : Bytes) : Except Halt ClassReferences :=
  (file.run (Reader.ofBytes bytes)).map Prod.fst

end InPlace
end ClassFile
end ClasspathAudit
