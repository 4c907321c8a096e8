import ClasspathAudit.ClassFile.Member

/-
# Scanning a compiled class

One pass over a class file finds its name and every mention of a type: the header, the fields, the
methods with their code, and all annotations.
-/
namespace ClasspathAudit
namespace ClassFile

open Decoder

/-- The number that starts every class file. -/
def magicNumber : Nat := 0xCAFEBABE

/-- The first supported major version. -/
def minMajorVersion : Nat := 45

/-- The last supported major version. -/
def maxMajorVersion : Nat := 70

/-- Reads the number that marks class files. -/
def decodeMagic : Decoder Unit := do
  let magic ← u4
  if magic = magicNumber then return ()
  else failAt 0 (.badMagic magic)

/-- Reads the version, which stands at offset 4, the major number at 6. -/
def decodeVersion : Decoder Unit := do
  let minor ← u2
  let major ← u2
  if minMajorVersion ≤ major ∧ major ≤ maxMajorVersion then return ()
  else failAt 6 (.unsupportedVersion major minor)

/-- Reads the body of an attribute of a class. -/
def decodeClassAttribute (pool : ConstantPool) (name : String) : Decoder (List TypeUse) :=
  if name = "Signature" then do
    let text ← pool.readUtf8
    return [.signature .classSignature text]
  else if name = "Record" then
    Decoder.counted (decodeRecordComponent pool)
  else
    Annotations.ofAttribute pool name

/-- Reads the superclass, which only the root of all classes does not have. -/
def decodeSuperclass (pool : ConstantPool) : Decoder (List TypeUse) := do
  match ← pool.readClassName? with
  | some name => return [.internalName .superclass name]
  | none => return []

/-- Reads one interface. -/
def decodeInterface (pool : ConstantPool) : Decoder (List TypeUse) := do
  let name ← pool.readClassName
  return [.internalName .interface name]

/-- Reads a class after its constant pool. -/
def decodeBody (pool : ConstantPool) : Decoder ClassReferences := do
  skip 2
  let name ← pool.readClassName
  let superclass ← decodeSuperclass pool
  let interfaces ← Decoder.counted (decodeInterface pool)
  let fields ← Decoder.counted (decodeField pool)
  let methods ← Decoder.counted (decodeMethod pool)
  let attributes ← decodeAttributes pool (decodeClassAttribute pool)
  return ⟨ClassName.ofInternal name,
    superclass ++ interfaces ++ fields ++ methods ++ attributes⟩

/-- Reads a class file. -/
def decode : Decoder ClassReferences := do
  decodeMagic
  decodeVersion
  let pool ← ConstantPool.decode
  decodeBody pool

/-- What a class file mentions. Bytes after the class are of no account; malformed signatures in a
well-formed file are no error here. -/
def scan (bytes : Bytes) : Except Error ClassReferences :=
  (decode.run (Window.ofBytes bytes)).map Prod.fst

end ClassFile
end ClasspathAudit
