import ClasspathAudit.ClassFile.Annotations
import ClasspathAudit.ClassFile.Instruction

/-
# Fields, methods and record components

Each of them has a descriptor and attributes. A `Signature` attribute holds the generic form of the
type and replaces the descriptor; of several the last counts.
-/
namespace ClasspathAudit
namespace ClassFile

open Decoder

/-! ### Attributes -/

/-- Reads a counted list of attributes, each with the decoder that `body` gives for its name. What
the decoder leaves of an attribute is passed over. -/
def decodeAttributes {α : Type} (pool : ConstantPool) (body : String → Decoder (List α)) :
    Decoder (List α) :=
  Decoder.counted do
    let name ← pool.readUtf8
    let window ← prefixedWindow
    Decoder.within window (body name)

/-- What an attribute of a member contributes. -/
inductive MemberDetail
  /-- A mention of a type. -/
  | mention (mention : TypeUse)
  /-- The generic form of the member's type. -/
  | signature (text : String)
deriving DecidableEq

namespace MemberDetail

/-- The mentions among details, in order. -/
def mentions (details : List MemberDetail) : List TypeUse :=
  details.filterMap fun
    | mention m => some m
    | signature _ => none

/-- The type of a member with the given details: the last generic form, or else its descriptor. -/
def typeText (details : List MemberDetail) (descriptor : String) : String :=
  details.foldl (fun text detail =>
    match detail with
    | mention _ => text
    | signature text => text) descriptor

/-- Reads a decoder's mentions as details. -/
def ofMentions (decoder : Decoder (List TypeUse)) : Decoder (List MemberDetail) := do
  let mentions ← decoder
  return mentions.map mention

/-- Reads the body of a `Signature` attribute. -/
def ofSignature (pool : ConstantPool) : Decoder (List MemberDetail) := do
  let text ← pool.readUtf8
  return [signature text]

end MemberDetail

/-- Reads the attributes of a member whose own mentions `body` reads. The result is what they
mention, then the type of the member as a mention of the given kind. -/
def decodeDetails (pool : ConstantPool) (kind : ReferenceKind) (descriptor : String)
    (body : String → Decoder (List TypeUse)) : Decoder (List TypeUse) := do
  let details ← decodeAttributes pool fun name =>
    if name = "Signature" then MemberDetail.ofSignature pool
    else MemberDetail.ofMentions (body name)
  return MemberDetail.mentions details ++
    [.signature kind (MemberDetail.typeText details descriptor)]

/-! ### Record components and fields -/

/-- Reads a record component. -/
def decodeRecordComponent (pool : ConstantPool) : Decoder (List TypeUse) := do
  skip 2
  let descriptor ← pool.readUtf8
  decodeDetails pool .recordComponent descriptor (Annotations.ofAttribute pool)

/-- What a constant value of a field mentions: the class, if the constant is one. -/
def fieldConstant (pool : ConstantPool) (index offset : Nat) : Except Error (List TypeUse) := do
  match ← pool.get index offset with
  | .classInfo _ => do
    let name ← pool.className index offset
    return [.internalName .fieldConstant name]
  | _ => return []

/-- Reads a field. -/
def decodeField (pool : ConstantPool) : Decoder (List TypeUse) := do
  skip 4
  let descriptor ← pool.readUtf8
  decodeDetails pool .fieldType descriptor fun name =>
    if name = "ConstantValue" then ConstantPool.readIndex (fieldConstant pool)
    else Annotations.ofAttribute pool name

/-! ### Code -/

/-- A local variable of a method. -/
structure LocalVariable where
  /-- Where in the code its scope starts. -/
  start : Nat
  /-- Its index among the local variables. -/
  index : Nat
  /-- Its name. -/
  name : String
  /-- Its type. -/
  descriptor : String
deriving DecidableEq

namespace LocalVariable

/-- Whether the compiler, not the source text, declares the variable. -/
def isImplicit (v : LocalVariable) : Bool :=
  v.name == "this" || v.name == "super"

/-- Whether two entries describe one variable. -/
def sameSlot (v w : LocalVariable) : Bool :=
  v.start == w.start && v.index == w.index

/-- Reads a counted list of local variables. -/
def decodeList (pool : ConstantPool) : Decoder (List LocalVariable) :=
  Decoder.counted do
    let start ← u2
    skip 2
    let name ← pool.readUtf8
    let descriptor ← pool.readUtf8
    let index ← u2
    return [⟨start, index, name, descriptor⟩]

/-- The types of local variables: those of the plain table, each by its generic form if the other
table has one, then those that the table of generic forms alone lists. -/
def mentions (plain generic : List LocalVariable) : List TypeUse :=
  ((plain.filter (!·.isImplicit)).map fun v =>
    .signature .localVariable ((generic.find? (·.sameSlot v)).getD v).descriptor) ++
  ((generic.filter fun v => !v.isImplicit && !plain.any (·.sameSlot v)).map fun v =>
    .signature .localVariable v.descriptor)

end LocalVariable

/-- What an attribute of the code of a method contributes. -/
inductive CodeDetail
  /-- A mention of a type. -/
  | mention (mention : TypeUse)
  /-- An entry of the table of local variables. -/
  | plainVariable (v : LocalVariable)
  /-- An entry of the table of local variables with generic types. -/
  | genericVariable (v : LocalVariable)
deriving DecidableEq

namespace CodeDetail

/-- Reads the body of an attribute of code. -/
def decode (pool : ConstantPool) (name : String) : Decoder (List CodeDetail) := do
  if name = "LocalVariableTable" then do
    let locals ← LocalVariable.decodeList pool
    return locals.map plainVariable
  else if name = "LocalVariableTypeTable" then do
    let locals ← LocalVariable.decodeList pool
    return locals.map genericVariable
  else do
    let mentions ← Annotations.ofAttribute pool name
    return mentions.map mention

/-- What the attributes of code mention: first by themselves, then the local variables. -/
def mentions (details : List CodeDetail) : List TypeUse :=
  (details.filterMap fun | mention m => some m | _ => none) ++
  LocalVariable.mentions
    (details.filterMap fun | plainVariable v => some v | _ => none)
    (details.filterMap fun | genericVariable v => some v | _ => none)

end CodeDetail

/-- Reads an entry of the exception table; catching everything names no class. -/
def decodeCatch (pool : ConstantPool) : Decoder (List TypeUse) := do
  skip 6
  match ← pool.readClassName? with
  | some name => return [.internalName .catchType name]
  | none => return []

/-- Reads the body of a `Code` attribute. -/
def decodeCode (pool : ConstantPool) : Decoder (List TypeUse) := do
  skip 4
  let code ← prefixedWindow
  let instructions ← Decoder.within code (Instruction.sequence pool)
  let catches ← Decoder.counted (decodeCatch pool)
  let details ← decodeAttributes pool (CodeDetail.decode pool)
  return instructions ++ catches ++ CodeDetail.mentions details

/-! ### Methods -/

/-- Reads the body of an attribute of a method. -/
def decodeMethodAttribute (pool : ConstantPool) (name : String) : Decoder (List TypeUse) :=
  if name = "Exceptions" then
    Decoder.counted do
      let exception ← pool.readClassName
      return [.internalName .thrownException exception]
  else if name = "Code" then
    decodeCode pool
  else if name = "RuntimeVisibleParameterAnnotations" ∨
      name = "RuntimeInvisibleParameterAnnotations" then do
    let parameters ← u1
    Decoder.repeated parameters (Annotations.list pool)
  else if name = "AnnotationDefault" then
    Annotations.value pool
  else
    Annotations.ofAttribute pool name

/-- Reads a method. -/
def decodeMethod (pool : ConstantPool) : Decoder (List TypeUse) := do
  skip 4
  let descriptor ← pool.readUtf8
  decodeDetails pool .methodType descriptor (decodeMethodAttribute pool)

end ClassFile
end ClasspathAudit
