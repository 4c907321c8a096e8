import ClasspathAudit.ClassName
import ClasspathAudit.Signature.Error

/-
# Reading signatures

Every text of a class file that names types is read here: field descriptors, method descriptors
and the generic signatures that extend them with type parameters, type arguments, wildcards, type
variables and inner-class segments. The reader reports the class types alone, in order, the type
arguments of a class before the class and an outer class before its inner classes. A malformed
text gives no names at all.

The recursion is on a budget of steps. Each round of it consumes a character, so a budget of one
more than the number of characters left is never used up; every entry point below sets it so.
-/
namespace ClasspathAudit
namespace Signature

/-! ### A place in a signature -/

/-- The characters still to be read and the number of bytes before them. -/
structure Cursor where
  /-- What is still to be read. -/
  rest : List Char
  /-- The bytes before it. -/
  position : Nat
deriving DecidableEq

/-- A reader of some part of a signature. -/
abbrev Parser := StateT Cursor (Except Failure)

/-- Refuses the text at the present place. -/
def fail {α : Type} (fault : Fault) : Parser α := fun c =>
  .error ⟨c.position, fault⟩

/-- The next character, which stays unread. -/
def peek : Parser (Option Char) := fun c =>
  .ok (c.rest.head?, c)

/-- The number of bytes of a text in UTF-8. -/
def byteCount : List Char → Nat
  | [] => 0
  | c :: rest => c.utf8Size + byteCount rest

/-- Passes over the next character. -/
def bump : Parser Unit := fun c =>
  match c.rest with
  | [] => .ok ((), c)
  | x :: rest => .ok ((), ⟨rest, c.position + x.utf8Size⟩)

/-- Passes over `expected`, which has to be the next character. -/
def expect (expected : Char) : Parser Unit := fun c =>
  match c.rest with
  | [] => .error ⟨c.position, .unexpectedEnd⟩
  | x :: rest =>
    if x = expected then .ok ((), ⟨rest, c.position + x.utf8Size⟩)
    else .error ⟨c.position, .unexpectedCharacter⟩

/-! ### Identifiers and type variables -/

/-- The characters that no identifier holds. -/
def isReserved (c : Char) : Bool :=
  c == '<' || c == '>' || c == ';' || c == '[' || c == ':'

/-- Reads a non-empty run of characters up to one of `ends`, which stays unread. -/
def identifier (ends : List Char) : Parser (List Char) := fun c =>
  let name := c.rest.takeWhile fun x => !(ends.contains x || isReserved x)
  let after : Cursor := ⟨c.rest.drop name.length, c.position + byteCount name⟩
  match after.rest with
  | [] =>
    .error ⟨after.position, if name.isEmpty then .expectedIdentifier else .unexpectedEnd⟩
  | x :: _ =>
    if !ends.contains x then .error ⟨after.position, .badIdentifierCharacter⟩
    else if name.isEmpty then .error ⟨after.position, .expectedIdentifier⟩
    else .ok (name, after)

/-- Reads `T`, a name and `;`. -/
def typeVariable : Parser Unit := do
  expect 'T'
  let _ ← identifier [';']
  expect ';'

/-! ### Types -/

/-- The letters of the primitive types. -/
def isPrimitive (c : Char) : Bool :=
  c == 'B' || c == 'C' || c == 'D' || c == 'F' || c == 'I' || c == 'J' || c == 'S' || c == 'Z'

/-- Reads a primitive type or what `reference` reads. -/
def primitiveOr (reference : Parser (List ClassName)) : Parser (List ClassName) := do
  match ← peek with
  | some c =>
    if isPrimitive c then do
      bump
      return []
    else reference
  | none => reference

/-- The ends of a segment of a class type. -/
def segmentEnds : List Char := ['<', '.', ';']

mutual

/-- Reads a class type, a type variable or an array type. -/
def referenceType : Nat → Parser (List ClassName)
  | 0 => fail .unexpectedEnd
  | budget + 1 => do
    match ← peek with
    | some 'L' => do
      expect 'L'
      let name ← identifier segmentEnds
      classTail budget name
    | some 'T' => do
      typeVariable
      return []
    | some '[' => do
      bump
      primitiveOr (referenceType budget)
    | none => fail .unexpectedEnd
    | some _ => fail .expectedType

/-- Reads what follows a segment of the class type called `name` so far: its type arguments, then
further segments or the closing `;`. -/
def classTail : Nat → List Char → Parser (List ClassName)
  | 0, _ => fail .unexpectedEnd
  | budget + 1, name => do
    let arguments ← do
      match ← peek with
      | some '<' => do
        expect '<'
        match ← peek with
        | some '>' => fail .emptyTypeArguments
        | _ => typeArguments budget
      | _ => pure []
    let found := arguments ++ [ClassName.ofInternal (String.ofList name)]
    match ← peek with
    | some '.' => do
      bump
      let inner ← identifier segmentEnds
      let more ← classTail budget (name ++ '$' :: inner)
      return found ++ more
    | _ => do
      expect ';'
      return found

/-- Reads type arguments up to the `>` that closes their list. -/
def typeArguments : Nat → Parser (List ClassName)
  | 0 => fail .unterminatedTypeArguments
  | budget + 1 => do
    match ← peek with
    | some '>' => do
      expect '>'
      return []
    | some '*' => do
      bump
      typeArguments budget
    | some '+' | some '-' => do
      bump
      let found ← referenceType budget
      let more ← typeArguments budget
      return found ++ more
    | none => fail .unterminatedTypeArguments
    | some _ => do
      let found ← referenceType budget
      let more ← typeArguments budget
      return found ++ more

end

/-- Reads a type: primitive, or as `referenceType` does. -/
def javaType (budget : Nat) : Parser (List ClassName) :=
  primitiveOr (referenceType budget)

/-- Runs a reader of budget `n`, with a budget that the characters left cannot use up. -/
def withBudget {α : Type} (reader : Nat → Parser α) : Parser α := fun c =>
  reader (c.rest.length + 1) c

/-- Reads one type. -/
def oneType : Parser (List ClassName) :=
  withBudget javaType

/-- Reads one class type, type variable or array type. -/
def oneReference : Parser (List ClassName) :=
  withBudget referenceType

/-! ### Type parameters -/

/-- Reads interface bounds, each after a `:`. -/
def interfaceBounds : Nat → Parser (List ClassName)
  | 0 => return []
  | budget + 1 => do
    match ← peek with
    | some ':' => do
      bump
      let found ← oneReference
      let more ← interfaceBounds budget
      return found ++ more
    | _ => return []

/-- Reads the class bound of a type parameter, which is there exactly if the next character starts
a reference type. -/
def classBound : Parser (List ClassName) := do
  match ← peek with
  | some 'L' | some 'T' | some '[' => oneReference
  | _ => return []

/-- Reads type parameters up to the `>` that closes their list. -/
def typeParameters : Nat → Parser (List ClassName)
  | 0 => fail .expectedIdentifier
  | budget + 1 => do
    match ← peek with
    | some '>' => do
      expect '>'
      return []
    | _ => do
      let _ ← identifier [':']
      expect ':'
      let bound ← classBound
      let bounds ← withBudget interfaceBounds
      match ← peek with
      | none => fail .unterminatedTypeParameters
      | some _ => do
        let more ← typeParameters budget
        return bound ++ bounds ++ more

/-- Reads the list of type parameters if there is one. -/
def optionalTypeParameters : Parser (List ClassName) := do
  match ← peek with
  | some '<' => do
    expect '<'
    match ← peek with
    | some '>' => fail .emptyTypeParameters
    | _ => withBudget typeParameters
  | _ => return []

/-! ### Methods -/

/-- Reads parameter types up to the `)` that closes their list. -/
def parameterTypes : Nat → Parser (List ClassName)
  | 0 => fail .unterminatedParameters
  | budget + 1 => do
    match ← peek with
    | some ')' => do
      expect ')'
      return []
    | none => fail .unterminatedParameters
    | some _ => do
      let found ← oneType
      let more ← parameterTypes budget
      return found ++ more

/-- Reads the result type, where `V` stands for none. -/
def resultType : Parser (List ClassName) := do
  match ← peek with
  | some 'V' => do
    bump
    return []
  | _ => oneType

/-- Reads the thrown types, each after a `^`, and then the end of the text. -/
def thrownTypes : Nat → Parser (List ClassName)
  | 0 => return []
  | budget + 1 => do
    match ← peek with
    | some '^' => do
      bump
      let found ← do
        match ← peek with
        | some 'T' | some 'L' => oneReference
        | _ => fail .badThrows
      let more ← thrownTypes budget
      return found ++ more
    | none => return []
    | some _ => fail .trailing

/-- Reads a method type from its `(` to the end of the text. -/
def methodType : Parser (List ClassName) := do
  expect '('
  let parameters ← withBudget parameterTypes
  let result ← resultType
  let thrown ← withBudget thrownTypes
  return parameters ++ result ++ thrown

/-! ### Whole signatures -/

/-- Reads types to the end of the text. -/
def typesToEnd : Nat → Parser (List ClassName)
  | 0 => return []
  | budget + 1 => do
    match ← peek with
    | none => return []
    | some _ => do
      let found ← oneType
      let more ← typesToEnd budget
      return found ++ more

/-- Reads a whole signature: type parameters if any, then a method type or one or more types. -/
def whole : Parser (List ClassName) := do
  match ← peek with
  | none => fail .empty
  | some _ => do
    let parameters ← optionalTypeParameters
    match ← peek with
    | some '(' => do
      let method ← methodType
      return parameters ++ method
    | none => fail .missingType
    | some _ => do
      let types ← withBudget typesToEnd
      return parameters ++ types

/-- The class types named in a list of characters, in order. -/
def readChars (text : List Char) : Except Failure (List ClassName) :=
  (whole.run ⟨text, 0⟩).map Prod.fst

/-- The class types named in `signature`, in order, with repetitions: those in the type arguments
of a class before the class, an outer class before its inner classes. -/
def classTypes (signature : String) : Except Error (List ClassName) :=
  match readChars signature.toList with
  | .ok names => .ok names
  | .error failure => .error { toFailure := failure, signature }

end Signature
end ClasspathAudit
