import ClasspathAudit.Signature.Reader

/-
# Reading signatures byte by byte

Texts are kept as UTF-8, and a signature can be read from its bytes: the characters that delimit
its parts are single bytes, which no longer character contains. Here the place of a reader is a
number of bytes, it goes on by one byte at a time, and only names are cut out of the text. Nothing
can be cut out between two places if one of them is inside a character, so such a cut brings the
reader down.

The readers are those of characters, part by part. Their budgets go by the bytes that are left.
-/
namespace ClasspathAudit
namespace Signature
namespace ByteReader

/-! ### A place in the bytes -/

/-- Why a reader of bytes gives no result. -/
inductive Halt
  /-- It refuses the text. -/
  | refused (failure : Failure)
  /-- It was to cut the text inside a character. -/
  | badCut
deriving DecidableEq

/-- A reader of some part of a text, at a number of bytes from its start. -/
abbrev Reader := ReaderT String (StateT Nat (Except Halt))

/-- Refuses the text at the present place. -/
def fail {α : Type} (fault : Fault) : Reader α := fun _ position =>
  .error (.refused ⟨position, fault⟩)

/-- The present place. -/
def place : Reader Nat := fun _ position =>
  .ok (position, position)

/-- The byte at a place, if the place is not behind the text. -/
def byteAt? (text : String) (position : Nat) : Option UInt8 :=
  text.toUTF8.data[position]?

/-- The next byte, which stays unread. It is shown as the character of that number, so a byte of a
longer character is shown as none that delimits anything. -/
def peek : Reader (Option Char) := fun text position =>
  .ok ((byteAt? text position).map Char.ofUInt8, position)

/-- Passes over the next byte. -/
def bump : Reader Unit := fun _ position =>
  .ok ((), position + 1)

/-- Passes over `expected`, which has to be the next byte. -/
def expect (expected : Char) : Reader Unit := do
  match ← peek with
  | none => fail .unexpectedEnd
  | some x => if x = expected then bump else fail .unexpectedCharacter

/-- The text from the byte at `start` to before the one at `stop`. Both have to be where a character
starts or the text ends. -/
def cut (start stop : Nat) : Reader (List Char) := fun text position =>
  if h : (String.Pos.Raw.mk start).IsValid text ∧ (String.Pos.Raw.mk stop).IsValid text ∧
      start ≤ stop then
    .ok ((text.extract (text.pos _ h.1) (text.pos _ h.2.1)).toList, position)
  else .error .badCut

/-- Runs a reader with a budget that the bytes left cannot use up. -/
def withBudget {α : Type} (reader : Nat → Reader α) : Reader α := fun text position =>
  reader (text.utf8ByteSize - position + 1) text position

/-! ### Identifiers and type variables -/

/-- Passes over bytes up to one of `ends` or the end of the text. -/
def passName (ends : List Char) : Nat → Reader Unit
  | 0 => return ()
  | budget + 1 => do
    match ← peek with
    | none => return ()
    | some x =>
      if ends.contains x then return ()
      else if isReserved x then fail .badIdentifierCharacter
      else do
        bump
        passName ends budget

/-- Reads a non-empty run of characters up to one of `ends`, which stays unread. -/
def identifier (ends : List Char) : Reader (List Char) := do
  let start ← place
  withBudget (passName ends)
  let stop ← place
  if stop = start then fail .expectedIdentifier
  else
    match ← peek with
    | none => fail .unexpectedEnd
    | some _ => cut start stop

/-- Reads `T`, a name and `;`. -/
def typeVariable : Reader Unit := do
  expect 'T'
  let _ ← identifier [';']
  expect ';'

/-! ### Types -/

/-- Reads a primitive type or what `reference` reads. -/
def primitiveOr (reference : Reader (List ClassName)) : Reader (List ClassName) := do
  match ← peek with
  | some x =>
    if isPrimitive x then do
      bump
      return []
    else reference
  | none => reference

/-- Reads the type arguments of a segment if there are any. -/
def optionalArguments (arguments : Reader (List ClassName)) : Reader (List ClassName) := do
  if (← peek) = some '<' then do
    expect '<'
    if (← peek) = some '>' then fail .emptyTypeArguments
    else arguments
  else return []

mutual

/-- Reads a class type, a type variable or an array type. -/
def referenceType : Nat → Reader (List ClassName)
  | 0 => fail .unexpectedEnd
  | budget + 1 => do
    match ← peek with
    | some 'L' => do
      expect 'L'
      let name ← identifier segmentEnds
      classTail budget name
    | some 'T' => do
      typeVariable
      return []
    | some '[' => do
      bump
      primitiveOr (referenceType budget)
    | none => fail .unexpectedEnd
    | some _ => fail .expectedType

/-- Reads what follows a segment of the class type called `name` so far. -/
def classTail : Nat → List Char → Reader (List ClassName)
  | 0, _ => fail .unexpectedEnd
  | budget + 1, name => do
    let arguments ← optionalArguments (typeArguments budget)
    let found := arguments ++ [ClassName.ofInternal (String.ofList name)]
    match ← peek with
    | some '.' => do
      bump
      let inner ← identifier segmentEnds
      let more ← classTail budget (name ++ '$' :: inner)
      return found ++ more
    | _ => do
      expect ';'
      return found

/-- Reads type arguments up to the `>` that closes their list. -/
def typeArguments : Nat → Reader (List ClassName)
  | 0 => fail .unterminatedTypeArguments
  | budget + 1 => do
    match ← peek with
    | some '>' => do
      expect '>'
      return []
    | some '*' => do
      bump
      typeArguments budget
    | some '+' | some '-' => do
      bump
      let found ← referenceType budget
      let more ← typeArguments budget
      return found ++ more
    | none => fail .unterminatedTypeArguments
    | some _ => do
      let found ← referenceType budget
      let more ← typeArguments budget
      return found ++ more

end

/-- Reads one class type, type variable or array type. -/
def oneReference : Reader (List ClassName) :=
  withBudget referenceType

/-- Reads one type. -/
def oneType : Reader (List ClassName) :=
  withBudget fun budget => primitiveOr (referenceType budget)

/-! ### Type parameters -/

/-- Reads interface bounds, each after a `:`. -/
def interfaceBounds : Nat → Reader (List ClassName)
  | 0 => return []
  | budget + 1 => do
    match ← peek with
    | some ':' => do
      bump
      let found ← oneReference
      let more ← interfaceBounds budget
      return found ++ more
    | _ => return []

/-- Reads the class bound of a type parameter if there is one. -/
def classBound : Reader (List ClassName) := do
  match ← peek with
  | some 'L' | some 'T' | some '[' => oneReference
  | _ => return []

/-- Reads type parameters up to the `>` that closes their list. -/
def typeParameters : Nat → Reader (List ClassName)
  | 0 => fail .expectedIdentifier
  | budget + 1 => do
    match ← peek with
    | some '>' => do
      expect '>'
      return []
    | _ => do
      let _ ← identifier [':']
      expect ':'
      let bound ← classBound
      let bounds ← withBudget interfaceBounds
      match ← peek with
      | none => fail .unterminatedTypeParameters
      | some _ => do
        let more ← typeParameters budget
        return bound ++ bounds ++ more

/-- Reads the list of type parameters if there is one. -/
def optionalTypeParameters : Reader (List ClassName) := do
  match ← peek with
  | some '<' => do
    expect '<'
    match ← peek with
    | some '>' => fail .emptyTypeParameters
    | _ => withBudget typeParameters
  | _ => return []

/-! ### Methods -/

/-- Reads parameter types up to the `)` that closes their list. -/
def parameterTypes : Nat → Reader (List ClassName)
  | 0 => fail .unterminatedParameters
  | budget + 1 => do
    match ← peek with
    | some ')' => do
      expect ')'
      return []
    | none => fail .unterminatedParameters
    | some _ => do
      let found ← oneType
      let more ← parameterTypes budget
      return found ++ more

/-- Reads the result type, where `V` stands for none. -/
def resultType : Reader (List ClassName) := do
  match ← peek with
  | some 'V' => do
    bump
    return []
  | _ => oneType

/-- Reads what is thrown behind a `^`. -/
def thrownType : Reader (List ClassName) := do
  match ← peek with
  | some 'T' | some 'L' => oneReference
  | _ => fail .badThrows

/-- Reads the thrown types, each after a `^`, and then the end of the text. -/
def thrownTypes : Nat → Reader (List ClassName)
  | 0 => return []
  | budget + 1 => do
    match ← peek with
    | some '^' => do
      bump
      let found ← thrownType
      let more ← thrownTypes budget
      return found ++ more
    | none => return []
    | some _ => fail .trailing

/-- Reads a method type from its `(` to the end of the text. -/
def methodType : Reader (List ClassName) := do
  expect '('
  let parameters ← withBudget parameterTypes
  let result ← resultType
  let thrown ← withBudget thrownTypes
  return parameters ++ result ++ thrown

/-! ### Whole signatures -/

/-- Reads types to the end of the text. -/
def typesToEnd : Nat → Reader (List ClassName)
  | 0 => return []
  | budget + 1 => do
    match ← peek with
    | none => return []
    | some _ => do
      let found ← oneType
      let more ← typesToEnd budget
      return found ++ more

/-- Reads a whole signature: type parameters if any, then a method type or one or more types. -/
def whole : Reader (List ClassName) := do
  match ← peek with
  | none => fail .empty
  | some _ => do
    let parameters ← optionalTypeParameters
    match ← peek with
    | some '(' => do
      let method ← methodType
      return parameters ++ method
    | none => fail .missingType
    | some _ => do
      let types ← withBudget typesToEnd
      return parameters ++ types

/-- What reading the bytes of `signature` comes to. -/
def classTypes (signature : String) : Except Halt (List ClassName) :=
  (whole signature 0).map Prod.fst

end ByteReader
end Signature
end ClasspathAudit
