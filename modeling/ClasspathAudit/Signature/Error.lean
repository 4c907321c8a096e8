/-
# Faults of signatures

Why a descriptor or generic signature is not one, and where that shows.
-/
namespace ClasspathAudit
namespace Signature

/-- What the reader of a signature met in place of what the grammar asks for. -/
inductive Fault
  /-- The text is empty. -/
  | empty
  /-- Nothing follows the type parameters. -/
  | missingType
  /-- The text ends before the `)` of the parameters. -/
  | unterminatedParameters
  /-- A `^` is followed by neither a class type nor a type variable. -/
  | badThrows
  /-- Something follows a complete method signature. -/
  | trailing
  /-- The list of type parameters is `<>`. -/
  | emptyTypeParameters
  /-- The text ends before the `>` of the type parameters. -/
  | unterminatedTypeParameters
  /-- The text ends where more has to follow. -/
  | unexpectedEnd
  /-- Something stands where a type has to. -/
  | expectedType
  /-- The list of type arguments is `<>`. -/
  | emptyTypeArguments
  /-- The text ends before the `>` of the type arguments. -/
  | unterminatedTypeArguments
  /-- An identifier holds a character that delimits types. -/
  | badIdentifierCharacter
  /-- An identifier has no character. -/
  | expectedIdentifier
  /-- Another character than the one required. -/
  | unexpectedCharacter
deriving DecidableEq

namespace Fault

/-- The wording of a fault. -/
def message : Fault → String
  | empty => "empty signature"
  | missingType => "missing type after type parameters"
  | unterminatedParameters => "unterminated parameter list"
  | badThrows => "expected class type or type variable after '^'"
  | trailing => "trailing characters after method signature"
  | emptyTypeParameters => "empty type parameter list"
  | unterminatedTypeParameters => "unterminated type parameter list"
  | unexpectedEnd => "unexpected end of signature"
  | expectedType => "expected a type"
  | emptyTypeArguments => "empty type argument list"
  | unterminatedTypeArguments => "unterminated type argument list"
  | badIdentifierCharacter => "unexpected character in identifier"
  | expectedIdentifier => "expected an identifier"
  | unexpectedCharacter => "unexpected character"

end Fault

/-- A fault and the number of bytes of the signature before it. -/
structure Failure where
  /-- Bytes before the place of the fault. -/
  position : Nat
  /-- What is wrong there. -/
  fault : Fault
deriving DecidableEq

/-- A signature that is refused, with the reason. -/
structure Error extends Failure where
  /-- The whole signature. -/
  signature : String
deriving DecidableEq

namespace Error

/-- The wording of a refusal. -/
def message (error : Error) : String :=
  s!"Malformed signature '{error.signature}' at position {error.position}: " ++
    error.fault.message

end Error
end Signature
end ClasspathAudit
