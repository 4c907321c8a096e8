import Mathlib.Tactic.Common
import ClasspathAudit.Signature.Reader

/-
# The grammar of signatures

The derivations of the grammar, as trees. A tree is written as the text that it derives, and names
classes: one for each segment of a class type, those in the type arguments of a segment before the
segment, an outer segment before an inner one.

The grammar leaves one choice open, which is settled by what follows: the class bound of a type
parameter is there exactly if the next character starts a reference type.
-/
namespace ClasspathAudit

/-- The class called `name` inside another. -/
def ClassName.inner (outer : ClassName) (name : List Char) : ClassName :=
  ⟨outer.text ++ "." ++ (ofInternal (String.ofList name)).text⟩

namespace Signature

/-! ### Alphabets

The grammar has two sets of characters in common with the reader. They are those of the class-file
format, whatever test the reader makes. -/

/-- A primitive type has one of the letters that the class-file format gives these types. -/
lemma isPrimitive_iff {c : Char} :
    isPrimitive c = true ↔ c ∈ ['B', 'C', 'D', 'F', 'I', 'J', 'S', 'Z'] := by
  simp [isPrimitive, or_assoc]

/-- A name holds none of the characters that stand around names in the grammar, save the dot. -/
lemma isReserved_iff {c : Char} : isReserved c = true ↔ c ∈ ['<', '>', ';', '[', ':'] := by
  simp [isReserved, or_assoc]

lemma isReserved_eq_false_iff {c : Char} :
    isReserved c = false ↔ c ∉ ['<', '>', ';', '[', ':'] := by
  rw [← isReserved_iff, Bool.not_eq_true]

/-! ### Identifiers -/

/-- A non-empty run of characters that delimit nothing. -/
@[ext]
structure Identifier where
  /-- The characters. -/
  chars : List Char
  /-- There is one. -/
  nonempty : chars ≠ []
  /-- None of them is reserved. -/
  unreserved : ∀ c ∈ chars, isReserved c = false

/-- An identifier in which no dot separates segments. -/
@[ext]
structure SegmentName extends Identifier where
  /-- There is no dot. -/
  undotted : '.' ∉ chars

/-- A letter of a primitive type. -/
abbrev PrimitiveLetter := { c : Char // isPrimitive c = true }

/-! ### Types -/

/-- The wildcard before a type argument. -/
inductive Wildcard
  | extends
  | super
deriving DecidableEq

mutual

/-- A class type, type variable or array type. -/
inductive Reference
  /-- A class type: `L`, a segment, then inner segments, each after a dot, and `;`. -/
  | classType (first : Segment) (inner : List Segment)
  /-- A type variable: `T`, an identifier and `;`. -/
  | typeVariable (name : Identifier)
  /-- An array type: `[` and a type. -/
  | array (element : JavaType)

/-- A primitive type or a reference type. -/
inductive JavaType
  /-- A primitive type. -/
  | primitive (letter : PrimitiveLetter)
  /-- A class type, type variable or array type. -/
  | reference (r : Reference)

/-- A segment of a class type with its type arguments, of which there may be none. -/
inductive Segment
  | mk (name : SegmentName) (arguments : List Argument)

/-- A type argument. -/
inductive Argument
  /-- The argument `*`. -/
  | any
  /-- A type, perhaps behind a wildcard. -/
  | type (wildcard : Option Wildcard) (r : Reference)

end

/-- The character of a wildcard. -/
def Wildcard.char : Wildcard → Char
  | .extends => '+'
  | .super => '-'

mutual

/-- The text of a reference type. -/
def Reference.print : Reference → List Char
  | .classType first inner => 'L' :: (first.print ++ (printInner inner ++ [';']))
  | .typeVariable name => 'T' :: (name.chars ++ [';'])
  | .array element => '[' :: element.print

/-- The text of a type. -/
def JavaType.print : JavaType → List Char
  | .primitive letter => [letter.val]
  | .reference r => r.print

/-- The text of a segment. -/
def Segment.print : Segment → List Char
  | .mk name arguments =>
    name.chars ++ if arguments.isEmpty then [] else '<' :: (printArguments arguments ++ ['>'])

/-- The text of inner segments. -/
def printInner : List Segment → List Char
  | [] => []
  | s :: rest => '.' :: (s.print ++ printInner rest)

/-- The text of type arguments. -/
def printArguments : List Argument → List Char
  | [] => []
  | a :: rest => a.print ++ printArguments rest

/-- The text of a type argument. -/
def Argument.print : Argument → List Char
  | .any => ['*']
  | .type wildcard r => (wildcard.map Wildcard.char).toList ++ r.print

end

mutual

/-- The classes that a reference type names. -/
def Reference.classNames : Reference → List ClassName
  | .classType first inner => first.classNames none ++ innerNames (first.className none) inner
  | .typeVariable _ => []
  | .array element => element.classNames

/-- The classes that a type names. -/
def JavaType.classNames : JavaType → List ClassName
  | .primitive _ => []
  | .reference r => r.classNames

/-- The classes that a segment names, which is inside `outer` if there is one. -/
def Segment.classNames (outer : Option ClassName) : Segment → List ClassName
  | .mk name arguments => argumentNames arguments ++ [Segment.className outer (.mk name arguments)]

/-- The class that a segment stands for. -/
def Segment.className (outer : Option ClassName) : Segment → ClassName
  | .mk name _ =>
    match outer with
    | none => .ofInternal (String.ofList name.chars)
    | some outer => outer.inner name.chars

/-- The classes that the segments inside `outer` name. -/
def innerNames (outer : ClassName) : List Segment → List ClassName
  | [] => []
  | s :: rest => s.classNames (some outer) ++ innerNames (s.className (some outer)) rest

/-- The classes that type arguments name. -/
def argumentNames : List Argument → List ClassName
  | [] => []
  | a :: rest => a.classNames ++ argumentNames rest

/-- The classes that a type argument names. -/
def Argument.classNames : Argument → List ClassName
  | .any => []
  | .type _ r => r.classNames

end

/-! ### Type parameters -/

/-- A type parameter: an identifier and `:`, then the class bound if any, then interface bounds,
each after a further `:`. -/
structure TypeParameter where
  /-- The name. -/
  name : Identifier
  /-- The class bound. -/
  classBound : Option Reference
  /-- The interface bounds. -/
  interfaceBounds : List Reference

namespace TypeParameter

/-- The text of an interface bound. -/
def printBound (r : Reference) : List Char :=
  ':' :: r.print

/-- The text behind the first `:`. -/
def printBounds (p : TypeParameter) : List Char :=
  p.classBound.elim [] Reference.print ++ p.interfaceBounds.flatMap printBound

/-- The text of a type parameter. -/
def print (p : TypeParameter) : List Char :=
  p.name.chars ++ ':' :: p.printBounds

/-- The classes that a type parameter names. -/
def classNames (p : TypeParameter) : List ClassName :=
  p.classBound.elim [] Reference.classNames ++ p.interfaceBounds.flatMap Reference.classNames

/-- The text of several type parameters. -/
def printAll (parameters : List TypeParameter) : List Char :=
  parameters.flatMap print

/-- Whether a text starts as a reference type does. -/
def startsReference : List Char → Bool
  | c :: _ => c == 'L' || c == 'T' || c == '['
  | [] => false

/-- Whether each type parameter has a class bound exactly if what stands behind its `:` starts as a
reference type does. -/
def TakeBounds : List TypeParameter → Prop
  | [] => True
  | p :: rest =>
    (p.classBound.isSome ↔ startsReference (p.printBounds ++ (printAll rest ++ ['>']))) ∧
      TakeBounds rest

end TypeParameter

/-! ### Methods -/

/-- What a method declares to throw. -/
inductive Thrown
  /-- A class. -/
  | classType (first : Segment) (inner : List Segment)
  /-- A type variable. -/
  | typeVariable (name : Identifier)

/-- What is thrown, as a type. -/
def Thrown.toReference : Thrown → Reference
  | classType first inner => .classType first inner
  | typeVariable name => .typeVariable name

/-- The text of something thrown. -/
def Thrown.print (t : Thrown) : List Char :=
  '^' :: t.toReference.print

/-- A method type: parameter types between parentheses, the result type, and what is thrown. -/
structure MethodType where
  /-- The types of the parameters. -/
  parameters : List JavaType
  /-- The type of the result, if there is one. -/
  result : Option JavaType
  /-- What the method declares to throw. -/
  thrown : List Thrown

namespace MethodType

/-- The text of a result type. -/
def printResult (result : Option JavaType) : List Char :=
  result.elim ['V'] JavaType.print

/-- The text of a method type. -/
def print (m : MethodType) : List Char :=
  '(' :: (m.parameters.flatMap JavaType.print ++
    ')' :: (printResult m.result ++ m.thrown.flatMap Thrown.print))

/-- The classes that a method type names. -/
def classNames (m : MethodType) : List ClassName :=
  m.parameters.flatMap JavaType.classNames ++ m.result.elim [] JavaType.classNames ++
    m.thrown.flatMap fun t => t.toReference.classNames

end MethodType

/-! ### Whole signatures -/

/-- What follows the type parameters. -/
inductive Body
  /-- The type of a method. -/
  | method (m : MethodType)
  /-- One or more types. -/
  | types (first : JavaType) (rest : List JavaType)

namespace Body

/-- The text of a body. -/
def print : Body → List Char
  | method m => m.print
  | types first rest => first.print ++ rest.flatMap JavaType.print

/-- The classes that a body names. -/
def classNames : Body → List ClassName
  | method m => m.classNames
  | types first rest => first.classNames ++ rest.flatMap JavaType.classNames

end Body

/-- A derivation of a whole signature: a list of type parameters in angle brackets, which is left
out if it is empty, and a body. -/
structure Derivation where
  /-- The type parameters. -/
  parameters : List TypeParameter
  /-- What follows them. -/
  body : Body

namespace Derivation

/-- The text of a list of type parameters. -/
def printParameters (parameters : List TypeParameter) : List Char :=
  if parameters.isEmpty then [] else '<' :: (TypeParameter.printAll parameters ++ ['>'])

/-- Whether a text is derived so. -/
structure Derives (d : Derivation) (text : List Char) : Prop where
  print : printParameters d.parameters ++ d.body.print = text
  takeBounds : TypeParameter.TakeBounds d.parameters

/-- The classes that a signature names. -/
def classNames (d : Derivation) : List ClassName :=
  d.parameters.flatMap TypeParameter.classNames ++ d.body.classNames

end Derivation
end Signature
end ClasspathAudit
