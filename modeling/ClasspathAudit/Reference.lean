import Std.Data.ExtTreeSet
import ClasspathAudit.Signature.Reader

/-
# References of a compiled class

A compiled class mentions types in many places. Each mention is kept as it stands in the file, with
the kind of place; what classes it names is found out afterwards, so that one malformed signature
costs no more than the names in it.
-/
namespace ClasspathAudit

/-! ### Places of a mention -/

/-- The kind of place where a compiled class mentions a type. -/
inductive ReferenceKind
  | superclass
  | interface
  | classSignature
  | fieldType
  | fieldConstant
  | methodType
  | thrownException
  | annotationType
  | annotationValue
  | recordComponent
  | memberOwner
  | memberType
  | instructionOperand
  | arrayCreation
  | constantLoad
  | callSite
  | catchType
  | localVariable
deriving DecidableEq

namespace ReferenceKind

/-- The name under which a kind is shown. -/
def label : ReferenceKind → String
  | superclass => "superclass"
  | interface => "interface"
  | classSignature => "class-signature"
  | fieldType => "field-type"
  | fieldConstant => "field-constant"
  | methodType => "method-type"
  | thrownException => "thrown-exception"
  | annotationType => "annotation"
  | annotationValue => "annotation-value"
  | recordComponent => "record-component"
  | memberOwner => "member-owner"
  | memberType => "member-type"
  | instructionOperand => "instruction-operand"
  | arrayCreation => "array-creation"
  | constantLoad => "constant-load"
  | callSite => "call-site"
  | catchType => "catch-type"
  | localVariable => "local-variable"

/-- All kinds, in their order. -/
def all : List ReferenceKind :=
  [superclass, interface, classSignature, fieldType, fieldConstant, methodType, thrownException,
    annotationType, annotationValue, recordComponent, memberOwner, memberType, instructionOperand,
    arrayCreation, constantLoad, callSite, catchType, localVariable]

theorem mem_all (kind : ReferenceKind) : kind ∈ all := by
  cases kind <;> simp [all]

/-- The kind shown as `label`. -/
def ofLabel? (label : String) : Option ReferenceKind :=
  all.find? (·.label == label)

/-- The place of a kind in their order. -/
def rank (kind : ReferenceKind) : Nat :=
  all.idxOf kind

instance : Ord ReferenceKind := ⟨compareOn rank⟩

end ReferenceKind

/-! ### Mentions -/

/-- A type as a class file spells it. -/
inductive RawType
  /-- The name in a class constant: a class such as `java/lang/String`, or an array type such as
  `[Ljava/lang/String;`. -/
  | internalName (name : String)
  /-- A descriptor or a generic signature. -/
  | signature (text : String)
deriving DecidableEq

/-- One mention of a type in a compiled class. -/
structure TypeUse where
  /-- The kind of place. -/
  kind : ReferenceKind
  /-- The type as spelled there. -/
  raw : RawType
deriving DecidableEq

namespace TypeUse

/-- A mention by the name in a class constant. -/
def internalName (kind : ReferenceKind) (name : String) : TypeUse :=
  ⟨kind, .internalName name⟩

/-- A mention by a descriptor or signature. -/
def signature (kind : ReferenceKind) (text : String) : TypeUse :=
  ⟨kind, .signature text⟩

/-- The classes that a mention names; the name of an array type names its element type. -/
def classNames (mention : TypeUse) : Except Signature.Error (List ClassName) :=
  match mention.raw with
  | .internalName name =>
    if name.toList.head? = some '[' then Signature.classTypes name
    else .ok [ClassName.ofInternal name]
  | .signature text => Signature.classTypes text

end TypeUse

/-- A class named by a compiled class, with the kind of place. -/
structure Reference where
  /-- The kind of place. -/
  kind : ReferenceKind
  /-- The class named there. -/
  className : ClassName
deriving DecidableEq

/-! ### Classes in sets -/

/-- A set of classes, listed in the order of their names. -/
abbrev ClassSet := Std.ExtTreeSet ClassName compare

/-- The classes that one compiled class uses, and the signatures that could not be read. -/
structure ReferencedClasses where
  /-- The classes used. -/
  classes : ClassSet
  /-- The malformed signatures, in order. -/
  skipped : List Signature.Error

/-- All that one compiled class mentions. -/
structure ClassReferences where
  /-- The name of the class itself. -/
  className : ClassName
  /-- Its mentions of types, in the order of the file. -/
  typeUses : List TypeUse
deriving DecidableEq

namespace ClassReferences

/-- The references of one mention, or its error in their place. -/
def expand (mention : TypeUse) : List (Except Signature.Error Reference) :=
  match mention.classNames with
  | .ok names => names.map fun name => .ok ⟨mention.kind, name⟩
  | .error error => [.error error]

/-- Every reference of the class, in order; a malformed signature stands as one error in place of
the references it would have given. -/
def references (c : ClassReferences) : List (Except Signature.Error Reference) :=
  c.typeUses.flatMap expand

/-- Whether `name` counts as a class that `c` uses: it is another class and no anonymous one. -/
def isExternal (c : ClassReferences) (name : ClassName) : Bool :=
  name != c.className && !name.isAnonymous

/-- The classes that `c` uses: all that its references name, less itself and anonymous classes. -/
def referencedClasses (c : ClassReferences) : ReferencedClasses where
  classes := .ofList (c.references.filterMap fun
    | .ok reference => if c.isExternal reference.className then some reference.className else none
    | .error _ => none)
  skipped := c.references.filterMap fun
    | .ok _ => none
    | .error error => some error

end ClassReferences
end ClasspathAudit
