import ClasspathAudit.Proofs.Signature.Erasure

/-
# Signatures of the class-file format

The grammar that the class-file format has for the signatures of classes, methods and fields, as
trees. It is stricter than what the reader accepts in that the packages of a class type are names of
their own and no part of any name holds a dot or a slash, and more liberal in that no choice in it
depends on what follows: a type parameter may have a class bound, interface bounds, both or neither.

Each tree is one of the reader's grammar, if one does not ask that bounds be taken there. This
translation keeps the text and the classes that are named.
-/
namespace ClasspathAudit
namespace Signature
namespace Format

/-! ### Trees -/

/-- A name: one or more characters, none of which the format uses for anything else. -/
@[ext]
structure Name where
  /-- The characters. -/
  chars : List Char
  /-- There is one. -/
  nonempty : chars ≠ []
  /-- None of them delimits anything. -/
  allowed : ∀ c ∈ chars, c ∉ ['.', ';', '[', '/', '<', '>', ':']

mutual

/-- A class type, type variable or array type. -/
inductive ReferenceType
  /-- A class type. -/
  | classType (t : ClassType)
  /-- A type variable. -/
  | typeVariable (name : Name)
  /-- An array type. -/
  | array (element : JavaType)

/-- A primitive type or a reference type. -/
inductive JavaType
  /-- A primitive type. -/
  | primitive (letter : PrimitiveLetter)
  /-- A reference type. -/
  | reference (r : ReferenceType)

/-- The type of a class: its packages, an outermost class and the classes inside one another down to
the class meant. -/
inductive ClassType
  | mk (packages : List Name) (outermost : SimpleClass) (inner : List SimpleClass)

/-- A class by its own name, with its type arguments, of which there may be none. -/
inductive SimpleClass
  | mk (name : Name) (arguments : List TypeArgument)

/-- A type argument. -/
inductive TypeArgument
  /-- The argument `*`. -/
  | any
  /-- A type, perhaps behind a wildcard. -/
  | type (wildcard : Option Wildcard) (r : ReferenceType)

end

/-- A type parameter with its bounds. -/
structure TypeParameter where
  /-- The name. -/
  name : Name
  /-- The class bound, if there is one. -/
  classBound : Option ReferenceType
  /-- The interface bounds, of which there may be none. -/
  interfaceBounds : List ReferenceType

/-- What a method declares to throw. -/
inductive Thrown
  /-- A class. -/
  | classType (t : ClassType)
  /-- A type variable. -/
  | typeVariable (name : Name)

/-- A signature. -/
inductive Declared
  /-- That of a class: its type parameters, superclass and superinterfaces. -/
  | ofClass (parameters : List TypeParameter) (superclass : ClassType)
      (superinterfaces : List ClassType)
  /-- That of a method: its type parameters, the types of its parameters, the type of its result if
  there is one, and what it throws. -/
  | ofMethod (parameters : List TypeParameter) (arguments : List JavaType)
      (result : Option JavaType) (thrown : List Thrown)
  /-- That of a field: its type. -/
  | ofField (type : ReferenceType)

/-! ### Texts -/

/-- The text of packages, each with a slash behind it. -/
def printPackages (packages : List Name) : List Char :=
  packages.flatMap fun name => name.chars ++ ['/']

mutual

/-- The text of a reference type. -/
def ReferenceType.print : ReferenceType → List Char
  | .classType t => t.print
  | .typeVariable name => 'T' :: (name.chars ++ [';'])
  | .array element => '[' :: element.print

/-- The text of a type. -/
def JavaType.print : JavaType → List Char
  | .primitive letter => [letter.val]
  | .reference r => r.print

/-- The text of a class type. -/
def ClassType.print : ClassType → List Char
  | .mk packages outermost inner =>
    'L' :: (printPackages packages ++ (outermost.print ++ (printInnerClasses inner ++ [';'])))

/-- The text of a class without those around it. -/
def SimpleClass.print : SimpleClass → List Char
  | .mk name arguments =>
    name.chars ++ if arguments.isEmpty then [] else '<' :: (printTypeArguments arguments ++ ['>'])

/-- The text of inner classes, each with a dot before it. -/
def printInnerClasses : List SimpleClass → List Char
  | [] => []
  | s :: rest => '.' :: (s.print ++ printInnerClasses rest)

/-- The text of type arguments. -/
def printTypeArguments : List TypeArgument → List Char
  | [] => []
  | a :: rest => a.print ++ printTypeArguments rest

/-- The text of a type argument. -/
def TypeArgument.print : TypeArgument → List Char
  | .any => ['*']
  | .type wildcard r => (wildcard.map Wildcard.char).toList ++ r.print

end

/-- The text of a type parameter. -/
def TypeParameter.print (p : TypeParameter) : List Char :=
  p.name.chars ++ ':' :: (p.classBound.elim [] ReferenceType.print ++
    p.interfaceBounds.flatMap fun r => ':' :: r.print)

/-- The text of type parameters with their brackets, which is empty if there are none. -/
def printParameters (parameters : List TypeParameter) : List Char :=
  if parameters.isEmpty then [] else '<' :: (parameters.flatMap TypeParameter.print ++ ['>'])

/-- The text of something thrown. -/
def Thrown.print : Thrown → List Char
  | classType t => '^' :: t.print
  | typeVariable name => '^' :: 'T' :: (name.chars ++ [';'])

/-- The text of a signature. -/
def Declared.print : Declared → List Char
  | ofClass parameters superclass superinterfaces =>
    printParameters parameters ++ (superclass.print ++ superinterfaces.flatMap ClassType.print)
  | ofMethod parameters arguments result thrown =>
    printParameters parameters ++ '(' :: (arguments.flatMap JavaType.print ++
      ')' :: (result.elim ['V'] JavaType.print ++ thrown.flatMap Thrown.print))
  | ofField type => type.print

/-! ### Class types -/

/-- The name of a class. -/
def SimpleClass.name : SimpleClass → Name
  | .mk name _ => name

mutual

/-- The class types in a reference type. -/
def ReferenceType.classNames : ReferenceType → List ClassName
  | .classType t => t.classNames
  | .typeVariable _ => []
  | .array element => element.classNames

/-- The class types in a type. -/
def JavaType.classNames : JavaType → List ClassName
  | .primitive _ => []
  | .reference r => r.classNames

/-- The class types in a class type: each of its classes from the outermost on. -/
def ClassType.classNames : ClassType → List ClassName
  | .mk packages outermost inner =>
    outermost.classNames (printPackages packages) ++
      innerClassNames (printPackages packages ++ outermost.name.chars) inner

/-- The class types in a class and its arguments. The class comes last; it is called by its name
behind what stands before it in the name of its class file. -/
def SimpleClass.classNames (before : List Char) : SimpleClass → List ClassName
  | .mk name arguments =>
    typeArgumentNames arguments ++ [.ofInternal (String.ofList (before ++ name.chars))]

/-- The class types in the classes inside another and in their arguments. A class file is named with
`$` before the name of an inner class. -/
def innerClassNames (outer : List Char) : List SimpleClass → List ClassName
  | [] => []
  | s :: rest =>
    s.classNames (outer ++ ['$']) ++ innerClassNames (outer ++ '$' :: s.name.chars) rest

/-- The class types in type arguments. -/
def typeArgumentNames : List TypeArgument → List ClassName
  | [] => []
  | a :: rest => a.classNames ++ typeArgumentNames rest

/-- The class types in a type argument. -/
def TypeArgument.classNames : TypeArgument → List ClassName
  | .any => []
  | .type _ r => r.classNames

end

/-- The class types in the bounds of a type parameter. -/
def TypeParameter.classNames (p : TypeParameter) : List ClassName :=
  p.classBound.elim [] ReferenceType.classNames ++
    p.interfaceBounds.flatMap ReferenceType.classNames

/-- The class types in something thrown. -/
def Thrown.classNames : Thrown → List ClassName
  | classType t => t.classNames
  | typeVariable _ => []

/-- The class types in a signature. -/
def Declared.classNames : Declared → List ClassName
  | ofClass parameters superclass superinterfaces =>
    parameters.flatMap TypeParameter.classNames ++
      (superclass.classNames ++ superinterfaces.flatMap ClassType.classNames)
  | ofMethod parameters arguments result thrown =>
    parameters.flatMap TypeParameter.classNames ++ (arguments.flatMap JavaType.classNames ++
      (result.elim [] JavaType.classNames ++ thrown.flatMap Thrown.classNames))
  | ofField type => type.classNames

/-! ### Trees of the reader's grammar -/

lemma Name.unreserved (name : Name) : ∀ c ∈ name.chars, isReserved c = false := by
  intro c hc
  have hsubset : ['<', '>', ';', '[', ':'] ⊆ ['.', ';', '[', '/', '<', '>', ':'] := by decide
  exact isReserved_eq_false_iff.2 fun hreserved => name.allowed c hc (hsubset hreserved)

lemma Name.undotted (name : Name) : '.' ∉ name.chars :=
  fun hc => name.allowed '.' hc (by simp)

/-- A name as an identifier. -/
def Name.toIdentifier (name : Name) : Identifier :=
  ⟨name.chars, name.nonempty, name.unreserved⟩

/-- A name by itself as that of a segment. -/
def Name.toSegmentName (name : Name) : SegmentName :=
  ⟨name.toIdentifier, name.undotted⟩

/-- A name behind its packages as that of a segment. -/
def Name.inPackages (name : Name) (packages : List Name) : SegmentName where
  chars := printPackages packages ++ name.chars
  nonempty := List.append_ne_nil_of_right_ne_nil _ name.nonempty
  unreserved := by
    intro c hc
    simp only [printPackages, List.mem_append, List.mem_flatMap, List.mem_singleton] at hc
    rcases hc with ⟨package, -, hc | rfl⟩ | hc
    · exact package.unreserved c hc
    · rfl
    · exact name.unreserved c hc
  undotted := by
    have hslash : '.' ≠ '/' := by decide
    simp [printPackages, Name.undotted, hslash]

mutual

/-- A reference type as one of the reader's grammar. -/
def ReferenceType.toReference : ReferenceType → Reference
  | .classType t => t.toReference
  | .typeVariable name => .typeVariable name.toIdentifier
  | .array element => .array element.toJavaType

/-- A type as one of the reader's grammar. -/
def JavaType.toJavaType : JavaType → Signature.JavaType
  | .primitive letter => .primitive letter
  | .reference r => .reference r.toReference

/-- A class type as one of the reader's grammar. -/
def ClassType.toReference : ClassType → Reference
  | .mk packages outermost inner =>
    .classType (outermost.toSegment fun name => name.inPackages packages) (toSegments inner)

/-- A class as a segment, which takes its name as it is given. -/
def SimpleClass.toSegment (called : Name → SegmentName) : SimpleClass → Segment
  | .mk name arguments => .mk (called name) (toArguments arguments)

/-- Inner classes as segments. -/
def toSegments : List SimpleClass → List Segment
  | [] => []
  | s :: rest => s.toSegment Name.toSegmentName :: toSegments rest

/-- Type arguments as those of the reader's grammar. -/
def toArguments : List TypeArgument → List Argument
  | [] => []
  | a :: rest => a.toArgument :: toArguments rest

/-- A type argument as one of the reader's grammar. -/
def TypeArgument.toArgument : TypeArgument → Argument
  | .any => .any
  | .type wildcard r => .type wildcard r.toReference

end

/-! ### The translation keeps the text -/

lemma isEmpty_toArguments (arguments : List TypeArgument) :
    (toArguments arguments).isEmpty = arguments.isEmpty := by
  cases arguments <;> rfl

mutual

theorem ReferenceType.print_toReference : ∀ r : ReferenceType, r.toReference.print = r.print
  | .classType t => by
    rw [ReferenceType.toReference, t.print_toReference, ReferenceType.print]
  | .typeVariable name => by
    rw [ReferenceType.toReference, Reference.print, ReferenceType.print]
    rfl
  | .array element => by
    rw [ReferenceType.toReference, Reference.print, element.print_toJavaType, ReferenceType.print]

theorem JavaType.print_toJavaType : ∀ t : JavaType, t.toJavaType.print = t.print
  | .primitive letter => by
    rw [JavaType.toJavaType, Signature.JavaType.print, JavaType.print]
  | .reference r => by
    rw [JavaType.toJavaType, Signature.JavaType.print, r.print_toReference, JavaType.print]

theorem ClassType.print_toReference : ∀ t : ClassType, t.toReference.print = t.print
  | .mk packages outermost inner => by
    rw [ClassType.toReference, Reference.print,
      outermost.print_toSegment (printPackages packages) _ rfl, printInner_toSegments inner,
      ClassType.print, List.append_assoc]

theorem SimpleClass.print_toSegment : ∀ (s : SimpleClass) (before : List Char)
    (called : Name → SegmentName), (called s.name).chars = before ++ s.name.chars →
      (s.toSegment called).print = before ++ s.print
  | .mk name arguments, before, called, h => by
    have hname : (called name).chars = before ++ name.chars := h
    rw [SimpleClass.toSegment, Segment.print, hname, SimpleClass.print, isEmpty_toArguments,
      printArguments_toArguments arguments, List.append_assoc]

theorem printInner_toSegments : ∀ inner : List SimpleClass,
    printInner (toSegments inner) = printInnerClasses inner
  | [] => by
    rw [toSegments, printInner, printInnerClasses]
  | s :: rest => by
    rw [toSegments, printInner, printInner_toSegments rest, s.print_toSegment [] _ rfl,
      printInnerClasses, List.nil_append]

theorem printArguments_toArguments : ∀ arguments : List TypeArgument,
    printArguments (toArguments arguments) = printTypeArguments arguments
  | [] => by
    rw [toArguments, printArguments, printTypeArguments]
  | a :: rest => by
    rw [toArguments, printArguments, a.print_toArgument, printArguments_toArguments rest,
      printTypeArguments]

theorem TypeArgument.print_toArgument : ∀ a : TypeArgument, a.toArgument.print = a.print
  | .any => by
    rw [TypeArgument.toArgument, Argument.print, TypeArgument.print]
  | .type wildcard r => by
    rw [TypeArgument.toArgument, Argument.print, r.print_toReference, TypeArgument.print]

end

/-! ### The translation keeps the class types -/

mutual

theorem ReferenceType.classNames_toReference : ∀ r : ReferenceType,
    r.toReference.classNames = r.classNames
  | .classType t => by
    rw [ReferenceType.toReference, t.classNames_toReference, ReferenceType.classNames]
  | .typeVariable name => by
    rw [ReferenceType.toReference, Reference.classNames, ReferenceType.classNames]
  | .array element => by
    rw [ReferenceType.toReference, Reference.classNames, element.classNames_toJavaType,
      ReferenceType.classNames]

theorem JavaType.classNames_toJavaType : ∀ t : JavaType, t.toJavaType.classNames = t.classNames
  | .primitive letter => by
    rw [JavaType.toJavaType, Signature.JavaType.classNames, JavaType.classNames]
  | .reference r => by
    rw [JavaType.toJavaType, Signature.JavaType.classNames, r.classNames_toReference,
      JavaType.classNames]

theorem ClassType.classNames_toReference : ∀ t : ClassType,
    t.toReference.classNames = t.classNames
  | .mk packages outermost inner => by
    have hname : (outermost.toSegment fun name => name.inPackages packages).className none =
        .ofInternal (String.ofList (printPackages packages ++ outermost.name.chars)) := by
      cases outermost
      rfl
    rw [ClassType.toReference, Reference.classNames,
      outermost.classNames_toSegment _ (printPackages packages) _ hname, hname,
      innerNames_toSegments inner, ClassType.classNames]

theorem SimpleClass.classNames_toSegment : ∀ (s : SimpleClass) (outer : Option ClassName)
    (before : List Char) (called : Name → SegmentName),
    (s.toSegment called).className outer =
      .ofInternal (String.ofList (before ++ s.name.chars)) →
      (s.toSegment called).classNames outer = s.classNames before
  | .mk name arguments, outer, before, called, h => by
    rw [SimpleClass.toSegment] at h ⊢
    rw [Segment.classNames, h, argumentNames_toArguments arguments, SimpleClass.classNames]
    rfl

theorem innerNames_toSegments : ∀ (inner : List SimpleClass) (outer : List Char),
    innerNames (.ofInternal (String.ofList outer)) (toSegments inner) = innerClassNames outer inner
  | [], outer => by
    rw [toSegments, innerNames, innerClassNames]
  | s :: rest, outer => by
    have hname : (s.toSegment Name.toSegmentName).className
        (some (.ofInternal (String.ofList outer))) =
        .ofInternal (String.ofList (outer ++ '$' :: s.name.chars)) := by
      cases s
      exact (ofInternal_append _ _).symm
    have hbefore : outer ++ '$' :: s.name.chars = outer ++ ['$'] ++ s.name.chars := by simp
    rw [toSegments, innerNames, s.classNames_toSegment _ (outer ++ ['$']) _ (hbefore ▸ hname),
      hname, innerNames_toSegments rest, innerClassNames]

theorem argumentNames_toArguments : ∀ arguments : List TypeArgument,
    argumentNames (toArguments arguments) = typeArgumentNames arguments
  | [] => by
    rw [toArguments, argumentNames, typeArgumentNames]
  | a :: rest => by
    rw [toArguments, argumentNames, a.classNames_toArgument, argumentNames_toArguments rest,
      typeArgumentNames]

theorem TypeArgument.classNames_toArgument : ∀ a : TypeArgument,
    a.toArgument.classNames = a.classNames
  | .any => by
    rw [TypeArgument.toArgument, Argument.classNames, TypeArgument.classNames]
  | .type wildcard r => by
    rw [TypeArgument.toArgument, Argument.classNames, r.classNames_toReference,
      TypeArgument.classNames]

end

end Format
end Signature
end ClasspathAudit
