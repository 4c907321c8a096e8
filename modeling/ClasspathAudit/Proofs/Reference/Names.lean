import ClasspathAudit.Proofs.DirectoryScan.Splitting
import ClasspathAudit.Proofs.Signature.Erasure
import ClasspathAudit.Proofs.Signature.Exactness
import ClasspathAudit.Proofs.Text.Parts

/-
# The names that a class refers to

A class file names classes in class constants and in signatures, and both may hold any text. Still,
every name that is reported is dotted and is not that of an array: what a class constant holds is
normalised, and is read as a signature if it starts as an array type does; and what a signature
names is spelled by segments, which have no `[` in them.

The main result is `referencedClasses_exact`. It holds of whatever mentions a class file has.
-/
namespace ClasspathAudit

/-! ### Names -/

namespace ClassName

/-- Whether a name is that of no array and has nothing but dots between its parts. -/
structure IsExternalForm (name : ClassName) : Prop where
  slash : '/' ∉ name.text.toList
  backslash : '\\' ∉ name.text.toList
  dollar : '$' ∉ name.text.toList
  bracket : name.text.toList.head? ≠ some '['

/-- Whether there is a dot in a name, and digits and nothing else behind the last one. -/
def EndsInNumber (name : ClassName) : Prop :=
  ∃ front number, name.text.toList = front ++ '.' :: number ∧ number ≠ [] ∧
    ∀ c ∈ number, c.isDigit = true

lemma toList_text_ofInternal (name : String) :
    (ofInternal name).text.toList =
      name.toList.map fun c => if isSeparator c then '.' else c := by
  rw [ofInternal, String.toList_map]

lemma notMem_text_ofInternal {x : Char} (hx : isSeparator x = true) (name : String) :
    x ∉ (ofInternal name).text.toList := by
  rw [toList_text_ofInternal, List.mem_map]
  rintro ⟨c, -, rfl⟩
  split at hx
  · exact absurd hx (by decide)
  · contradiction

lemma isExternalForm_ofInternal {name : String} (h : name.toList.head? ≠ some '[') :
    (ofInternal name).IsExternalForm where
  slash := notMem_text_ofInternal rfl name
  backslash := notMem_text_ofInternal rfl name
  dollar := notMem_text_ofInternal rfl name
  bracket := by
    rw [toList_text_ofInternal, List.head?_map, ne_eq, Option.map_eq_some_iff]
    rintro ⟨c, hhead, hc⟩
    split at hc
    · cases hc
    · exact h (hc ▸ hhead)

lemma isAnonymous_iff {name : ClassName} : name.isAnonymous = true ↔ name.EndsInNumber := by
  simp only [isAnonymous, isNumbered, Bool.and_eq_true, Bool.not_eq_true',
    List.isEmpty_eq_false_iff, List.all_eq_true, List.contains_iff_mem, EndsInNumber]
  generalize name.text.toList = chars
  constructor
  · rintro ⟨⟨hdot, hne⟩, hdigits⟩
    obtain ⟨front, hfront⟩ := Text.exists_eq_append_takeWhile_reverse hdot
    exact ⟨front, _, hfront, List.reverse_ne_nil_iff.2 hne,
      fun c hc => hdigits c (List.mem_reverse.1 hc)⟩
  · rintro ⟨front, number, rfl, hne, hdigits⟩
    -- digits are no dots, so the number is all that stands behind the last dot
    have hdot : '.' ∉ number := fun hmem => by cases hdigits '.' hmem
    rw [Text.takeWhile_reverse_append hdot]
    exact ⟨⟨by simp, List.reverse_ne_nil_iff.2 hne⟩,
      fun c hc => hdigits c (List.mem_reverse.1 hc)⟩

end ClassName

/-! ### Names in signatures -/

namespace Signature

/-- Whether a class is called by one segment, with `$` before the parts of its name. -/
def IsSpelled (c : ClassName) : Prop :=
  ∃ name : SegmentName, name.className = c

lemma IsSpelled.isExternalForm {c : ClassName} (h : IsSpelled c) : c.IsExternalForm := by
  obtain ⟨name, rfl⟩ := h
  refine ClassName.isExternalForm_ofInternal ?_
  rw [String.toList_ofList]
  intro hhead
  exact absurd (name.unreserved _ (List.mem_of_head? hhead)) (by decide)

variable {c : ClassName}

mutual

theorem Reference.isSpelled : ∀ r : Reference, c ∈ r.classNames → IsSpelled c
  | .classType first inner, h => by
    rw [Reference.classNames, List.mem_append, first.className_none] at h
    rcases h with h | h
    · exact first.isSpelled none ⟨_, first.className_none.symm⟩ h
    · exact isSpelled_innerNames inner first.name h
  | .typeVariable _, h => absurd h (by simp [Reference.classNames])
  | .array element, h => by
    rw [Reference.classNames] at h
    exact element.isSpelled h

theorem JavaType.isSpelled : ∀ t : JavaType, c ∈ t.classNames → IsSpelled c
  | .primitive _, h => absurd h (by simp [JavaType.classNames])
  | .reference r, h => by
    rw [JavaType.classNames] at h
    exact r.isSpelled h

/-- The type arguments of a segment are spelled on their own. -/
theorem Segment.isSpelled : ∀ (s : Segment) (outer : Option ClassName),
    IsSpelled (s.className outer) → c ∈ s.classNames outer → IsSpelled c
  | .mk name arguments, outer, hs, h => by
    rw [Segment.classNames, List.mem_append, List.mem_singleton] at h
    rcases h with h | rfl
    · exact isSpelled_argumentNames arguments h
    · exact hs

theorem isSpelled_innerNames : ∀ (inner : List Segment) (outer : SegmentName),
    c ∈ innerNames outer.className inner → IsSpelled c
  | [], _, h => absurd h (by simp [innerNames])
  | s :: rest, outer, h => by
    rw [innerNames, List.mem_append, s.className_some] at h
    rcases h with h | h
    · exact s.isSpelled _ ⟨_, (s.className_some outer).symm⟩ h
    · exact isSpelled_innerNames rest _ h

theorem isSpelled_argumentNames : ∀ arguments : List Argument,
    c ∈ argumentNames arguments → IsSpelled c
  | [], h => absurd h (by simp [argumentNames])
  | a :: rest, h => by
    rw [argumentNames, List.mem_append] at h
    rcases h with h | h
    · exact a.isSpelled h
    · exact isSpelled_argumentNames rest h

theorem Argument.isSpelled : ∀ a : Argument, c ∈ a.classNames → IsSpelled c
  | .any, h => absurd h (by simp [Argument.classNames])
  | .type _ r, h => by
    rw [Argument.classNames] at h
    exact r.isSpelled h

end

lemma TypeParameter.isSpelled {p : TypeParameter} (h : c ∈ p.classNames) : IsSpelled c := by
  rw [TypeParameter.classNames, List.mem_append, List.mem_flatMap] at h
  rcases h with h | ⟨r, -, h⟩
  · cases hbound : p.classBound with
    | none => simp [hbound] at h
    | some r =>
      rw [hbound] at h
      exact r.isSpelled h
  · exact r.isSpelled h

lemma MethodType.isSpelled {m : MethodType} (h : c ∈ m.classNames) : IsSpelled c := by
  simp only [MethodType.classNames, List.mem_append, List.mem_flatMap] at h
  rcases h with (⟨t, -, h⟩ | h) | ⟨t, -, h⟩
  · exact t.isSpelled h
  · cases hresult : m.result with
    | none => simp [hresult] at h
    | some t =>
      rw [hresult] at h
      exact t.isSpelled h
  · exact t.toReference.isSpelled h

lemma Derivation.isSpelled {d : Derivation} (h : c ∈ d.classNames) : IsSpelled c := by
  rw [Derivation.classNames, List.mem_append, List.mem_flatMap] at h
  rcases h with ⟨p, -, h⟩ | h
  · exact TypeParameter.isSpelled h
  · cases hbody : d.body with
    | method m =>
      rw [hbody] at h
      exact MethodType.isSpelled h
    | types first rest =>
      rw [hbody, Body.classNames, List.mem_append, List.mem_flatMap] at h
      rcases h with h | ⟨t, -, h⟩
      · exact first.isSpelled h
      · exact t.isSpelled h

lemma isSpelled_of_classTypes {text : String} {names : List ClassName}
    (h : classTypes text = .ok names) (hc : c ∈ names) : IsSpelled c := by
  obtain ⟨d, -, rfl⟩ := exists_derives_of_classTypes h
  exact Derivation.isSpelled hc

/-! ### Array types -/

/-- The type of arrays of `t` with as many further dimensions as given. -/
def JavaType.arrays (t : JavaType) : Nat → JavaType
  | 0 => .reference (.array t)
  | n + 1 => .reference (.array (t.arrays n))

lemma JavaType.print_arrays (t : JavaType) (n : Nat) :
    (t.arrays n).print = List.replicate (n + 1) '[' ++ t.print := by
  induction n with
  | zero => simp [arrays, JavaType.print, Reference.print]
  | succ n ih =>
    rw [arrays, JavaType.print, Reference.print, ih, List.replicate_succ (n := n + 1)]
    rfl

lemma JavaType.classNames_arrays (t : JavaType) (n : Nat) :
    (t.arrays n).classNames = t.classNames := by
  induction n with
  | zero => simp [arrays, JavaType.classNames, Reference.classNames]
  | succ n ih => rw [arrays, JavaType.classNames, Reference.classNames, ih]

/-- A type by itself is a signature. -/
lemma JavaType.classTypes_print (t : JavaType) :
    classTypes (String.ofList t.print) = .ok t.classNames := by
  have hderives : (Derivation.mk [] (.types t [])).Derives (String.ofList t.print).toList :=
    ⟨by simp [Derivation.printParameters, Body.print], trivial⟩
  rw [hderives.classTypes_eq_ok]
  simp [Derivation.classNames, Body.classNames]

/-- The type of a class without type arguments. -/
def SegmentName.type (name : SegmentName) : JavaType :=
  .reference (.classType (.mk name []) [])

lemma SegmentName.print_type (name : SegmentName) :
    name.type.print = 'L' :: (name.chars ++ [';']) := by
  simp [type, JavaType.print, Reference.print, Segment.print, printInner]

lemma SegmentName.classNames_type (name : SegmentName) :
    name.type.classNames = [name.className] := by
  simp [type, JavaType.classNames, Reference.classNames, Segment.classNames, Segment.className,
    innerNames, argumentNames, className]

end Signature

/-! ### Mentions -/

namespace TypeUse

/-- What is wrong with the text of a mention, if it is malformed. -/
def fault? (mention : TypeUse) : Option Signature.Error :=
  match mention.classNames with
  | .ok _ => none
  | .error error => some error

lemma isExternalForm_of_classNames {mention : TypeUse} {names : List ClassName} {c : ClassName}
    (h : mention.classNames = .ok names) (hc : c ∈ names) : c.IsExternalForm := by
  rw [classNames] at h
  split at h
  · split at h
    · exact (Signature.isSpelled_of_classTypes h hc).isExternalForm
    · rename_i hbracket
      obtain rfl := Except.ok.inj h
      obtain rfl := List.mem_singleton.1 hc
      exact ClassName.isExternalForm_ofInternal hbracket
  · exact (Signature.isSpelled_of_classTypes h hc).isExternalForm

/-- The mention of a class by the name of the type of its arrays. -/
def ofArrays (kind : ReferenceKind) (n : Nat) (element : List Char) : TypeUse :=
  internalName kind (String.ofList (List.replicate (n + 1) '[' ++ element))

lemma classNames_ofArrays (kind : ReferenceKind) (n : Nat) (t : Signature.JavaType) :
    (ofArrays kind n t.print).classNames = .ok t.classNames := by
  have hbracket :
      (String.ofList (List.replicate (n + 1) '[' ++ t.print)).toList.head? = some '[' := by
    simp [List.replicate_succ]
  show (if _ then _ else _) = _
  rw [if_pos hbracket, ← t.print_arrays, (t.arrays n).classTypes_print, t.classNames_arrays]

lemma classNames_internalName (kind : ReferenceKind) (name : Signature.SegmentName) :
    (internalName kind (String.ofList name.chars)).classNames = .ok [name.className] := by
  refine if_neg fun hbracket => ?_
  rw [String.toList_ofList] at hbracket
  exact absurd (name.unreserved _ (List.mem_of_head? hbracket)) (by decide)

end TypeUse

/-! ### What is reported -/

namespace ClassReferences

variable (c : ClassReferences)

lemma skipped_eq : c.referencedClasses.skipped = c.typeUses.filterMap TypeUse.fault? := by
  simp only [referencedClasses, references]
  induction c.typeUses with
  | nil => rfl
  | cons mention mentions ih =>
    rw [List.flatMap_cons, List.filterMap_append, ih, List.filterMap_cons, expand, TypeUse.fault?]
    cases mention.classNames <;> simp

/-- The class without its malformed mentions. -/
def wellFormed : ClassReferences :=
  { c with typeUses := c.typeUses.filter fun mention => !isMalformed mention }

lemma names_wellFormed {name : ClassName} : c.wellFormed.Names name ↔ c.Names name := by
  simp only [Names, wellFormed, List.mem_filter]
  constructor
  · rintro ⟨mention, ⟨hmention, -⟩, hnames⟩
    exact ⟨mention, hmention, hnames⟩
  · rintro ⟨mention, hmention, names, hnames, hname⟩
    exact ⟨mention, ⟨hmention, by simp [isMalformed, hnames, Except.isOk, Except.toBool]⟩, names,
      hnames, hname⟩

lemma mem_classes_iff {name : ClassName} : name ∈ c.referencedClasses.classes ↔
    c.Names name ∧ name ≠ c.className ∧ ¬name.EndsInNumber := by
  rw [mem_referencedClasses, isExternal, Bool.and_eq_true, bne_iff_ne, Bool.not_eq_true',
    ← ClassName.isAnonymous_iff, Bool.not_eq_true]

lemma isExternalForm_of_mem {name : ClassName} (h : name ∈ c.referencedClasses.classes) :
    name.IsExternalForm := by
  obtain ⟨⟨mention, -, names, hnames, hname⟩, -⟩ := c.mem_classes_iff.1 h
  exact TypeUse.isExternalForm_of_classNames hnames hname

/-- Whatever a class mentions, the classes reported for it are those that a well-formed mention
names, less the class itself and those whose names end in a number. A malformed mention is reported
as one error, in its place among the others, and adds no class. Each name reported is dotted and is
that of no array: an array of any number of dimensions counts as its element class, and an array of
primitive values as nothing. -/
theorem referencedClasses_exact (c : ClassReferences) :
    (∀ name, name ∈ c.referencedClasses.classes ↔
      c.Names name ∧ name ≠ c.className ∧ ¬name.EndsInNumber) ∧
    c.referencedClasses.skipped = c.typeUses.filterMap TypeUse.fault? ∧
    c.referencedClasses.classes = c.wellFormed.referencedClasses.classes ∧
    (∀ name ∈ c.referencedClasses.classes, name.IsExternalForm) ∧
    ∀ (kind : ReferenceKind) (n : Nat),
      (∀ name : Signature.SegmentName,
        expand (.ofArrays kind n ('L' :: (name.chars ++ [';']))) =
          expand (.internalName kind (String.ofList name.chars))) ∧
      ∀ letter : Signature.PrimitiveLetter, expand (.ofArrays kind n [letter.val]) = [] := by
  refine ⟨fun name => c.mem_classes_iff, c.skipped_eq, ?_, fun name => c.isExternalForm_of_mem,
    fun kind n => ⟨fun name => ?_, fun letter => ?_⟩⟩
  · refine Std.ExtTreeSet.ext_mem fun name => ?_
    rw [mem_classes_iff, mem_classes_iff, c.names_wellFormed]
    rfl
  · rw [← name.print_type, expand, TypeUse.classNames_ofArrays, name.classNames_type, expand,
      TypeUse.classNames_internalName]
    rfl
  · have hletter : (Signature.JavaType.primitive letter).print = [letter.val] := by
      rw [Signature.JavaType.print]
    rw [← hletter, expand, TypeUse.classNames_ofArrays, Signature.JavaType.classNames]
    rfl

/-- A signature that ends too early, arrays, and the names of an anonymous class and of the class
itself. -/
example :
    let c : ClassReferences :=
      { className := ⟨"a.B"⟩
        typeUses :=
          [.signature .fieldType "Lc/D<", .internalName .instructionOperand "[[Lc/E$F;",
            .internalName .instructionOperand "[I", .internalName .memberOwner "c/D$1",
            .internalName .memberOwner "a/B"] }
    c.referencedClasses.classes.toList = [⟨"c.E.F"⟩] ∧ c.referencedClasses.skipped.length = 1 := by
  decide +kernel

end ClassReferences
end ClasspathAudit
