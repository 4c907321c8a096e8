import Mathlib.Data.List.Chain
import ClasspathAudit.Proofs.Signature.Exactness
import ClasspathAudit.Proofs.Signature.FormatGrammar

/-
# Which signatures of the format are accepted

The reader takes a class bound if the next character starts a reference type, and looks no further.
So where a type parameter has no bound at all, it takes the name of the next one for a bound if that
name starts with `L` or `T`, and then refuses the signature at the `:` behind the name. Every other
signature of the format is accepted, with exactly the class types that are in it.

The main result is `accepted_of_parted`; `refused_unparted` is a signature of the format that is
refused.
-/
namespace ClasspathAudit
namespace Signature

/-! ### Where bounds are taken -/

/-- No reference type stands before a `:` as a name does: something else delimits its first name. -/
lemma Reference.exists_delimiter (r : Reference) : ∃ run x more, r.print = run ++ x :: more ∧
    (∀ c ∈ run, isReserved c = false) ∧ isReserved x = true ∧ x ≠ ':' := by
  have hinner : ∀ (inner : List Segment) (s : Segment), ∃ run x more,
      s.print ++ (printInner inner ++ [';']) = run ++ x :: more ∧
        (∀ c ∈ run, isReserved c = false) ∧ isReserved x = true ∧ x ≠ ':' := by
    intro inner
    induction inner with
    | nil =>
      rintro ⟨name, arguments⟩
      rw [Segment.print_append]
      split
      · exact ⟨name.chars, ';', [], rfl, name.unreserved, rfl, by decide⟩
      · exact ⟨name.chars, '<', _, rfl, name.unreserved, rfl, by decide⟩
    | cons t inner ih =>
      rintro ⟨name, arguments⟩
      rw [Segment.print_append]
      split
      · -- the dot before an inner segment is not reserved, so the run goes on
        obtain ⟨run, x, more, ht, hrun, hx⟩ := ih t
        refine ⟨name.chars ++ '.' :: run, x, more, ?_, ?_, hx⟩
        · rw [printInner, List.cons_append, List.append_assoc, ht, List.append_assoc,
            List.cons_append]
        · simp only [List.mem_append, List.mem_cons]
          rintro c (hc | rfl | hc)
          · exact name.unreserved c hc
          · rfl
          · exact hrun c hc
      · exact ⟨name.chars, '<', _, rfl, name.unreserved, rfl, by decide⟩
  cases r with
  | classType first inner =>
    obtain ⟨run, x, more, hprint, hrun, hx⟩ := hinner inner first
    refine ⟨'L' :: run, x, more, by rw [Reference.print, hprint, List.cons_append], ?_, hx⟩
    rintro c (_ | ⟨_, hc⟩)
    · rfl
    · exact hrun c hc
  | typeVariable name =>
    refine ⟨'T' :: name.chars, ';', [], by rw [Reference.print, List.cons_append], ?_, rfl,
      by decide⟩
    rintro c (_ | ⟨_, hc⟩)
    · rfl
    · exact name.unreserved c hc
  | array element =>
    exact ⟨[], '[', element.print, by rw [Reference.print, List.nil_append], by simp, rfl,
      by decide⟩

lemma Reference.print_append_ne_name (r : Reference) (name : Identifier) (w v : List Char) :
    r.print ++ w ≠ name.chars ++ ':' :: v := by
  obtain ⟨run, x, more, hprint, hrun, hx, hne⟩ := r.exists_delimiter
  intro h
  rw [hprint, List.append_assoc, List.cons_append] at h
  exact hne (append_cons_inj (P := (isReserved · = false)) hrun name.unreserved (by simp [hx])
    (by decide) h).2.1

namespace TypeParameter

/-- Whether a type parameter is told apart from the next one: it has a bound, or the name of the
other does not start as a reference type does. -/
def IsParted (p q : TypeParameter) : Prop :=
  p.classBound.isSome ∨ p.interfaceBounds ≠ [] ∨ startsReference q.name.chars = false

lemma takesBound_iff (p : TypeParameter) (w : List Char) :
    (p.classBound.isSome ↔ startsReference (p.printBounds ++ w)) ↔
      (p.classBound.isSome ∨ p.interfaceBounds ≠ [] ∨ startsReference w = false) := by
  rw [printBounds]
  cases p.classBound with
  | some r =>
    obtain ⟨c, v, hr, hc⟩ := r.print_eq_cons
    simp [hr, startsReference_iff.2 hc]
  | none =>
    cases p.interfaceBounds with
    | nil => simp
    | cons r bounds => simp [printBound, startsReference]

lemma startsReference_printAll (q : TypeParameter) (rest : List TypeParameter) (w : List Char) :
    startsReference (printAll (q :: rest) ++ w) = startsReference q.name.chars := by
  obtain ⟨c, v, hname, -⟩ := q.name.chars_eq_cons
  rw [printAll_cons_append, hname]
  rfl

lemma takeBounds_iff_isChain {parameters : List TypeParameter} :
    TakeBounds parameters ↔ parameters.IsChain IsParted := by
  induction parameters with
  | nil => simp [TakeBounds]
  | cons p rest ih =>
    rw [TakeBounds, takesBound_iff, ih]
    cases rest with
    | nil => simp [printAll, startsReference]
    | cons q rest =>
      rw [startsReference_printAll, List.isChain_cons_cons]
      rfl

/-- A parameter without a bound is followed by no name that starts as a reference type does, if the
text is derived with bounds taken. -/
lemma isParted_of_append {p q p' : TypeParameter} {rest : List TypeParameter} {r w : List Char}
    (hp' : p'.classBound.isSome ↔ startsReference (p'.printBounds ++ w))
    (h : p.printBounds ++ (printAll (q :: rest) ++ r) = p'.printBounds ++ w) : IsParted p q := by
  by_contra hnot
  simp only [IsParted, not_or, Bool.not_eq_true, Option.isSome_eq_false_iff,
    Option.isNone_iff_eq_none, not_not, Bool.not_eq_false] at hnot
  obtain ⟨hclass, hinterfaces, hname⟩ := hnot
  have hnone : p.printBounds = [] := by simp [printBounds, hclass, hinterfaces]
  rw [hnone, List.nil_append] at h
  rw [← h, startsReference_printAll, hname] at hp'
  obtain ⟨bound, hbound⟩ := Option.isSome_iff_exists.1 (hp'.2 rfl)
  have hbounds : p'.printBounds = bound.print ++ p'.interfaceBounds.flatMap printBound := by
    rw [printBounds, hbound, Option.elim_some]
  rw [printAll_cons_append, hbounds, List.append_assoc] at h
  exact bound.print_append_ne_name q.name _ _ h.symm

/-- If a text is derived with bounds taken, then bounds are taken in each way to write it. -/
lemma takeBounds_of_printAll_append {a b : List TypeParameter} {r r' : List Char}
    (hb : TakeBounds b) (h : printAll a ++ '>' :: r = printAll b ++ '>' :: r') : TakeBounds a := by
  induction a generalizing b with
  | nil => trivial
  | cons p a ih =>
    cases b with
    | nil =>
      obtain ⟨c, v, hname, hc⟩ := p.name.chars_eq_cons
      rw [printAll_cons_append, hname] at h
      obtain ⟨rfl, -⟩ := List.cons.inj h
      exact absurd hc (by decide)
    | cons q b =>
      obtain ⟨hq, hb⟩ := hb
      rw [printAll_cons_append, printAll_cons_append] at h
      obtain ⟨-, -, hrest⟩ := Identifier.append_inj (by decide) (by decide) h
      have hq' : q.classBound.isSome ↔
          startsReference (q.printBounds ++ (printAll b ++ '>' :: r')) := by
        rw [hq, ← List.append_assoc, ← List.append_assoc, startsReference_append _ r']
      have hp : p.classBound.isSome ↔ startsReference (p.printBounds ++ (printAll a ++ ['>'])) := by
        rw [takesBound_iff]
        cases a with
        | nil => simp [printAll, startsReference]
        | cons p' a =>
          rw [startsReference_printAll]
          exact isParted_of_append hq' hrest
      have hsome : p.classBound.isSome = q.classBound.isSome := by
        rw [Bool.eq_iff_iff, hp, hq', ← hrest, ← List.append_assoc, ← List.append_assoc,
          startsReference_append _ r]
      obtain ⟨-, -, htail⟩ := printBounds_append_inj hsome (head?_printAll_append a r)
        (head?_printAll_append b r') hrest
      exact ⟨hp, ih hb htail⟩

end TypeParameter

/-! ### What is accepted -/

namespace Derivation

/-- The text that a derivation is written as, whether bounds are taken in it or not. -/
def text (d : Derivation) : List Char :=
  printParameters d.parameters ++ d.body.print

lemma takeBounds_of_derives {d d' : Derivation} (h : d'.Derives d.text) :
    TypeParameter.TakeBounds d.parameters := by
  have hopen : ∀ (p : TypeParameter) (parameters : List TypeParameter) (w : List Char),
      printParameters (p :: parameters) ++ w =
        '<' :: (TypeParameter.printAll (p :: parameters) ++ '>' :: w) := by
    intro p parameters w
    simp [printParameters]
  obtain ⟨parameters, body⟩ := d
  obtain ⟨parameters', body'⟩ := d'
  obtain ⟨hprint, htake⟩ := h
  simp only [text] at hprint htake ⊢
  cases parameters with
  | nil => trivial
  | cons p parameters =>
    rw [hopen] at hprint
    cases parameters' with
    | nil =>
      -- no body starts with the bracket of type parameters
      obtain ⟨c, w, hbody, hc⟩ := body'.print_eq_cons
      change body'.print = _ at hprint
      rw [hbody] at hprint
      obtain ⟨rfl, -⟩ := List.cons.inj hprint
      rcases hc with hc | hc
      · exact absurd hc (by decide)
      · exact absurd hc (not_startsType (by simp))
    | cons p' parameters' =>
      rw [hopen] at hprint
      exact TypeParameter.takeBounds_of_printAll_append htake (List.cons.inj hprint).2.symm

/-- A text is accepted if bounds are taken in it, and refused otherwise. -/
lemma classTypes_text (d : Derivation) :
    (TypeParameter.TakeBounds d.parameters →
      classTypes (String.ofList d.text) = .ok d.classNames) ∧
    (¬TypeParameter.TakeBounds d.parameters →
      ∃ e, classTypes (String.ofList d.text) = .error e) := by
  refine ⟨fun htake => ?_, fun htake => ?_⟩
  · exact Derives.classTypes_eq_ok ⟨by rw [String.toList_ofList]; rfl, htake⟩
  · cases hread : classTypes (String.ofList d.text) with
    | error e => exact ⟨e, rfl⟩
    | ok names =>
      obtain ⟨d', hderives, -⟩ := exists_derives_of_classTypes hread
      rw [String.toList_ofList] at hderives
      exact absurd (takeBounds_of_derives hderives) htake

end Derivation

/-! ### Signatures of the format -/

namespace Format

/-- A type parameter as one of the reader's grammar. -/
def TypeParameter.toTypeParameter (p : TypeParameter) : Signature.TypeParameter where
  name := p.name.toIdentifier
  classBound := p.classBound.map ReferenceType.toReference
  interfaceBounds := p.interfaceBounds.map ReferenceType.toReference

/-- A class type as one of the reader's grammar. -/
def ClassType.toJavaType (t : ClassType) : Signature.JavaType :=
  .reference t.toReference

/-- Something thrown as in the reader's grammar. -/
def Thrown.toThrown : Thrown → Signature.Thrown
  | classType (.mk packages outermost inner) =>
    .classType (outermost.toSegment fun name => name.inPackages packages) (toSegments inner)
  | typeVariable name => .typeVariable name.toIdentifier

namespace Declared

/-- The type parameters of a signature. -/
def parameters : Declared → List TypeParameter
  | ofClass parameters _ _ => parameters
  | ofMethod parameters _ _ _ => parameters
  | ofField _ => []

/-- What stands behind the type parameters, in the reader's grammar. -/
def toBody : Declared → Body
  | ofClass _ superclass superinterfaces =>
    .types superclass.toJavaType (superinterfaces.map ClassType.toJavaType)
  | ofMethod _ arguments result thrown =>
    .method ⟨arguments.map JavaType.toJavaType, result.map JavaType.toJavaType,
      thrown.map Thrown.toThrown⟩
  | ofField type => .types (.reference type.toReference) []

/-- A signature in the reader's grammar. -/
def toDerivation (s : Declared) : Derivation :=
  ⟨s.parameters.map TypeParameter.toTypeParameter, s.toBody⟩

end Declared

/-! ### Texts of signatures -/

lemma TypeParameter.print_toTypeParameter (p : TypeParameter) :
    p.toTypeParameter.print = p.print := by
  have hbound : ∀ r : ReferenceType,
      Signature.TypeParameter.printBound r.toReference = ':' :: r.print := fun r => by
    rw [Signature.TypeParameter.printBound, r.print_toReference]
  rw [Signature.TypeParameter.print, Signature.TypeParameter.printBounds, print, toTypeParameter]
  simp only [List.flatMap_map, hbound]
  cases p.classBound with
  | none => rfl
  | some r =>
    rw [Option.map_some, Option.elim_some, Option.elim_some, r.print_toReference]
    rfl

lemma printParameters_map (parameters : List TypeParameter) :
    Derivation.printParameters (parameters.map TypeParameter.toTypeParameter) =
      printParameters parameters := by
  simp only [Derivation.printParameters, printParameters, List.isEmpty_map,
    Signature.TypeParameter.printAll, List.flatMap_map, TypeParameter.print_toTypeParameter]

lemma ClassType.print_toJavaType (t : ClassType) : t.toJavaType.print = t.print := by
  rw [toJavaType, Signature.JavaType.print, t.print_toReference]

lemma Thrown.print_toThrown (t : Thrown) : t.toThrown.print = t.print := by
  cases t with
  | classType t =>
    obtain ⟨packages, outermost, inner⟩ := t
    rw [print, ← ClassType.print_toReference]
    rfl
  | typeVariable name =>
    rw [toThrown, Signature.Thrown.print, Signature.Thrown.toReference, Reference.print]
    rfl

lemma Declared.text_toDerivation (s : Declared) : s.toDerivation.text = s.print := by
  rw [Derivation.text, toDerivation, printParameters_map]
  cases s with
  | ofClass parameters superclass superinterfaces =>
    simp only [toBody, Body.print, List.flatMap_map, ClassType.print_toJavaType, print]
    rfl
  | ofMethod parameters arguments result thrown =>
    have hresult : MethodType.printResult (result.map JavaType.toJavaType) =
        result.elim ['V'] JavaType.print := by
      cases result with
      | none => rfl
      | some t => exact t.print_toJavaType
    simp only [toBody, Body.print, MethodType.print, List.flatMap_map, JavaType.print_toJavaType,
      hresult, Thrown.print_toThrown, print]
    rfl
  | ofField type =>
    rw [toBody, Body.print, Signature.JavaType.print, type.print_toReference, print]
    exact List.append_nil _

/-! ### Class types of signatures -/

lemma TypeParameter.classNames_toTypeParameter (p : TypeParameter) :
    p.toTypeParameter.classNames = p.classNames := by
  rw [Signature.TypeParameter.classNames, classNames, toTypeParameter]
  simp only [List.flatMap_map, ReferenceType.classNames_toReference]
  cases p.classBound with
  | none => rfl
  | some r => rw [Option.map_some, Option.elim_some, Option.elim_some, r.classNames_toReference]

lemma ClassType.classNames_toJavaType (t : ClassType) :
    t.toJavaType.classNames = t.classNames := by
  rw [toJavaType, Signature.JavaType.classNames, t.classNames_toReference]

lemma Thrown.classNames_toThrown (t : Thrown) :
    t.toThrown.toReference.classNames = t.classNames := by
  cases t with
  | classType t =>
    obtain ⟨packages, outermost, inner⟩ := t
    rw [classNames, ← ClassType.classNames_toReference]
    rfl
  | typeVariable name =>
    rw [toThrown, Signature.Thrown.toReference, Reference.classNames]
    rfl

lemma Declared.classNames_toDerivation (s : Declared) :
    s.toDerivation.classNames = s.classNames := by
  rw [Derivation.classNames, toDerivation]
  simp only [List.flatMap_map, TypeParameter.classNames_toTypeParameter]
  cases s with
  | ofClass parameters superclass superinterfaces =>
    simp only [toBody, Body.classNames, List.flatMap_map, ClassType.classNames_toJavaType,
      classNames, Declared.parameters]
  | ofMethod parameters arguments result thrown =>
    have hresult : (result.map JavaType.toJavaType).elim [] Signature.JavaType.classNames =
        result.elim [] JavaType.classNames := by
      cases result with
      | none => rfl
      | some t => exact t.classNames_toJavaType
    simp only [toBody, Body.classNames, MethodType.classNames, List.flatMap_map,
      JavaType.classNames_toJavaType, hresult, Thrown.classNames_toThrown, classNames,
      Declared.parameters, List.append_assoc]
  | ofField type =>
    rw [toBody, Body.classNames, Signature.JavaType.classNames, type.classNames_toReference,
      classNames]
    exact List.append_nil _

/-! ### Acceptance -/

/-- Whether a type parameter is told apart from the next one: it has a bound, or the name of the
other starts with neither `L` nor `T`. -/
def TypeParameter.IsParted (p q : TypeParameter) : Prop :=
  p.classBound.isSome ∨ p.interfaceBounds ≠ [] ∨ ∀ c ∈ q.name.chars.head?, c ≠ 'L' ∧ c ≠ 'T'

lemma TypeParameter.isParted_iff {p q : TypeParameter} :
    p.toTypeParameter.IsParted q.toTypeParameter ↔ p.IsParted q := by
  have hname : Signature.TypeParameter.startsReference q.name.chars = false ↔
      ∀ c ∈ q.name.chars.head?, c ≠ 'L' ∧ c ≠ 'T' := by
    obtain ⟨c, w, hchars, hc⟩ := q.name.toIdentifier.chars_eq_cons
    have hbracket : c ≠ '[' := by
      rintro rfl
      exact absurd hc (by decide)
    have hhead : q.name.chars = c :: w := hchars
    simp [hhead, Signature.TypeParameter.startsReference, hbracket]
  rw [Signature.TypeParameter.IsParted, IsParted, ← hname]
  simp [toTypeParameter, Name.toIdentifier]

/-- A signature of the format is accepted with the class types that are in it, if each of its type
parameters is told apart from the next one, and refused otherwise. -/
theorem accepted_of_parted (s : Declared) :
    (s.parameters.IsChain TypeParameter.IsParted →
      classTypes (String.ofList s.print) = .ok s.classNames) ∧
    (¬s.parameters.IsChain TypeParameter.IsParted →
      ∃ e, classTypes (String.ofList s.print) = .error e) := by
  have hchain : Signature.TypeParameter.TakeBounds s.toDerivation.parameters ↔
      s.parameters.IsChain TypeParameter.IsParted := by
    rw [Signature.TypeParameter.takeBounds_iff_isChain, Declared.toDerivation, List.isChain_map]
    simp only [TypeParameter.isParted_iff]
  rw [← hchain, ← s.text_toDerivation, ← s.classNames_toDerivation]
  exact s.toDerivation.classTypes_text

/-- The signature of a class with two type parameters, neither of which has a bound. -/
def unpartedSignature : Declared :=
  let ofChars (chars : List Char) (h : chars ≠ [] ∧
      ∀ c ∈ chars, c ∉ ['.', ';', '[', '/', '<', '>', ':']) : Name := ⟨chars, h.1, h.2⟩
  .ofClass [⟨ofChars ['A'] (by simp), none, []⟩, ⟨ofChars ['T'] (by simp), none, []⟩]
    (.mk [ofChars "java".toList (by simp), ofChars "lang".toList (by simp)]
      (.mk (ofChars "Object".toList (by simp)) []) []) []

/-- There is a signature of the format that is refused. -/
theorem refused_unparted :
    ¬∀ s : Declared, classTypes (String.ofList s.print) = .ok s.classNames := by
  intro h
  have haccepted := h unpartedSignature
  have hprint : unpartedSignature.print = "<A:T:>Ljava/lang/Object;".toList := by decide +kernel
  have hrefused : classTypes "<A:T:>Ljava/lang/Object;" =
      .error ⟨⟨4, .badIdentifierCharacter⟩, "<A:T:>Ljava/lang/Object;"⟩ := by
    decide +kernel
  rw [hprint, String.ofList_toList, hrefused] at haccepted
  cases haccepted

end Format

end Signature
end ClasspathAudit
