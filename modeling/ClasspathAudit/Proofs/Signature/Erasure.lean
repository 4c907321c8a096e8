import Mathlib.Data.List.Forall2
import Mathlib.Data.List.Nodup
import ClasspathAudit.Proofs.Signature.Completeness

/-
# Signatures and their erasures

The descriptor of a field or method is the erasure of its signature: type parameters, type arguments
and what is thrown are left out, an inner segment is spelled with `$`, and a type variable gives way
to the erasure of its leftmost bound. A descriptor is itself a signature, so erasure relates trees
of one grammar.

The main result is `classTypes_erasure`: if a signature is read in place of its descriptor, no class
is missed. Inner segments name the class that their spelling with `$` names, and a class that stands
for a type variable is named in the bounds of a type parameter.
-/
namespace ClasspathAudit
namespace Signature

/-! ### Names spelled with `$` -/

/-- The name of a segment inside another, spelled with `$`. -/
def SegmentName.inner (outer name : SegmentName) : SegmentName where
  chars := outer.chars ++ '$' :: name.chars
  nonempty := List.append_ne_nil_of_left_ne_nil outer.nonempty _
  unreserved := by
    intro c hc
    rcases List.mem_append.1 hc with hc | hc
    · exact outer.unreserved c hc
    · rcases List.mem_cons.1 hc with rfl | hc
      · rfl
      · exact name.unreserved c hc
  undotted := by
    have hdollar : '.' ≠ '$' := by decide
    simp [outer.undotted, name.undotted, hdollar]

/-- The name of a segment. -/
def Segment.name : Segment → SegmentName
  | .mk name _ => name

/-- The name of the last of the segments inside `outer`, spelled with `$`. -/
def SegmentName.innermost (outer : SegmentName) : List Segment → SegmentName
  | [] => outer
  | s :: rest => (outer.inner s.name).innermost rest

/-- The class of a name. -/
def SegmentName.className (name : SegmentName) : ClassName :=
  .ofInternal (String.ofList name.chars)

lemma Segment.className_none (s : Segment) : s.className none = s.name.className := by
  cases s
  rfl

lemma Segment.className_some (s : Segment) (outer : SegmentName) :
    s.className (some outer.className) = (outer.inner s.name).className := by
  cases s
  exact (ofInternal_append _ _).symm

lemma Segment.className_mem_classNames (s : Segment) (outer : Option ClassName) :
    s.className outer ∈ s.classNames outer := by
  cases s
  exact List.mem_append_right _ (List.mem_singleton_self _)

lemma className_innermost_mem (outer : SegmentName) (inner : List Segment) :
    (outer.innermost inner).className ∈ outer.className :: innerNames outer.className inner := by
  -- the name spelled so far takes the place of the outer one at each segment
  induction inner generalizing outer with
  | nil => exact List.mem_cons_self
  | cons s rest ih =>
    rw [SegmentName.innermost, innerNames, s.className_some]
    rcases List.mem_cons.1 (ih (outer.inner s.name)) with h | h
    · rw [h, ← s.className_some]
      exact List.mem_cons_of_mem _ (List.mem_append_left _ (s.className_mem_classNames _))
    · exact List.mem_cons_of_mem _ (List.mem_append_right _ h)

/-! ### Erasure of types -/

/-- The bound that a type parameter has first, if it has any. -/
def TypeParameter.leftmostBound? (p : TypeParameter) : Option Reference :=
  p.classBound <|> p.interfaceBounds.head?

/-- Erasure of types under `parameters`. -/
inductive JavaType.Erases (parameters : List TypeParameter) : JavaType → JavaType → Prop
  /-- A primitive type stays as it is. -/
  | primitive (letter : PrimitiveLetter) : Erases parameters (.primitive letter) (.primitive letter)
  /-- A class type loses its type arguments, and its inner segments are spelled with `$`. -/
  | classType (first : Segment) (inner : List Segment) :
    Erases parameters (.reference (.classType first inner))
      (.reference (.classType (.mk (first.name.innermost inner) []) []))
  /-- A type variable is replaced by the erasure of the leftmost bound that it is declared with. -/
  | typeVariable {p : TypeParameter} {bound : Reference} {t : JavaType} (hp : p ∈ parameters)
    (hbound : p.leftmostBound? = some bound) (h : Erases parameters (.reference bound) t) :
    Erases parameters (.reference (.typeVariable p.name)) t
  /-- An array type is erased in its element type. -/
  | array {element t : JavaType} (h : Erases parameters element t) :
    Erases parameters (.reference (.array element)) (.reference (.array t))

variable {parameters : List TypeParameter} {t t' : JavaType}

lemma TypeParameter.classNames_leftmostBound {p : TypeParameter} {bound : Reference}
    (hbound : p.leftmostBound? = some bound) : bound.classNames ⊆ p.classNames := by
  rw [leftmostBound?, Option.orElse_eq_orElse, Option.orElse_eq_or, Option.or_eq_some_iff] at hbound
  rcases hbound with hclass | ⟨-, hinterface⟩
  · rw [classNames, hclass]
    exact List.subset_append_left _ _
  · intro c hc
    exact List.mem_append_right _
      (List.mem_flatMap.2 ⟨bound, List.mem_of_head? hinterface, hc⟩)

/-- What the erasure names is named by the type or by the type parameters. -/
lemma JavaType.Erases.classNames_subset (h : Erases parameters t t') :
    t'.classNames ⊆ parameters.flatMap TypeParameter.classNames ++ t.classNames := by
  induction h with
  | primitive letter => exact List.nil_subset _
  | classType first inner =>
    intro c hc
    obtain rfl := List.mem_singleton.1 hc
    refine List.mem_append_right _ ?_
    show (first.name.innermost inner).className ∈
      first.classNames none ++ innerNames (first.className none) inner
    rcases List.mem_cons.1 (className_innermost_mem first.name inner) with h | h
    · rw [h, ← first.className_none]
      exact List.mem_append_left _ (first.className_mem_classNames none)
    · rw [first.className_none]
      exact List.mem_append_right _ h
  | typeVariable hp hbound _ ih =>
    -- the type itself names nothing here, so the class has to be named by a bound
    intro c hc
    refine List.mem_append_left _ ?_
    rcases List.mem_append.1 (ih hc) with h | h
    · exact h
    · exact List.mem_flatMap.2 ⟨_, hp, TypeParameter.classNames_leftmostBound hbound h⟩
  | array _ ih => exact ih

/-- A type has one erasure if no two type parameters share a name. -/
lemma JavaType.Erases.unique (hnodup : (parameters.map (·.name)).Nodup) {s : JavaType}
    (h : Erases parameters t s) (h' : Erases parameters t t') : s = t' := by
  induction h generalizing t' with
  | primitive letter =>
    cases h'
    rfl
  | classType first inner =>
    cases h'
    rfl
  | @typeVariable p bound _ hp hbound _ ih =>
    -- the other erasure is by a parameter of the same name, which is this one
    generalize hname : p.name = name at h'
    cases h' with
    | typeVariable hq hbound' h' =>
      obtain rfl := List.inj_on_of_nodup_map hnodup hp hq hname
      obtain rfl := Option.some.inj (hbound.symm.trans hbound')
      exact ih h'
  | array _ ih =>
    cases h' with
    | array h' => rw [ih h']

/-! ### Type variables that have an erasure -/

/-- The type variable at the place of a type that erasure keeps, if there is one there. -/
def JavaType.erasedVariable? : JavaType → Option Identifier
  | .primitive _ => none
  | .reference (.classType _ _) => none
  | .reference (.typeVariable name) => some name
  | .reference (.array element) => element.erasedVariable?

/-- Whether a type variable is declared with a bound, and the leftmost bounds lead from there to a
type without a type variable that erasure keeps. -/
inductive Resolves (parameters : List TypeParameter) : Identifier → Prop
  | declared {p : TypeParameter} {bound : Reference} (hp : p ∈ parameters)
    (hbound : p.leftmostBound? = some bound)
    (h : ∀ name ∈ (JavaType.reference bound).erasedVariable?, Resolves parameters name) :
    Resolves parameters p.name

lemma JavaType.exists_erases_of_erasedVariable? : ∀ t : JavaType,
    (∀ name ∈ t.erasedVariable?, ∃ t', Erases parameters (.reference (.typeVariable name)) t') →
    ∃ t', Erases parameters t t'
  | .primitive letter, _ => ⟨_, .primitive letter⟩
  | .reference (.classType first inner), _ => ⟨_, .classType first inner⟩
  | .reference (.typeVariable name), h => h name rfl
  | .reference (.array element), h =>
    (exists_erases_of_erasedVariable? element h).imp' _ fun _ => .array

lemma Resolves.exists_erases {name : Identifier} (h : Resolves parameters name) :
    ∃ t', JavaType.Erases parameters (.reference (.typeVariable name)) t' := by
  induction h with
  | declared hp hbound _ ih =>
    obtain ⟨t', ht'⟩ := JavaType.exists_erases_of_erasedVariable? _ ih
    exact ⟨t', .typeVariable hp hbound ht'⟩

lemma JavaType.exists_erases (h : ∀ name ∈ t.erasedVariable?, Resolves parameters name) :
    ∃ t', Erases parameters t t' :=
  t.exists_erases_of_erasedVariable? fun name hname => (h name hname).exists_erases

/-! ### Erasure of several types -/

lemma exists_forall₂_erases : ∀ {types : List JavaType},
    (∀ t ∈ types, ∃ t', t.Erases parameters t') →
    ∃ types', types.Forall₂ (JavaType.Erases parameters) types'
  | [], _ => ⟨[], .nil⟩
  | t :: types, h => by
    rw [List.forall_mem_cons] at h
    obtain ⟨t', ht'⟩ := h.1
    obtain ⟨types', htypes'⟩ := exists_forall₂_erases h.2
    exact ⟨t' :: types', .cons ht' htypes'⟩

lemma append_subset_append {names l l' m m' : List ClassName} (hl : l' ⊆ names ++ l)
    (hm : m' ⊆ names ++ m) : l' ++ m' ⊆ names ++ (l ++ m) := by
  intro c hc
  rcases List.mem_append.1 hc with hc | hc
  · rcases List.mem_append.1 (hl hc) with hc | hc <;> simp [hc]
  · rcases List.mem_append.1 (hm hc) with hc | hc <;> simp [hc]

lemma flatMap_classNames_subset {types types' : List JavaType}
    (h : types.Forall₂ (JavaType.Erases parameters) types') :
    types'.flatMap JavaType.classNames ⊆
      parameters.flatMap TypeParameter.classNames ++ types.flatMap JavaType.classNames := by
  induction h with
  | nil => exact List.nil_subset _
  | cons h _ ih => exact append_subset_append h.classNames_subset ih

/-! ### Erasure of signatures -/

namespace Body

/-- Whether a body is that of a field or a method. A class has several types. -/
def IsMember : Body → Prop
  | method _ => True
  | types _ rest => rest = []

/-- The types that erasure keeps. -/
def erasedTypes : Body → List JavaType
  | method m => m.parameters ++ m.result.toList
  | types first _ => [first]

/-- Erasure of bodies under `parameters`. -/
inductive Erases (parameters : List TypeParameter) : Body → Body → Prop
  /-- The type of a field. -/
  | field {t t' : JavaType} (h : t.Erases parameters t') :
    Erases parameters (.types t []) (.types t' [])
  /-- The type of a method, of which nothing stays that is thrown. -/
  | method {m : MethodType} {types : List JavaType} {result : Option JavaType}
    (hparameters : m.parameters.Forall₂ (JavaType.Erases parameters) types)
    (hresult : m.result.Rel (JavaType.Erases parameters) result) :
    Erases parameters (.method m) (.method ⟨types, result, []⟩)

lemma Erases.classNames_subset {parameters : List TypeParameter} {b b' : Body}
    (h : b.Erases parameters b') :
    b'.classNames ⊆ parameters.flatMap TypeParameter.classNames ++ b.classNames := by
  cases h with
  | field h => simpa [classNames] using h.classNames_subset
  | @method m _ _ hparameters hresult =>
    refine append_subset_append (append_subset_append (flatMap_classNames_subset hparameters) ?_)
      (List.nil_subset _)
    generalize m.result = result at hresult ⊢
    cases hresult with
    | none => exact List.nil_subset _
    | some h => exact h.classNames_subset

lemma Erases.unique {parameters : List TypeParameter} {b b₁ b₂ : Body}
    (hnodup : (parameters.map (·.name)).Nodup) (h : b.Erases parameters b₁)
    (h' : b.Erases parameters b₂) : b₁ = b₂ := by
  have hright : Relator.RightUnique (JavaType.Erases parameters) :=
    fun _ _ _ h h' => h.unique hnodup h'
  cases h with
  | field h =>
    cases h' with
    | field h' => rw [h.unique hnodup h']
  | @method m _ _ hparameters hresult =>
    cases h' with
    | method hparameters' hresult' =>
      rw [List.right_unique_forall₂' hright hparameters hparameters']
      generalize m.result = result at hresult hresult'
      cases hresult with
      | none =>
        cases hresult'
        rfl
      | some h =>
        cases hresult' with
        | some h' => rw [h.unique hnodup h']

end Body

namespace Derivation

variable {d d' : Derivation}

/-- Whether each type variable that erasure keeps has an erasure. -/
def IsGrounded (d : Derivation) : Prop :=
  ∀ t ∈ d.body.erasedTypes, ∀ name ∈ t.erasedVariable?, Resolves d.parameters name

/-- Erasure of signatures. -/
structure Erases (d d' : Derivation) : Prop where
  parameters : d'.parameters = []
  body : d.body.Erases d.parameters d'.body

lemma exists_erases (hmember : d.body.IsMember) (hgrounded : d.IsGrounded) :
    ∃ d', d.Erases d' := by
  have htype : ∀ t ∈ d.body.erasedTypes, ∃ t', t.Erases d.parameters t' :=
    fun t ht => JavaType.exists_erases (hgrounded t ht)
  suffices h : ∃ b, d.body.Erases d.parameters b by
    obtain ⟨b, hb⟩ := h
    exact ⟨⟨[], b⟩, rfl, hb⟩
  cases hbody : d.body with
  | method m =>
    obtain ⟨types, result, thrown⟩ := m
    simp only [hbody, Body.erasedTypes, List.forall_mem_append] at htype
    obtain ⟨types', htypes'⟩ := exists_forall₂_erases htype.1
    cases result with
    | none => exact ⟨_, .method htypes' .none⟩
    | some t =>
      obtain ⟨t', ht'⟩ := htype.2 t (List.mem_singleton_self t)
      exact ⟨_, .method htypes' (.some ht')⟩
  | types first rest =>
    rw [hbody] at hmember htype
    obtain rfl := hmember
    obtain ⟨t', ht'⟩ := htype first (List.mem_singleton_self first)
    exact ⟨_, .field ht'⟩

lemma Erases.classNames_subset (h : d.Erases d') : d'.classNames ⊆ d.classNames := by
  rw [classNames, h.parameters]
  exact h.body.classNames_subset

lemma Derives.classTypes_eq_ok {text : String} (h : d.Derives text.toList) :
    classTypes text = .ok d.classNames := by
  have hreads := d.reads h 0
  rw [List.append_nil] at hreads
  rw [classTypes, readChars, StateT.run, hreads]
  rfl

/-- A signature has one erasure if no two of its type parameters share a name. -/
lemma Erases.unique {d₁ d₂ : Derivation} (hnodup : (d.parameters.map (·.name)).Nodup)
    (h : d.Erases d₁) (h' : d.Erases d₂) : d₁ = d₂ := by
  have hbody := h.body.unique hnodup h'.body
  have hparameters := h.parameters.trans h'.parameters.symm
  cases d₁
  cases d₂
  rw [Derivation.mk.injEq]
  exact ⟨hparameters, hbody⟩

lemma Erases.exists_derives (h : d.Erases d') : ∃ erased : String, d'.Derives erased.toList := by
  refine ⟨String.ofList d'.body.print, ?_, ?_⟩
  · rw [h.parameters, String.toList_ofList]
    rfl
  · rw [h.parameters]
    exact trivial

end Derivation

/-- Reading a well-formed signature of a field or method, one that has a derivation, in place of its
descriptor misses no class. The signature has an erasure as long as each type variable that erasure
keeps is declared with a bound, the leftmost of which lead to a class type or array type; and
whatever the erasure, it is read as the signature is, and names no class that the signature does not
name. -/
theorem classTypes_erasure {text : String} {d : Derivation} (h : d.Derives text.toList) :
    (d.body.IsMember → d.IsGrounded →
      ∃ d', d.Erases d' ∧ ∃ erased : String, d'.Derives erased.toList) ∧
    ∀ d' (erased : String), d.Erases d' → d'.Derives erased.toList →
      ∃ names names', classTypes text = .ok names ∧ classTypes erased = .ok names' ∧
        names' ⊆ names := by
  refine ⟨fun hmember hgrounded => ?_, fun d' erased herases h' => ?_⟩
  · obtain ⟨d', herases⟩ := d.exists_erases hmember hgrounded
    exact ⟨d', herases, herases.exists_derives⟩
  · exact ⟨_, _, h.classTypes_eq_ok, h'.classTypes_eq_ok, herases.classNames_subset⟩

/-! ### A signature with bounds in a chain -/

/-- The name of a type variable. -/
def letterName (c : Char) (h : isReserved c = false) : Identifier where
  chars := [c]
  nonempty := List.cons_ne_nil _ _
  unreserved := by simpa using h

def sampleName : SegmentName :=
  ⟨⟨['a', '/', 'B'], by simp, by simp [isReserved]⟩, by simp⟩

def sampleInner : SegmentName := ⟨⟨['C'], by simp, by simp [isReserved]⟩, by simp⟩

/-- A segment with the type variable `T` as its argument. -/
def sampleSegment : Segment := .mk sampleName [.type none (.typeVariable (letterName 'T' rfl))]

/-- The type parameter `T`, the bound of which is the one after it. -/
def firstParameter : TypeParameter where
  name := letterName 'T' rfl
  classBound := some (.typeVariable (letterName 'U' rfl))
  interfaceBounds := []

def secondParameter : TypeParameter where
  name := letterName 'U' rfl
  classBound := none
  interfaceBounds := [.classType sampleSegment []]

/-- A method with parameters of the types `T` and `a.B<T>.C[]`, which throws `T`. -/
def sampleSignature : Derivation where
  parameters := [firstParameter, secondParameter]
  body := .method
    ⟨[.reference (.typeVariable firstParameter.name),
      .reference (.array (.reference (.classType sampleSegment [.mk sampleInner []])))],
      none, [.typeVariable firstParameter.name]⟩

/-- The descriptor of that method. -/
def sampleDescriptor : Derivation where
  parameters := []
  body := .method
    ⟨[.reference (.classType (.mk sampleName []) []),
      .reference (.array (.reference (.classType (.mk (sampleName.inner sampleInner) []) [])))],
      none, []⟩

theorem classTypes_erasure_sampleSignature :
    sampleSignature.Derives "<T:TU;U::La/B<TT;>;>(TT;[La/B<TT;>.C;)V^TT;".toList ∧
    sampleSignature.body.IsMember ∧ sampleSignature.IsGrounded ∧
    (∃ d', sampleSignature.Erases d' ∧ ∃ erased : String, d'.Derives erased.toList) ∧
    sampleSignature.Erases sampleDescriptor ∧
    sampleDescriptor.Derives "(La/B;[La/B$C;)V".toList ∧
    ∃ names names', classTypes "<T:TU;U::La/B<TT;>;>(TT;[La/B<TT;>.C;)V^TT;" = .ok names ∧
      classTypes "(La/B;[La/B$C;)V" = .ok names' ∧ names' ⊆ names ∧
      names' = [⟨"a.B"⟩, ⟨"a.B.C"⟩] := by
  have hderives :
      sampleSignature.Derives "<T:TU;U::La/B<TT;>;>(TT;[La/B<TT;>.C;)V^TT;".toList :=
    ⟨by decide +kernel, by decide +kernel, by decide +kernel, trivial⟩
  have hfirst : firstParameter ∈ sampleSignature.parameters := List.mem_cons_self
  have hsecond : secondParameter ∈ sampleSignature.parameters :=
    List.mem_cons_of_mem _ List.mem_cons_self
  have hgrounded : sampleSignature.IsGrounded := by
    have hresolves : Resolves sampleSignature.parameters firstParameter.name := by
      refine .declared hfirst rfl fun name hname => ?_
      obtain rfl := Option.some.inj hname
      exact .declared hsecond rfl fun name hname => by cases hname
    intro t ht name hname
    simp only [sampleSignature, Body.erasedTypes, Option.toList_none, List.append_nil,
      List.mem_cons, List.not_mem_nil, or_false] at ht
    rcases ht with rfl | rfl
    · obtain rfl := Option.some.inj hname
      exact hresolves
    · cases hname
  have herases : sampleSignature.Erases sampleDescriptor :=
    ⟨rfl, .method (.cons (.typeVariable hfirst rfl (.typeVariable hsecond rfl (.classType _ _)))
      (.cons (.array (.classType _ _)) .nil)) .none⟩
  have hdescriptor : sampleDescriptor.Derives "(La/B;[La/B$C;)V".toList :=
    ⟨by decide +kernel, trivial⟩
  obtain ⟨hexists, hsubset⟩ := classTypes_erasure hderives
  obtain ⟨names, names', hnames, hnames', hle⟩ := hsubset _ _ herases hdescriptor
  have hread : classTypes "(La/B;[La/B$C;)V" = .ok [⟨"a.B"⟩, ⟨"a.B.C"⟩] := by decide +kernel
  exact ⟨hderives, trivial, hgrounded, hexists trivial hgrounded, herases, hdescriptor, names,
    names', hnames, hnames', hle, Except.ok.inj (hnames'.symm.trans hread)⟩

end Signature
end ClasspathAudit
