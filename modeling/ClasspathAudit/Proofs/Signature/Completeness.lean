import ClasspathAudit.Proofs.Signature.Unambiguity

/-
# Every derivation is read

A reader reads some characters as a value if, with these characters in front of others, it passes
over exactly them and gives the value. What stands behind matters where a list ends, so it is part
of the statement. Each part of a derivation is read with a budget that is greater than its length.
-/
namespace ClasspathAudit
namespace Signature

variable {α β : Type}

/-! ### Steps -/

/-- Whether a reader passes over `text` in front of `rest` and gives `a`. -/
def Reads (p : Parser α) (text : List Char) (a : α) (rest : List Char) : Prop :=
  ∀ position, p ⟨text ++ rest, position⟩ = .ok (a, ⟨rest, position + byteCount text⟩)

@[simp] lemma byteCount_append (w v : List Char) :
    byteCount (w ++ v) = byteCount w + byteCount v := by
  induction w with
  | nil => simp [byteCount]
  | cons c w ih => simp [byteCount, ih, Nat.add_assoc]

lemma bind_of_ok {p : Parser α} {next : α → Parser β} {c m : Cursor} {a : α}
    (h : p c = .ok (a, m)) : (p >>= next) c = next a m := by
  show (p c >>= fun x => next x.1 x.2) = _
  rw [h]
  rfl

lemma Reads.bind {p : Parser α} {next : α → Parser β} {w v rest : List Char} {a : α} {b : β}
    (h : Reads p w a (v ++ rest)) (hnext : Reads (next a) v b rest) :
    Reads (p >>= next) (w ++ v) b rest := by
  intro position
  rw [List.append_assoc, bind_of_ok (h position), hnext, byteCount_append, Nat.add_assoc]

lemma reads_pure (a : α) (rest : List Char) : Reads (pure a) [] a rest :=
  fun _ => rfl

/-- What a reader gives may be changed afterwards. -/
lemma Reads.map {p : Parser α} {f : α → β} {w rest : List Char} {a : α} (h : Reads p w a rest) :
    Reads (do let a ← p; return f a) w (f a) rest := by
  rw [← List.append_nil w]
  exact Reads.bind (by rwa [List.nil_append]) (reads_pure (f a) rest)

lemma reads_bump (x : Char) (rest : List Char) : Reads bump [x] () rest :=
  fun _ => rfl

lemma reads_expect (x : Char) (rest : List Char) : Reads (expect x) [x] () rest := by
  intro position
  simp [expect, byteCount]

/-- Reading on after a look at the next character. -/
lemma reads_peek {next : Option Char → Parser β} {w rest : List Char} {b : β}
    (h : Reads (next (w ++ rest).head?) w b rest) : Reads (peek >>= next) w b rest :=
  fun position => h position

lemma Reads.withBudget {reader : Nat → Parser α} {w rest : List Char} {a : α}
    (h : ∀ budget, w.length < budget → Reads (reader budget) w a rest) :
    Reads (withBudget reader) w a rest :=
  fun position => h _ (by simp only [List.length_append]; omega) position

/-! ### Identifiers -/

lemma takeWhile_append_cons {P : Char → Bool} {w rest : List Char} {x : Char}
    (hw : ∀ c ∈ w, P c = true) (hx : P x = false) : (w ++ x :: rest).takeWhile P = w := by
  rw [List.takeWhile_append_of_pos hw, List.takeWhile_cons_of_neg (by simp [hx]), List.append_nil]

lemma reads_identifier {ends name rest : List Char} {x : Char} (hx : x ∈ ends)
    (hname : name ≠ []) (hfree : ∀ c ∈ name, c ∉ ends ∧ isReserved c = false) :
    Reads (identifier ends) name name (x :: rest) := by
  intro position
  have htake :
      (name ++ x :: rest).takeWhile (fun c => !(ends.contains c || isReserved c)) = name := by
    refine takeWhile_append_cons (fun c hc => ?_) ?_
    · simp [hfree c hc]
    · simp [hx]
  simp only [identifier, htake, List.drop_left]
  rw [if_neg (by simpa using hx), if_neg (by simpa using hname)]

lemma Identifier.reads (name : Identifier) {x : Char} (rest : List Char)
    (hx : isReserved x = true) : Reads (identifier [x]) name.chars name.chars (x :: rest) := by
  refine reads_identifier (List.mem_singleton.2 rfl) name.nonempty fun c hc => ?_
  have hc := name.unreserved c hc
  refine ⟨fun hmem => ?_, hc⟩
  rw [List.mem_singleton.1 hmem, hx] at hc
  cases hc

lemma SegmentName.reads (name : SegmentName) {x : Char} (rest : List Char)
    (hx : x ∈ segmentEnds) : Reads (identifier segmentEnds) name.chars name.chars (x :: rest) := by
  refine reads_identifier hx name.nonempty fun c hc => ⟨fun hmem => ?_, name.unreserved c hc⟩
  have hunreserved := name.unreserved c hc
  simp only [segmentEnds, List.mem_cons, List.not_mem_nil, or_false] at hmem
  rcases hmem with rfl | rfl | rfl
  · exact absurd hunreserved (by decide)
  · exact name.undotted hc
  · exact absurd hunreserved (by decide)

/-! ### Types -/

/-- An inner class spelled with `$` is called as the class around it, a dot and its own name. -/
lemma ofInternal_append (name inner : List Char) :
    ClassName.ofInternal (String.ofList (name ++ '$' :: inner)) =
      (ClassName.ofInternal (String.ofList name)).inner inner := by
  rw [ClassName.inner, ClassName.mk.injEq, ← String.toList_inj]
  simp [ClassName.ofInternal, ClassName.isSeparator]

/-- The text of type arguments with their brackets, which is empty if there are none. -/
def printOptional (arguments : List Argument) : List Char :=
  if arguments.isEmpty then [] else '<' :: (printArguments arguments ++ ['>'])

lemma Segment.print_eq (name : SegmentName) (arguments : List Argument) :
    (Segment.mk name arguments).print = name.chars ++ printOptional arguments :=
  Segment.print.eq_1 ..

lemma length_printArguments_lt {arguments : List Argument} (h : arguments ≠ []) :
    (printArguments arguments).length + 1 < (printOptional arguments).length := by
  simp [printOptional, h]

lemma reads_typeVariable (name : Identifier) (rest : List Char) :
    Reads typeVariable ('T' :: (name.chars ++ [';'])) () rest :=
  (reads_expect 'T' _).bind ((name.reads rest rfl).bind (reads_expect ';' rest))

/-- Reads type arguments with their brackets, if there are any. -/
def optionalArguments (budget : Nat) : Parser (List ClassName) := do
  if (← peek) = some '<' then do
    expect '<'
    if (← peek) = some '>' then fail .emptyTypeArguments
    else typeArguments budget
  else pure []

lemma classTail_succ (budget : Nat) (name : List Char) : classTail (budget + 1) name = (do
    let arguments ← optionalArguments budget
    let found := arguments ++ [ClassName.ofInternal (String.ofList name)]
    match ← peek with
    | some '.' => do
      bump
      let inner ← identifier segmentEnds
      let more ← classTail budget (name ++ '$' :: inner)
      return found ++ more
    | _ => do
      expect ';'
      return found) := by
  -- the reader says in each case anew what follows the arguments
  rw [classTail, optionalArguments, bind_assoc]
  congr 1
  funext next
  split
  · show (expect '<' >>= _) = ((expect '<' >>= _) >>= _)
    rw [bind_assoc]
    congr 1
    funext _
    rw [bind_assoc]
    congr 1
    funext next
    split
    · rewrite [if_pos rfl]
      rfl
    · rename_i hne
      rewrite [if_neg hne]
      rfl
  · rename_i hne
    rewrite [if_neg hne]
    rfl

lemma reads_optionalArguments {budget : Nat} {arguments : List Argument} {x : Char}
    {rest : List Char} (hx : x ≠ '<')
    (h : arguments ≠ [] → Reads (typeArguments budget) (printArguments arguments ++ ['>'])
      (argumentNames arguments) (x :: rest)) :
    Reads (optionalArguments budget) (printOptional arguments) (argumentNames arguments)
      (x :: rest) := by
  refine reads_peek ?_
  cases arguments with
  | nil =>
    simp only [printOptional, List.isEmpty_nil, if_true, List.nil_append, List.head?_cons]
    split
    · rename_i heq
      exact absurd (Option.some.inj heq) hx
    · exact reads_pure [] (x :: rest)
  | cons a arguments =>
    refine Reads.bind (reads_expect '<' _) (reads_peek ?_)
    split
    · rename_i heq
      simp only [printArguments, List.append_eq, List.append_assoc] at heq
      obtain ⟨w, hw⟩ := List.head?_eq_some_iff.1 heq
      exact absurd hw (a.print_append_ne _ w)
    · exact h (List.cons_ne_nil _ _)

/-- Reads one part and then more of its kind. -/
lemma Reads.append {p q : Parser (List ClassName)} {w v rest : List Char} {l l' : List ClassName}
    (h : Reads p w l (v ++ rest)) (hmore : Reads q v l' rest) :
    Reads (do let found ← p; let more ← q; return found ++ more) (w ++ v) (l ++ l') rest :=
  h.bind hmore.map

lemma Reads.discard {p : Parser Unit} {q : Parser (List ClassName)} {x : Char} {w rest : List Char}
    {l : List ClassName} (h : ∀ rest, Reads p [x] () rest) (hq : Reads q w l rest) :
    Reads (do p; q) (x :: w) l rest :=
  (h (w ++ rest)).bind hq

lemma reads_primitiveOr {reference : Parser (List ClassName)} {c : Char} {w rest : List Char}
    {l : List ClassName} (hc : ¬isPrimitive c = true) (h : Reads reference (c :: w) l rest) :
    Reads (primitiveOr reference) (c :: w) l rest := by
  refine reads_peek ?_
  simpa [hc] using h

/-- The name of a segment is read, whatever follows the segment. -/
lemma reads_segmentName {next : List Char → Parser (List ClassName)} (name : SegmentName)
    (arguments : List Argument) (inner : List Segment) {l : List ClassName} {rest : List Char}
    (h : Reads (next name.chars) (printOptional arguments ++ (printInner inner ++ [';'])) l rest) :
    Reads (identifier segmentEnds >>= next)
      (name.chars ++ (printOptional arguments ++ (printInner inner ++ [';']))) l rest := by
  have hend : ∃ c w, printOptional arguments ++ (printInner inner ++ [';']) ++ rest = c :: w ∧
      c ∈ segmentEnds := by
    cases arguments with
    | nil =>
      obtain ⟨c, w, hc, hend, -⟩ := printInner_append_eq_cons inner rest
      refine ⟨c, w, by simpa [printOptional] using hc, ?_⟩
      rcases hend with rfl | rfl | rfl <;> decide
    | cons a arguments => exact ⟨'<', _, rfl, by decide⟩
  obtain ⟨c, w, hrest, hc⟩ := hend
  exact Reads.bind (hrest ▸ name.reads w hc) h

mutual

theorem Reference.reads : ∀ (r : Reference) {budget : Nat} (rest : List Char),
    r.print.length < budget → Reads (referenceType budget) r.print r.classNames rest
  | .classType (.mk name arguments) inner, budget + 1, rest, h => by
    have htail := reads_classTail inner arguments budget name.chars rest
      (reads_typeArguments arguments) (by
        simp only [Reference.print, Segment.print_eq, List.length_cons, List.length_append] at h
        omega)
    rw [referenceType, Reference.print, Segment.print_eq, List.append_assoc, Reference.classNames,
      Segment.classNames, Segment.className, List.append_assoc]
    exact reads_peek (Reads.discard (reads_expect 'L')
      (reads_segmentName name arguments inner htail))
  | .typeVariable name, budget + 1, rest, h => by
    rw [referenceType, Reference.print, Reference.classNames]
    exact reads_peek (reads_typeVariable name rest).map
  | .array element, budget + 1, rest, h => by
    rw [referenceType, Reference.print, Reference.classNames]
    refine reads_peek (Reads.discard (reads_bump '[') ?_)
    exact element.reads rest (by simpa [Reference.print] using h)

theorem JavaType.reads : ∀ (t : JavaType) {budget : Nat} (rest : List Char),
    t.print.length < budget → Reads (javaType budget) t.print t.classNames rest
  | .primitive letter, budget, rest, h => by
    refine reads_peek ?_
    simp only [JavaType.print, List.cons_append, List.head?_cons, letter.property, if_true]
    exact Reads.discard (reads_bump letter.val) (reads_pure [] rest)
  | .reference r, budget, rest, h => by
    obtain ⟨c, w, hr, hc⟩ := r.print_eq_cons
    have hreads := r.reads rest h
    rw [JavaType.print, JavaType.classNames]
    rw [hr] at hreads ⊢
    exact reads_primitiveOr (not_isPrimitive hc) hreads

/-- What follows a segment is read, if its type arguments are. -/
theorem reads_classTail : ∀ (inner : List Segment) (arguments : List Argument) (budget : Nat)
    (name rest : List Char),
    (∀ (budget : Nat) (rest : List Char), (printArguments arguments).length + 1 < budget →
      Reads (typeArguments budget) (printArguments arguments ++ ['>']) (argumentNames arguments)
        rest) →
    (printOptional arguments).length + (printInner inner).length < budget →
    Reads (classTail budget name) (printOptional arguments ++ (printInner inner ++ [';']))
      (argumentNames arguments ++ .ofInternal (String.ofList name) ::
        innerNames (.ofInternal (String.ofList name)) inner) rest
  | [], arguments, budget + 1, name, rest, harguments, h => by
    have hoptional : Reads (optionalArguments budget) (printOptional arguments)
        (argumentNames arguments) (';' :: rest) := by
      refine reads_optionalArguments (by decide) fun hne => harguments budget _ ?_
      have := length_printArguments_lt hne
      omega
    rw [classTail_succ]
    exact hoptional.bind (reads_peek (reads_expect ';' rest).map)
  | .mk inner arguments' :: more, arguments, budget + 1, name, rest, harguments, h => by
    simp only [printInner, Segment.print_eq, List.length_cons, List.length_append] at h
    have htail := reads_classTail more arguments' budget (name ++ '$' :: inner.chars) rest
      (reads_typeArguments arguments') (by omega)
    have hoptional : Reads (optionalArguments budget) (printOptional arguments)
        (argumentNames arguments) ('.' :: (inner.chars ++ (printOptional arguments' ++
          (printInner more ++ [';']))) ++ rest) := by
      refine reads_optionalArguments (by decide) fun hne => harguments budget _ ?_
      have := length_printArguments_lt hne
      omega
    -- the name read so far grows by `$` and the inner name, as the name of the inner class does
    rw [ofInternal_append] at htail
    rw [classTail_succ, printInner, Segment.print_eq, List.cons_append, List.append_assoc,
      List.append_assoc, innerNames, Segment.classNames, Segment.className,
      List.append_cons (argumentNames arguments), List.append_assoc (argumentNames arguments')]
    exact hoptional.bind (reads_peek (Reads.discard (reads_bump '.')
      (reads_segmentName inner arguments' more htail.map)))

theorem reads_typeArguments : ∀ (arguments : List Argument) (budget : Nat) (rest : List Char),
    (printArguments arguments).length + 1 < budget →
    Reads (typeArguments budget) (printArguments arguments ++ ['>']) (argumentNames arguments) rest
  | [], budget + 1, rest, h => by
    rw [typeArguments, printArguments, argumentNames, List.nil_append]
    exact reads_peek (reads_expect '>' rest).map
  | .any :: more, budget + 1, rest, h => by
    have hmore := reads_typeArguments more budget rest
      (by simpa [printArguments, Argument.print] using h)
    rw [typeArguments, printArguments, argumentNames, Argument.print, Argument.classNames]
    exact reads_peek (Reads.discard (reads_bump '*') hmore)
  | .type wildcard r :: more, budget + 1, rest, h => by
    obtain ⟨c, w, hr, hc⟩ := r.print_eq_cons
    simp only [printArguments, Argument.print, List.length_append] at h
    have hlength : r.print.length = w.length + 1 := by rw [hr, List.length_cons]
    have hmore := reads_typeArguments more budget rest (by omega)
    have hboth : Reads (do
          let found ← referenceType budget
          let more ← typeArguments budget
          return found ++ more)
        (r.print ++ (printArguments more ++ ['>'])) (r.classNames ++ argumentNames more) rest :=
      Reads.append (r.reads _ (by omega)) hmore
    rw [typeArguments, printArguments, argumentNames, Argument.print, Argument.classNames,
      List.append_assoc, List.append_assoc]
    -- without a wildcard the argument starts as a reference type does
    refine reads_peek ?_
    cases wildcard with
    | none =>
      rw [hr] at hboth ⊢
      rcases hc with rfl | rfl | rfl <;> exact hboth
    | some wildcard =>
      cases wildcard with
      | «extends» => exact Reads.discard (reads_bump '+') hboth
      | super => exact Reads.discard (reads_bump '-') hboth

end

lemma reads_oneReference (r : Reference) (rest : List Char) :
    Reads oneReference r.print r.classNames rest :=
  Reads.withBudget fun _ h => r.reads rest h

lemma reads_oneType (t : JavaType) (rest : List Char) : Reads oneType t.print t.classNames rest :=
  Reads.withBudget fun _ h => t.reads rest h

/-! ### Type parameters -/

lemma reads_interfaceBounds {bounds : List Reference} {budget : Nat} {rest : List Char}
    (hrest : ∀ c ∈ rest.head?, c ≠ ':')
    (h : (bounds.flatMap TypeParameter.printBound).length < budget) :
    Reads (interfaceBounds budget) (bounds.flatMap TypeParameter.printBound)
      (bounds.flatMap Reference.classNames) rest := by
  induction bounds generalizing budget with
  | nil =>
    obtain _ | budget := budget
    · cases h
    · refine reads_peek ?_
      split
      · rename_i heq
        exact absurd rfl (hrest _ heq)
      · exact reads_pure [] rest
  | cons r bounds ih =>
    obtain _ | budget := budget
    · cases h
    · simp only [List.flatMap_cons, TypeParameter.printBound, List.length_append,
        List.length_cons] at h
      rw [List.flatMap_cons, List.flatMap_cons]
      exact reads_peek (Reads.discard (reads_bump ':')
        (Reads.append (reads_oneReference r _) (ih (by omega))))

lemma reads_classBound {bound : Option Reference} {rest : List Char}
    (h : bound.isSome ↔ TypeParameter.startsReference (bound.elim [] Reference.print ++ rest)) :
    Reads classBound (bound.elim [] Reference.print) (bound.elim [] Reference.classNames) rest := by
  refine reads_peek ?_
  cases bound with
  | none =>
    have hstart : ¬TypeParameter.startsReference rest = true := by simpa using h
    simp only [Option.elim_none, List.nil_append]
    cases rest with
    | nil => exact reads_pure [] []
    | cons c rest =>
      rw [TypeParameter.startsReference_iff] at hstart
      rw [List.head?_cons]
      split
      · rename_i heq
        exact absurd (.inl (Option.some.inj heq)) hstart
      · rename_i heq
        exact absurd (.inr (.inl (Option.some.inj heq))) hstart
      · rename_i heq
        exact absurd (.inr (.inr (Option.some.inj heq))) hstart
      · exact reads_pure [] _
  | some r =>
    obtain ⟨c, w, hr, hc⟩ := r.print_eq_cons
    have hreads := reads_oneReference r rest
    simp only [Option.elim_some]
    rw [hr] at hreads ⊢
    rcases hc with rfl | rfl | rfl <;> exact hreads

namespace TypeParameter

/-- A type parameter reads its class bound from what follows its `:`. -/
lemma reads_ownBound (p : TypeParameter) {parameters : List TypeParameter} {rest : List Char}
    (h : p.classBound.isSome ↔ startsReference (p.printBounds ++ (printAll parameters ++ ['>']))) :
    Reads Signature.classBound (p.classBound.elim [] Reference.print)
      (p.classBound.elim [] Reference.classNames)
      (p.interfaceBounds.flatMap printBound ++ (printAll parameters ++ ['>']) ++ rest) := by
  refine reads_classBound (h.trans ?_)
  rw [printBounds, ← List.append_assoc, ← startsReference_append _ rest]
  simp only [List.append_assoc, List.cons_append, List.nil_append]

lemma reads_typeParameters {parameters : List TypeParameter} {budget : Nat} {rest : List Char}
    (htake : TakeBounds parameters) (h : (printAll parameters).length < budget) :
    Reads (typeParameters budget) (printAll parameters ++ ['>'])
      (parameters.flatMap classNames) rest := by
  induction parameters generalizing budget with
  | nil =>
    obtain _ | budget := budget
    · cases h
    · exact reads_peek (reads_expect '>' rest).map
  | cons p parameters ih =>
    obtain _ | budget := budget
    · cases h
    · obtain ⟨hbound, htake⟩ := htake
      obtain ⟨c, w, hname, hc⟩ := p.name.chars_eq_cons
      have hlength : (printAll parameters).length < budget := by
        simp only [printAll, List.flatMap_cons, print, List.length_append, List.length_cons] at h
        simp only [printAll]
        omega
      -- the next name and the `>` end the bounds, because neither starts with `:`
      have hbounds : Reads (withBudget Signature.interfaceBounds)
          (p.interfaceBounds.flatMap printBound) (p.interfaceBounds.flatMap Reference.classNames)
          (printAll parameters ++ ['>'] ++ rest) := by
        refine Reads.withBudget fun _ h => reads_interfaceBounds ?_ h
        simpa using head?_printAll_append parameters rest
      rw [typeParameters, printAll_cons_append, printBounds, List.append_assoc, List.flatMap_cons,
        classNames]
      refine reads_peek ?_
      split
      · rename_i heq
        rw [hname] at heq
        obtain rfl := Option.some.inj heq
        exact absurd hc (by decide)
      · refine Reads.bind (p.name.reads _ rfl)
          (Reads.discard (reads_expect ':') (Reads.bind (p.reads_ownBound hbound)
            (Reads.bind hbounds (reads_peek ?_))))
        split
        · rename_i heq
          simp at heq
        · exact (ih htake hlength).map

end TypeParameter

lemma reads_optionalTypeParameters {parameters : List TypeParameter} {rest : List Char}
    (htake : TypeParameter.TakeBounds parameters) (hrest : ∀ c ∈ rest.head?, c ≠ '<') :
    Reads optionalTypeParameters (Derivation.printParameters parameters)
      (parameters.flatMap TypeParameter.classNames) rest := by
  refine reads_peek ?_
  cases parameters with
  | nil =>
    simp only [Derivation.printParameters, List.isEmpty_nil, if_true, List.nil_append]
    split
    · rename_i heq
      exact absurd rfl (hrest _ heq)
    · exact reads_pure [] rest
  | cons p parameters =>
    refine Reads.discard (reads_expect '<') (reads_peek ?_)
    obtain ⟨c, w, hname, hc⟩ := p.name.chars_eq_cons
    split
    · rename_i heq
      rw [TypeParameter.printAll_cons_append, hname] at heq
      obtain rfl := Option.some.inj heq
      exact absurd hc (by decide)
    · exact Reads.withBudget fun _ h => TypeParameter.reads_typeParameters htake
        (by rw [List.length_append] at h; omega)

/-! ### Methods -/

lemma reads_parameterTypes {parameters : List JavaType} {budget : Nat} {rest : List Char}
    (h : (parameters.flatMap JavaType.print).length < budget) :
    Reads (parameterTypes budget) (parameters.flatMap JavaType.print ++ [')'])
      (parameters.flatMap JavaType.classNames) rest := by
  induction parameters generalizing budget with
  | nil =>
    obtain _ | budget := budget
    · cases h
    · exact reads_peek (reads_expect ')' rest).map
  | cons t parameters ih =>
    obtain _ | budget := budget
    · cases h
    · obtain ⟨c, w, ht, -⟩ := t.print_eq_cons
      rw [List.flatMap_cons, List.length_append, ht, List.length_cons] at h
      have hlength : (parameters.flatMap JavaType.print).length < budget := by omega
      have hboth := Reads.append (reads_oneType t _) (ih hlength)
      rw [List.flatMap_cons, List.append_assoc, List.flatMap_cons]
      refine reads_peek ?_
      split
      · rename_i heq
        obtain ⟨r, hr⟩ := List.head?_eq_some_iff.1 heq
        rw [List.append_assoc] at hr
        exact absurd hr (t.print_append_ne (by simp) _ r)
      · rename_i heq
        simp [ht] at heq
      · exact hboth

lemma reads_resultType (result : Option JavaType) (rest : List Char) :
    Reads resultType (MethodType.printResult result) (result.elim [] JavaType.classNames) rest := by
  refine reads_peek ?_
  cases result with
  | none => exact Reads.discard (reads_bump 'V') (reads_pure [] rest)
  | some t =>
    simp only [MethodType.printResult, Option.elim_some]
    split
    · rename_i heq
      obtain ⟨r, hr⟩ := List.head?_eq_some_iff.1 heq
      exact absurd hr (t.print_append_ne (by simp) _ r)
    · exact reads_oneType t rest

/-- Reads what is thrown behind a `^`. -/
def thrownType : Parser (List ClassName) := do
  match ← peek with
  | some 'T' | some 'L' => oneReference
  | _ => fail .badThrows

lemma thrownTypes_succ (budget : Nat) : thrownTypes (budget + 1) = (do
    match ← peek with
    | some '^' => do
      bump
      let found ← thrownType
      let more ← thrownTypes budget
      return found ++ more
    | none => return []
    | some _ => fail .trailing) := by
  rw [thrownTypes]
  congr 1
  funext next
  split
  · show (bump >>= _) = (bump >>= _)
    congr 1
    funext _
    rw [thrownType, bind_assoc]
    congr 1
    funext next
    split
    · rfl
    · rfl
    · simp only
  · rfl
  · simp only

lemma Thrown.reads (t : Thrown) (rest : List Char) :
    Reads thrownType t.toReference.print t.toReference.classNames rest := by
  have hreads := reads_oneReference t.toReference rest
  refine reads_peek ?_
  cases t <;> exact hreads

lemma reads_thrownTypes {thrown : List Thrown} {budget : Nat}
    (h : (thrown.flatMap Thrown.print).length < budget) :
    Reads (thrownTypes budget) (thrown.flatMap Thrown.print)
      (thrown.flatMap fun t => t.toReference.classNames) [] := by
  induction thrown generalizing budget with
  | nil =>
    obtain _ | budget := budget
    · cases h
    · exact reads_peek (reads_pure [] [])
  | cons t thrown ih =>
    obtain _ | budget := budget
    · cases h
    · rw [List.flatMap_cons, List.length_append, Thrown.print, List.length_cons] at h
      rw [thrownTypes_succ, List.flatMap_cons, List.flatMap_cons]
      exact reads_peek (Reads.discard (reads_bump '^')
        (Reads.append (t.reads _) (ih (by omega))))

lemma MethodType.reads (m : MethodType) : Reads methodType m.print m.classNames [] := by
  have hparameters : Reads (withBudget parameterTypes)
      (m.parameters.flatMap JavaType.print ++ [')']) (m.parameters.flatMap JavaType.classNames)
      (printResult m.result ++ m.thrown.flatMap Thrown.print ++ []) :=
    Reads.withBudget fun _ h => reads_parameterTypes (by rw [List.length_append] at h; omega)
  have hthrown : Reads (withBudget thrownTypes) (m.thrown.flatMap Thrown.print)
      (m.thrown.flatMap fun t => t.toReference.classNames) [] :=
    Reads.withBudget fun _ => reads_thrownTypes
  rw [print, List.append_cons, classNames]
  exact Reads.discard (reads_expect '(')
    (hparameters.bind ((reads_resultType m.result _).bind hthrown.map))

/-! ### Whole signatures -/

lemma reads_typesToEnd {types : List JavaType} {budget : Nat}
    (h : (types.flatMap JavaType.print).length < budget) :
    Reads (typesToEnd budget) (types.flatMap JavaType.print)
      (types.flatMap JavaType.classNames) [] := by
  induction types generalizing budget with
  | nil =>
    obtain _ | budget := budget
    · cases h
    · exact reads_peek (reads_pure [] [])
  | cons t types ih =>
    obtain _ | budget := budget
    · cases h
    · obtain ⟨c, w, ht, -⟩ := t.print_eq_cons
      rw [List.flatMap_cons, List.length_append, ht, List.length_cons] at h
      have hlength : (types.flatMap JavaType.print).length < budget := by omega
      have hboth := Reads.append (reads_oneType t _) (ih hlength)
      rw [List.flatMap_cons, List.flatMap_cons]
      refine reads_peek ?_
      split
      · rename_i heq
        simp [ht] at heq
      · exact hboth

lemma Body.reads (b : Body) {names : List ClassName} {next : Option Char → Parser (List ClassName)}
    (hmethod : next (some '(') = do let method ← methodType; return names ++ method)
    (htypes : ∀ c, c ≠ '(' →
      next (some c) = do let types ← withBudget typesToEnd; return names ++ types) :
    Reads (peek >>= next) b.print (names ++ b.classNames) [] := by
  refine reads_peek ?_
  cases b with
  | method m =>
    show Reads (next (some '(')) m.print _ []
    rw [hmethod]
    exact m.reads.map
  | types first rest =>
    obtain ⟨c, w, hfirst, hc⟩ := first.print_eq_cons
    have hne : c ≠ '(' := by
      rintro rfl
      exact not_startsType (by simp) hc
    have hreads : Reads (withBudget typesToEnd) ((first :: rest).flatMap JavaType.print)
        ((first :: rest).flatMap JavaType.classNames) [] :=
      Reads.withBudget fun _ => reads_typesToEnd
    rw [List.flatMap_cons, List.flatMap_cons, hfirst] at hreads
    rw [print, classNames, hfirst]
    show Reads (next (some c)) _ _ []
    rw [htypes c hne]
    exact hreads.map

/-- What is derived is read. -/
lemma Derivation.reads {d : Derivation} {text : List Char} (h : d.Derives text) :
    Reads whole text d.classNames [] := by
  obtain ⟨rfl, htake⟩ := h
  obtain ⟨c, w, hbody, hc⟩ := d.body.print_eq_cons
  have hne : c ≠ '<' := by
    rintro rfl
    rcases hc with hc | hc
    · exact absurd hc (by decide)
    · exact not_startsType (by simp) hc
  have hparameters : Reads optionalTypeParameters (printParameters d.parameters)
      (d.parameters.flatMap TypeParameter.classNames) (d.body.print ++ []) := by
    refine reads_optionalTypeParameters htake ?_
    simpa [hbody] using hne
  refine reads_peek ?_
  split
  · rename_i heq
    simp [hbody] at heq
  · refine Reads.bind hparameters (d.body.reads rfl ?_)
    intro c hc
    split
    · rename_i heq
      exact absurd (Option.some.inj heq) hc
    · rename_i heq
      cases heq
    · rfl

end Signature
end ClasspathAudit
