import ClasspathAudit.Proofs.Signature.Grammar

/-
# The grammar of signatures is unambiguous

Each part of a signature shows where it ends, so a text that starts with a part starts with one such
part only. The induction is on the tree of the part.
-/
namespace ClasspathAudit
namespace Signature

/-! ### Where identifiers end -/

/-- A run of characters of one kind ends where the first character of another kind stands. -/
lemma append_cons_inj {P : Char → Prop} {a b r r' : List Char} {x y : Char}
    (ha : ∀ c ∈ a, P c) (hb : ∀ c ∈ b, P c) (hx : ¬P x) (hy : ¬P y)
    (h : a ++ x :: r = b ++ y :: r') : a = b ∧ x = y ∧ r = r' := by
  induction a generalizing b with
  | nil =>
    cases b with
    | nil => simpa using h
    | cons c b =>
      obtain ⟨rfl, -⟩ := List.cons.inj h
      exact absurd (hb x (by simp)) hx
  | cons c a ih =>
    cases b with
    | nil =>
      obtain ⟨rfl, -⟩ := List.cons.inj h
      exact absurd (ha c (by simp)) hy
    | cons c' b =>
      obtain ⟨rfl, hrest⟩ := List.cons.inj h
      obtain ⟨rfl, hxy, hr⟩ := ih (fun d hd => ha d (List.mem_cons_of_mem _ hd))
        (fun d hd => hb d (List.mem_cons_of_mem _ hd)) hrest
      exact ⟨rfl, hxy, hr⟩

lemma Identifier.append_inj {a b : Identifier} {x y : Char} {r r' : List Char}
    (hx : isReserved x = true) (hy : isReserved y = true)
    (h : a.chars ++ x :: r = b.chars ++ y :: r') : a = b ∧ x = y ∧ r = r' := by
  obtain ⟨hab, hrest⟩ := append_cons_inj (P := (isReserved · = false)) a.unreserved b.unreserved
    (by simp [hx]) (by simp [hy]) h
  exact ⟨Identifier.ext hab, hrest⟩

/-- Whether a character may follow the name of a segment. -/
def endsSegment (c : Char) : Prop :=
  c = '<' ∨ c = '.' ∨ c = ';'

lemma SegmentName.append_inj {a b : SegmentName} {x y : Char} {r r' : List Char}
    (hx : endsSegment x) (hy : endsSegment y) (h : a.chars ++ x :: r = b.chars ++ y :: r') :
    a = b ∧ x = y ∧ r = r' := by
  have hfree : ∀ n : SegmentName, ∀ c ∈ n.chars, isReserved c = false ∧ c ≠ '.' := by
    intro n c hc
    refine ⟨n.unreserved c hc, ?_⟩
    rintro rfl
    exact n.undotted hc
  have hstop : ∀ c, endsSegment c → ¬(isReserved c = false ∧ c ≠ '.') := by
    rintro c (rfl | rfl | rfl) <;> decide
  obtain ⟨hab, hrest⟩ := append_cons_inj (hfree a) (hfree b) (hstop x hx) (hstop y hy) h
  exact ⟨SegmentName.ext hab, hrest⟩

/-! ### How parts start -/

/-- Whether a character starts a reference type. -/
def startsReferenceType (c : Char) : Prop :=
  c = 'L' ∨ c = 'T' ∨ c = '['

lemma not_isPrimitive {c : Char} (h : startsReferenceType c) : ¬isPrimitive c = true := by
  rcases h with rfl | rfl | rfl <;> decide

lemma Reference.print_eq_cons (r : Reference) :
    ∃ c w, r.print = c :: w ∧ startsReferenceType c := by
  cases r with
  | classType first inner => exact ⟨_, _, Reference.print.eq_1 .., .inl rfl⟩
  | typeVariable name => exact ⟨_, _, Reference.print.eq_2 .., .inr (.inl rfl)⟩
  | array element => exact ⟨_, _, Reference.print.eq_3 .., .inr (.inr rfl)⟩

lemma JavaType.print_eq_cons (t : JavaType) :
    ∃ c w, t.print = c :: w ∧ (isPrimitive c = true ∨ startsReferenceType c) := by
  cases t with
  | primitive letter => exact ⟨_, _, JavaType.print.eq_1 .., .inl letter.property⟩
  | reference r =>
    obtain ⟨c, w, hr, hc⟩ := r.print_eq_cons
    exact ⟨c, w, by rw [JavaType.print, hr], .inr hc⟩

lemma Wildcard.not_startsReferenceType (w : Wildcard) : ¬startsReferenceType w.char := by
  cases w <;> rintro (h | h | h) <;> exact absurd h (by decide)

lemma Argument.print_type_eq_cons (wildcard : Option Wildcard) (r : Reference) :
    ∃ c w, (Argument.type wildcard r).print = c :: w ∧ c ≠ '*' ∧ c ≠ '>' := by
  rw [Argument.print]
  cases wildcard with
  | none =>
    obtain ⟨c, w, hr, hc⟩ := r.print_eq_cons
    refine ⟨c, w, hr, ?_⟩
    rcases hc with rfl | rfl | rfl <;> decide
  | some wildcard =>
    refine ⟨wildcard.char, r.print, rfl, ?_⟩
    cases wildcard <;> decide

lemma Argument.print_append_ne (a : Argument) (w r : List Char) : a.print ++ w ≠ '>' :: r := by
  intro h
  cases a with
  | any => simp [Argument.print] at h
  | type wildcard a =>
    obtain ⟨c, w', ha, -, hc⟩ := Argument.print_type_eq_cons wildcard a
    rw [ha] at h
    exact hc (List.cons.inj h).1

lemma printInner_append_eq_cons (segments : List Segment) (r : List Char) :
    ∃ c w, printInner segments ++ ';' :: r = c :: w ∧ endsSegment c ∧ c ≠ '<' := by
  cases segments with
  | nil => exact ⟨';', r, by rw [printInner, List.nil_append], .inr (.inr rfl), by decide⟩
  | cons s rest => exact ⟨'.', _, by rw [printInner, List.cons_append], .inr (.inl rfl), by decide⟩

/-! ### Types -/

/-- A class type ends at its `;`, if its segments and its arguments end. -/
lemma segments_append_inj {first first' : Segment} {inner inner' : List Segment} {r r' : List Char}
    (hfirst : ∀ {x y : Char} {w w' : List Char}, endsSegment x ∧ x ≠ '<' → endsSegment y ∧ y ≠ '<' →
      first.print ++ x :: w = first'.print ++ y :: w' → first = first' ∧ x :: w = y :: w')
    (hinner : printInner inner ++ ';' :: r = printInner inner' ++ ';' :: r' →
      inner = inner' ∧ r = r')
    (h : first.print ++ (printInner inner ++ ';' :: r) =
      first'.print ++ (printInner inner' ++ ';' :: r')) :
    first = first' ∧ inner = inner' ∧ r = r' := by
  -- an inner segment or the `;` follows, and neither starts with the bracket of arguments
  obtain ⟨c, w, hc, hend⟩ := printInner_append_eq_cons inner r
  obtain ⟨c', w', hc', hend'⟩ := printInner_append_eq_cons inner' r'
  rw [hc, hc'] at h
  obtain ⟨hsegment, hrest⟩ := hfirst hend hend' h
  rw [← hc, ← hc'] at hrest
  exact ⟨hsegment, hinner hrest⟩

/-- The text of a segment shows its arguments behind its name. -/
lemma Segment.print_append (name : SegmentName) (arguments : List Argument) (r : List Char) :
    (Segment.mk name arguments).print ++ r = name.chars ++
      if arguments = [] then r else '<' :: (printArguments arguments ++ '>' :: r) := by
  rw [Segment.print]
  by_cases h : arguments = []
  · simp [h]
  · simp [h]

/-- A wildcard shows itself before a type. -/
lemma wildcard_append_inj {w w' : Option Wildcard} {a b : Reference} {r r' : List Char}
    (h : (w.map Wildcard.char).toList ++ (a.print ++ r) =
      (w'.map Wildcard.char).toList ++ (b.print ++ r')) :
    w = w' ∧ a.print ++ r = b.print ++ r' := by
  obtain ⟨c, v, ha, hc⟩ := a.print_eq_cons
  obtain ⟨c', v', hb, hc'⟩ := b.print_eq_cons
  cases w with
  | none =>
    cases w' with
    | none => exact ⟨rfl, h⟩
    | some w' =>
      rw [ha] at h
      obtain ⟨rfl, -⟩ := List.cons.inj h
      exact absurd hc w'.not_startsReferenceType
  | some w =>
    cases w' with
    | none =>
      rw [hb] at h
      obtain ⟨rfl, -⟩ := List.cons.inj h
      exact absurd hc' w.not_startsReferenceType
    | some w' =>
      obtain ⟨hw, hrest⟩ := List.cons.inj h
      refine ⟨?_, hrest⟩
      cases w <;> cases w' <;> first | rfl | exact absurd hw (by decide)

mutual

theorem Reference.print_append_inj : ∀ {a b : Reference} {r r' : List Char},
    a.print ++ r = b.print ++ r' → a = b ∧ r = r'
  | .classType first inner, b, r, r', h => by
    cases b with
    | classType first' inner' =>
      simp only [Reference.print, List.cons_append, List.append_assoc, List.nil_append,
        List.cons.injEq, true_and] at h
      obtain ⟨rfl, rfl, hr⟩ := segments_append_inj
        (fun hx hy hsegment => Segment.print_append_inj (a := first) hx hy hsegment)
        (printInner_append_inj (a := inner)) h
      exact ⟨rfl, hr⟩
    | typeVariable name => simp [Reference.print] at h
    | array element => simp [Reference.print] at h
  | .typeVariable name, b, r, r', h => by
    cases b with
    | typeVariable name' =>
      simp only [Reference.print, List.cons_append, List.append_assoc, List.nil_append,
        List.cons.injEq, true_and] at h
      obtain ⟨rfl, -, hr⟩ := Identifier.append_inj (by decide) (by decide) h
      exact ⟨rfl, hr⟩
    | classType first inner => simp [Reference.print] at h
    | array element => simp [Reference.print] at h
  | .array element, b, r, r', h => by
    cases b with
    | array element' =>
      rw [Reference.print, Reference.print] at h
      obtain ⟨rfl, hr⟩ := JavaType.print_append_inj (List.cons.inj h).2
      exact ⟨rfl, hr⟩
    | classType first inner => simp [Reference.print] at h
    | typeVariable name => simp [Reference.print] at h

theorem JavaType.print_append_inj : ∀ {a b : JavaType} {r r' : List Char},
    a.print ++ r = b.print ++ r' → a = b ∧ r = r'
  | .primitive letter, b, r, r', h => by
    cases b with
    | primitive letter' =>
      obtain ⟨hletter, hr⟩ := List.cons.inj h
      exact ⟨by rw [Subtype.ext hletter], hr⟩
    | reference b =>
      obtain ⟨c, w, hb, hc⟩ := b.print_eq_cons
      rw [JavaType.print, JavaType.print, hb] at h
      obtain ⟨rfl, -⟩ := List.cons.inj h
      exact absurd letter.property (not_isPrimitive hc)
  | .reference a, b, r, r', h => by
    cases b with
    | primitive letter =>
      obtain ⟨c, w, ha, hc⟩ := a.print_eq_cons
      rw [JavaType.print, JavaType.print, ha] at h
      obtain ⟨rfl, -⟩ := List.cons.inj h
      exact absurd letter.property (not_isPrimitive hc)
    | reference b =>
      rw [JavaType.print, JavaType.print] at h
      obtain ⟨rfl, hr⟩ := Reference.print_append_inj h
      exact ⟨rfl, hr⟩

theorem Segment.print_append_inj : ∀ {a b : Segment} {x y : Char} {r r' : List Char},
    endsSegment x ∧ x ≠ '<' → endsSegment y ∧ y ≠ '<' →
    a.print ++ x :: r = b.print ++ y :: r' → a = b ∧ x :: r = y :: r'
  | .mk name arguments, .mk name' arguments', x, y, r, r', hx, hy, h => by
    -- the character behind the name tells whether there are arguments
    rw [Segment.print_append, Segment.print_append] at h
    have hbracket : endsSegment '<' := .inl rfl
    by_cases hnone : arguments = []
    · by_cases hnone' : arguments' = []
      · rw [if_pos hnone, if_pos hnone'] at h
        obtain ⟨rfl, rfl, rfl⟩ := SegmentName.append_inj hx.1 hy.1 h
        exact ⟨by rw [hnone, hnone'], rfl⟩
      · rw [if_pos hnone, if_neg hnone'] at h
        exact absurd (SegmentName.append_inj hx.1 hbracket h).2.1 hx.2
    · by_cases hnone' : arguments' = []
      · rw [if_neg hnone, if_pos hnone'] at h
        exact absurd (SegmentName.append_inj hbracket hy.1 h).2.1.symm hy.2
      · rw [if_neg hnone, if_neg hnone'] at h
        obtain ⟨rfl, -, hrest⟩ := SegmentName.append_inj hbracket hbracket h
        obtain ⟨rfl, hr⟩ := printArguments_append_inj hrest
        exact ⟨rfl, hr⟩

theorem printInner_append_inj : ∀ {a b : List Segment} {r r' : List Char},
    printInner a ++ ';' :: r = printInner b ++ ';' :: r' → a = b ∧ r = r'
  | [], b, r, r', h => by
    cases b with
    | nil => simpa [printInner] using h
    | cons s rest => simp [printInner] at h
  | s :: rest, b, r, r', h => by
    cases b with
    | nil => simp [printInner] at h
    | cons s' rest' =>
      simp only [printInner, List.cons_append, List.append_assoc, List.cons.injEq, true_and] at h
      obtain ⟨rfl, rfl, hr⟩ := segments_append_inj
        (fun hx hy hsegment => Segment.print_append_inj (a := s) hx hy hsegment)
        (printInner_append_inj (a := rest)) h
      exact ⟨rfl, hr⟩

theorem printArguments_append_inj : ∀ {a b : List Argument} {r r' : List Char},
    printArguments a ++ '>' :: r = printArguments b ++ '>' :: r' → a = b ∧ r = r'
  | [], b, r, r', h => by
    cases b with
    | nil => simpa [printArguments] using h
    | cons b rest =>
      rw [printArguments, printArguments, List.append_assoc] at h
      exact absurd h.symm (b.print_append_ne _ _)
  | a :: rest, b, r, r', h => by
    cases b with
    | nil =>
      rw [printArguments, printArguments, List.append_assoc] at h
      exact absurd h (a.print_append_ne _ _)
    | cons b rest' =>
      rw [printArguments, printArguments, List.append_assoc, List.append_assoc] at h
      obtain ⟨rfl, hrest⟩ := Argument.print_append_inj h
      obtain ⟨rfl, hr⟩ := printArguments_append_inj hrest
      exact ⟨rfl, hr⟩

theorem Argument.print_append_inj : ∀ {a b : Argument} {r r' : List Char},
    a.print ++ r = b.print ++ r' → a = b ∧ r = r'
  | .any, b, r, r', h => by
    cases b with
    | any => simpa [Argument.print] using h
    | type wildcard b =>
      obtain ⟨c, w, hb, hc⟩ := Argument.print_type_eq_cons wildcard b
      rw [hb] at h
      exact absurd (List.cons.inj h).1.symm hc.1
  | .type wildcard a, b, r, r', h => by
    cases b with
    | any =>
      obtain ⟨c, w, ha, hc⟩ := Argument.print_type_eq_cons wildcard a
      rw [ha] at h
      exact absurd (List.cons.inj h).1 hc.1
    | type wildcard' b =>
      have hfirst : wildcard = wildcard' ∧ a.print ++ r = b.print ++ r' :=
        wildcard_append_inj (by simpa [Argument.print] using h)
      obtain ⟨rfl, hrest⟩ := hfirst
      obtain ⟨rfl, hr⟩ := Reference.print_append_inj hrest
      exact ⟨rfl, hr⟩

end

/-! ### Lists of parts -/

/-- A list of parts ends where no part starts. -/
lemma flatMap_append_inj {α : Type} {print : α → List Char} {P : Char → Prop}
    (hstart : ∀ a, ∃ c w, print a = c :: w ∧ P c)
    (hinj : ∀ {a b : α} {r r' : List Char}, print a ++ r = print b ++ r' → a = b ∧ r = r')
    {l l' : List α} {r r' : List Char} (hr : ∀ c ∈ r.head?, ¬P c) (hr' : ∀ c ∈ r'.head?, ¬P c)
    (h : l.flatMap print ++ r = l'.flatMap print ++ r') : l = l' ∧ r = r' := by
  have hne : ∀ (a : α) (w r : List Char), (∀ c ∈ r.head?, ¬P c) → r ≠ print a ++ w := by
    rintro a w r hr rfl
    obtain ⟨c, v, ha, hc⟩ := hstart a
    exact hr c (by simp [ha]) hc
  induction l generalizing l' with
  | nil =>
    cases l' with
    | nil => exact ⟨rfl, h⟩
    | cons b l' =>
      rw [List.flatMap_nil, List.nil_append, List.flatMap_cons, List.append_assoc] at h
      exact absurd h (hne b _ r hr)
  | cons a l ih =>
    cases l' with
    | nil =>
      rw [List.flatMap_nil, List.nil_append, List.flatMap_cons, List.append_assoc] at h
      exact absurd h.symm (hne a _ r' hr')
    | cons b l' =>
      rw [List.flatMap_cons, List.flatMap_cons, List.append_assoc, List.append_assoc] at h
      obtain ⟨rfl, hrest⟩ := hinj h
      obtain ⟨rfl, hr⟩ := ih hrest
      exact ⟨rfl, hr⟩

lemma flatMap_inj {α : Type} {print : α → List Char} {P : Char → Prop}
    (hstart : ∀ a, ∃ c w, print a = c :: w ∧ P c)
    (hinj : ∀ {a b : α} {r r' : List Char}, print a ++ r = print b ++ r' → a = b ∧ r = r')
    {l l' : List α} (h : l.flatMap print = l'.flatMap print) : l = l' := by
  have hnil : l.flatMap print ++ [] = l'.flatMap print ++ [] := by rw [h]
  exact (flatMap_append_inj hstart hinj (by simp) (by simp) hnil).1

/-- Whether a character starts a type. -/
def startsType (c : Char) : Prop :=
  isPrimitive c = true ∨ startsReferenceType c

lemma not_startsType {c : Char} (h : c ∈ ['(', ')', '<', 'V', '^']) : ¬startsType c := by
  simp only [List.mem_cons, List.not_mem_nil, or_false] at h
  rcases h with rfl | rfl | rfl | rfl | rfl <;> rintro (h | h | h | h) <;>
    exact absurd h (by decide)

/-- No type starts with a character that stands around types. -/
lemma JavaType.print_append_ne (t : JavaType) {x : Char} (hx : x ∈ ['(', ')', '<', 'V', '^'])
    (w r : List Char) : t.print ++ w ≠ x :: r := by
  intro h
  obtain ⟨c, v, ht, hc⟩ := t.print_eq_cons
  rw [ht] at h
  obtain ⟨rfl, -⟩ := List.cons.inj h
  exact not_startsType hx hc

/-! ### Type parameters -/

lemma Identifier.chars_eq_cons (name : Identifier) :
    ∃ c w, name.chars = c :: w ∧ isReserved c = false := by
  cases h : name.chars with
  | nil => exact absurd h name.nonempty
  | cons c w => exact ⟨c, w, rfl, name.unreserved c (by simp [h])⟩

namespace TypeParameter

lemma startsReference_iff {c : Char} {w : List Char} :
    startsReference (c :: w) = true ↔ startsReferenceType c := by
  simp [startsReference, startsReferenceType, or_assoc]

/-- What stands behind the `>` plays no part in whether a bound is there. -/
lemma startsReference_append (w r : List Char) :
    startsReference (w ++ '>' :: r) = startsReference (w ++ ['>']) := by
  cases w <;> rfl

lemma printBound_append_inj {a b : Reference} {r r' : List Char}
    (h : printBound a ++ r = printBound b ++ r') : a = b ∧ r = r' :=
  Reference.print_append_inj (List.cons.inj h).2

/-- No bound starts with what may follow the bounds. -/
lemma head?_printAll_append (parameters : List TypeParameter) (r : List Char) :
    ∀ c ∈ (printAll parameters ++ '>' :: r).head?, c ≠ ':' := by
  cases parameters with
  | nil => simp [printAll]
  | cons p rest =>
    obtain ⟨c, w, hname, hc⟩ := p.name.chars_eq_cons
    simp only [printAll, List.flatMap_cons, print, hname, List.cons_append, List.head?_cons,
      Option.mem_def, Option.some.injEq, forall_eq']
    rintro rfl
    exact absurd hc (by decide)

lemma printAll_cons_append (p : TypeParameter) (rest : List TypeParameter) (r : List Char) :
    printAll (p :: rest) ++ r = p.name.chars ++ ':' :: (p.printBounds ++ (printAll rest ++ r)) := by
  simp [printAll, print]

lemma printBounds_append_inj {p q : TypeParameter} {r r' : List Char}
    (hsome : p.classBound.isSome = q.classBound.isSome) (hr : ∀ c ∈ r.head?, c ≠ ':')
    (hr' : ∀ c ∈ r'.head?, c ≠ ':') (h : p.printBounds ++ r = q.printBounds ++ r') :
    p.classBound = q.classBound ∧ p.interfaceBounds = q.interfaceBounds ∧ r = r' := by
  have hinterfaces : ∀ {l l' : List Reference},
      l.flatMap printBound ++ r = l'.flatMap printBound ++ r' → l = l' ∧ r = r' :=
    flatMap_append_inj (P := (· = ':')) (fun a : Reference => ⟨':', a.print, rfl, rfl⟩)
      printBound_append_inj hr hr'
  rw [printBounds, printBounds, List.append_assoc, List.append_assoc] at h
  cases hp : p.classBound with
  | none =>
    cases hq : q.classBound with
    | none =>
      rw [hp, hq] at h
      exact ⟨rfl, hinterfaces h⟩
    | some b => simp [hp, hq] at hsome
  | some a =>
    cases hq : q.classBound with
    | none => simp [hp, hq] at hsome
    | some b =>
      rw [hp, hq] at h
      obtain ⟨rfl, hrest⟩ := Reference.print_append_inj h
      exact ⟨rfl, hinterfaces hrest⟩

lemma printAll_append_inj {a b : List TypeParameter} {r r' : List Char} (ha : TakeBounds a)
    (hb : TakeBounds b) (h : printAll a ++ '>' :: r = printAll b ++ '>' :: r') :
    a = b ∧ r = r' := by
  have hne : ∀ (p : TypeParameter) (w r : List Char), '>' :: r ≠ p.print ++ w := by
    intro p w r h
    obtain ⟨c, v, hname, hc⟩ := p.name.chars_eq_cons
    rw [print, hname] at h
    obtain ⟨rfl, -⟩ := List.cons.inj h
    exact absurd hc (by decide)
  induction a generalizing b with
  | nil =>
    cases b with
    | nil => exact ⟨rfl, (List.cons.inj h).2⟩
    | cons p b =>
      rw [printAll, printAll, List.flatMap_cons, List.append_assoc] at h
      exact absurd h (hne p _ _)
  | cons p a ih =>
    cases b with
    | nil =>
      rw [printAll, printAll, List.flatMap_cons, List.append_assoc] at h
      exact absurd h.symm (hne p _ _)
    | cons q b =>
      obtain ⟨hp, ha⟩ := ha
      obtain ⟨hq, hb⟩ := hb
      rw [printAll_cons_append, printAll_cons_append] at h
      obtain ⟨hname, -, hrest⟩ := Identifier.append_inj (by decide) (by decide) h
      -- both have a class bound or neither has, because the same text follows the names
      have hsome : p.classBound.isSome = q.classBound.isSome := by
        rw [Bool.eq_iff_iff, hp, hq, ← List.append_assoc, ← List.append_assoc,
          ← startsReference_append _ r, ← startsReference_append _ r', List.append_assoc,
          List.append_assoc, hrest]
      obtain ⟨hclass, hinterfaces, htail⟩ := printBounds_append_inj hsome
        (head?_printAll_append a r) (head?_printAll_append b r') hrest
      obtain ⟨rfl, hr⟩ := ih ha hb htail
      refine ⟨?_, hr⟩
      cases p
      cases q
      simp only at hname hclass hinterfaces
      rw [hname, hclass, hinterfaces]

end TypeParameter

/-! ### Methods -/

lemma Thrown.print_eq_cons (t : Thrown) : ∃ c w, t.print = c :: w ∧ c = '^' :=
  ⟨'^', t.toReference.print, rfl, rfl⟩

lemma Thrown.print_append_inj {a b : Thrown} {r r' : List Char}
    (h : a.print ++ r = b.print ++ r') : a = b ∧ r = r' := by
  obtain ⟨hreference, hr⟩ := Reference.print_append_inj (List.cons.inj h).2
  refine ⟨?_, hr⟩
  cases a <;> cases b <;> simp_all [Thrown.toReference]

namespace MethodType

lemma printResult_append_inj {a b : Option JavaType} {r r' : List Char}
    (h : printResult a ++ r = printResult b ++ r') : a = b ∧ r = r' := by
  cases a with
  | none =>
    cases b with
    | none => exact ⟨rfl, (List.cons.inj h).2⟩
    | some b => exact absurd h.symm (b.print_append_ne (by simp) _ _)
  | some a =>
    cases b with
    | none => exact absurd h (a.print_append_ne (by simp) _ _)
    | some b =>
      obtain ⟨rfl, hr⟩ := JavaType.print_append_inj h
      exact ⟨rfl, hr⟩

lemma print_inj {a b : MethodType} (h : a.print = b.print) : a = b := by
  have hclose : ∀ (r : List Char), ∀ c ∈ (')' :: r).head?, ¬startsType c := by
    intro r c hc
    obtain rfl := Option.some.inj hc
    exact not_startsType (by simp)
  obtain ⟨hparameters, hrest⟩ := flatMap_append_inj JavaType.print_eq_cons
    JavaType.print_append_inj (hclose _) (hclose _) (List.cons.inj h).2
  obtain ⟨hresult, hthrown⟩ := printResult_append_inj (List.cons.inj hrest).2
  have hlist := flatMap_inj Thrown.print_eq_cons Thrown.print_append_inj hthrown
  cases a
  cases b
  simp only at hparameters hresult hlist
  rw [hparameters, hresult, hlist]

end MethodType

/-! ### Whole signatures -/

lemma Body.print_eq_cons (b : Body) : ∃ c w, b.print = c :: w ∧ (c = '(' ∨ startsType c) := by
  cases b with
  | method m => exact ⟨'(', _, rfl, .inl rfl⟩
  | types first rest =>
    obtain ⟨c, w, hfirst, hc⟩ := first.print_eq_cons
    exact ⟨c, w ++ rest.flatMap JavaType.print, by rw [Body.print, hfirst]; rfl, .inr hc⟩

lemma Body.print_inj {a b : Body} (h : a.print = b.print) : a = b := by
  have hne : ∀ (m : MethodType) (first : JavaType) (rest : List JavaType),
      m.print ≠ first.print ++ rest.flatMap JavaType.print := by
    intro m first rest h
    exact first.print_append_ne (by simp) _ _ h.symm
  cases a with
  | method m =>
    cases b with
    | method m' => rw [MethodType.print_inj h]
    | types first rest => exact absurd h (hne m first rest)
  | types first rest =>
    cases b with
    | method m => exact absurd h.symm (hne m first rest)
    | types first' rest' =>
      obtain ⟨rfl, hrest⟩ := JavaType.print_append_inj h
      rw [flatMap_inj JavaType.print_eq_cons JavaType.print_append_inj hrest]

/-- A text has at most one derivation. -/
lemma Derivation.derives_inj {d d' : Derivation} {text : List Char} (h : d.Derives text)
    (h' : d'.Derives text) : d = d' := by
  have hprint := h.print.trans h'.print.symm
  -- no body starts with the bracket of type parameters
  have hne : ∀ (b : Body) (w : List Char), b.print ≠ '<' :: w := by
    intro b w hb
    obtain ⟨c, v, hbody, hc⟩ := b.print_eq_cons
    rw [hbody] at hb
    obtain ⟨rfl, -⟩ := List.cons.inj hb
    rcases hc with hc | hc
    · exact absurd hc (by decide)
    · exact not_startsType (by simp) hc
  obtain ⟨parameters, body⟩ := d
  obtain ⟨parameters', body'⟩ := d'
  simp only [printParameters, List.isEmpty_iff] at hprint
  by_cases hnone : parameters = []
  · by_cases hnone' : parameters' = []
    · rw [if_pos hnone, if_pos hnone'] at hprint
      rw [hnone, hnone', Body.print_inj hprint]
    · rw [if_pos hnone, if_neg hnone'] at hprint
      exact absurd hprint (hne body _)
  · by_cases hnone' : parameters' = []
    · rw [if_neg hnone, if_pos hnone'] at hprint
      exact absurd hprint.symm (hne body' _)
    · rw [if_neg hnone, if_neg hnone'] at hprint
      simp only [List.cons_append, List.append_assoc, List.nil_append, List.cons.injEq,
        true_and] at hprint
      obtain ⟨rfl, hbody⟩ := TypeParameter.printAll_append_inj h.takeBounds h'.takeBounds hprint
      rw [Body.print_inj hbody]

end Signature
end ClasspathAudit
