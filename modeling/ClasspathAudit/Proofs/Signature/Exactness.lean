import Mathlib.Data.List.TakeWhile
import ClasspathAudit.Proofs.Signature.Completeness

/-
# What is read has a derivation

If a reader succeeds, what it passed over is the text of a tree, and the names that it gives are
those of the tree. The induction is on the budget of the reader, which goes down with every step of
the recursion. With the other direction, a signature is accepted exactly if it has a derivation,
which is then the only one, and the classes reported are those that the derivation names.
-/
namespace ClasspathAudit
namespace Signature

variable {α β : Type} {c m : Cursor}

/-! ### Steps -/

/-- Whether a reader gives `a` at `c` and ends at `m`. -/
def Yields (p : Parser α) (c : Cursor) (a : α) (m : Cursor) : Prop :=
  p c = .ok (a, m)

lemma Yields.bind {p : Parser α} {next : α → Parser β} {b : β} (h : Yields (p >>= next) c b m) :
    ∃ a n, Yields p c a n ∧ Yields (next a) n b m := by
  change (p c >>= fun x => next x.1 x.2) = _ at h
  cases hp : p c with
  | error e =>
    rw [hp] at h
    cases h
  | ok x =>
    rw [hp] at h
    exact ⟨x.1, x.2, hp, h⟩

lemma Yields.pure {a b : α} (h : Yields (pure a : Parser α) c b m) : a = b ∧ c = m := by
  cases h
  exact ⟨rfl, rfl⟩

lemma Yields.map {p : Parser α} {f : α → β} {b : β}
    (h : Yields (do let a ← p; return f a) c b m) : ∃ a, Yields p c a m ∧ f a = b := by
  obtain ⟨a, n, hp, hpure⟩ := h.bind
  obtain ⟨hb, rfl⟩ := hpure.pure
  exact ⟨a, hp, hb⟩

lemma Yields.append {p q : Parser (List ClassName)} {names : List ClassName}
    (h : Yields (do let found ← p; let more ← q; return found ++ more) c names m) :
    ∃ l n l', Yields p c l n ∧ Yields q n l' m ∧ l ++ l' = names := by
  obtain ⟨l, n, hp, h⟩ := h.bind
  obtain ⟨l', hq, hnames⟩ := h.map
  exact ⟨l, n, l', hp, hq, hnames⟩

lemma not_yields_fail {fault : Fault} {a : α} : ¬Yields (fail fault) c a m := by
  rintro ⟨⟩

/-- Reading on after a look at the next character. -/
lemma Yields.peek {next : Option Char → Parser β} {b : β} (h : Yields (peek >>= next) c b m) :
    Yields (next c.rest.head?) c b m :=
  h

/-- The budget of an entry point is greater than the number of characters left. -/
lemma Yields.withBudget {reader : Nat → Parser α} {a : α} (h : Yields (withBudget reader) c a m) :
    Yields (reader (c.rest.length + 1)) c a m :=
  h

lemma Yields.bump {x : Char} {next : Unit → Parser β} {b : β} (hx : c.rest.head? = some x)
    (h : Yields (bump >>= next) c b m) : ∃ n, c.rest = x :: n.rest ∧ Yields (next ()) n b m := by
  obtain ⟨_, n, hn, h⟩ := h.bind
  obtain ⟨rest, hrest⟩ := List.head?_eq_some_iff.1 hx
  rw [Yields, Signature.bump, hrest] at hn
  cases hn
  exact ⟨_, hrest, h⟩

lemma Yields.expect {x : Char} (h : Yields (expect x) c () m) : c.rest = x :: m.rest := by
  rw [Yields, Signature.expect] at h
  split at h
  · cases h
  · rename_i y rest hrest
    split at h
    · rename_i hx
      cases h
      rw [hrest, hx]
    · cases h

lemma Yields.identifier {ends name : List Char} (h : Yields (identifier ends) c name m) :
    c.rest = name ++ m.rest ∧ name ≠ [] ∧ ∀ x ∈ name, x ∉ ends ∧ isReserved x = false := by
  simp only [Yields, Signature.identifier] at h
  split at h
  · cases h
  · split_ifs at h with hends hname
    cases h
    refine ⟨?_, ?_, ?_⟩
    · exact (List.prefix_iff_eq_append.1 (List.takeWhile_prefix _)).symm
    · simpa using hname
    · intro x hx
      simpa using List.mem_takeWhile_imp hx

lemma Yields.name {ends name : List Char} (h : Yields (Signature.identifier ends) c name m) :
    ∃ n : Identifier, n.chars = name ∧ c.rest = n.chars ++ m.rest := by
  obtain ⟨hrest, hname, hfree⟩ := h.identifier
  exact ⟨⟨name, hname, fun x hx => (hfree x hx).2⟩, rfl, hrest⟩

lemma Yields.segmentName {name : List Char}
    (h : Yields (Signature.identifier segmentEnds) c name m) :
    ∃ n : SegmentName, n.chars = name ∧ c.rest = n.chars ++ m.rest := by
  obtain ⟨hrest, hname, hfree⟩ := h.identifier
  refine ⟨⟨⟨name, hname, fun x hx => (hfree x hx).2⟩, fun hdot => ?_⟩, rfl, hrest⟩
  exact (hfree '.' hdot).1 (by decide)

/-! ### Types -/

lemma Yields.typeVariable (h : Yields typeVariable c () m) :
    ∃ n : Identifier, c.rest = 'T' :: (n.chars ++ ';' :: m.rest) := by
  obtain ⟨_, k, hk, h⟩ := h.bind
  obtain ⟨name, l, hl, h⟩ := h.bind
  obtain ⟨n, rfl, hname⟩ := hl.name
  exact ⟨n, by rw [hk.expect, hname, h.expect]⟩

lemma Yields.primitiveOr {reference : Parser (List ClassName)} {names : List ClassName}
    (hreference : Yields reference c names m →
      ∃ r : Reference, c.rest = r.print ++ m.rest ∧ r.classNames = names)
    (h : Yields (primitiveOr reference) c names m) :
    ∃ t : JavaType, c.rest = t.print ++ m.rest ∧ t.classNames = names := by
  have hor : Yields reference c names m →
      ∃ t : JavaType, c.rest = t.print ++ m.rest ∧ t.classNames = names := by
    intro h
    obtain ⟨r, hrest, hnames⟩ := hreference h
    exact ⟨.reference r, by rw [JavaType.print, hrest], by rw [JavaType.classNames, hnames]⟩
  replace h := h.peek
  split at h
  · rename_i x hx
    split_ifs at h with hprimitive
    · obtain ⟨n, hrest, h⟩ := h.bump hx
      obtain ⟨rfl, rfl⟩ := h.pure
      refine ⟨.primitive ⟨x, hprimitive⟩, ?_, JavaType.classNames.eq_1 _⟩
      rw [JavaType.print, hrest, List.cons_append, List.nil_append]
    · exact hor h
  · exact hor h

lemma Yields.optionalArguments {budget : Nat} {names : List ClassName}
    (harguments : ∀ {c : Cursor}, Yields (typeArguments budget) c names m →
      ∃ arguments, c.rest = printArguments arguments ++ '>' :: m.rest ∧
        argumentNames arguments = names)
    (h : Yields (optionalArguments budget) c names m) :
    ∃ arguments, c.rest = printOptional arguments ++ m.rest ∧ argumentNames arguments = names := by
  replace h := h.peek
  split at h
  · obtain ⟨_, n, hn, h⟩ := h.bind
    replace h := h.peek
    split at h
    · exact absurd h not_yields_fail
    · rename_i hne
      obtain ⟨arguments, hrest, hnames⟩ := harguments h
      refine ⟨arguments, ?_, hnames⟩
      cases arguments with
      -- an empty list would start with the `>` that was refused
      | nil => exact absurd (by rw [hrest]; rfl) hne
      | cons a arguments => simp [printOptional, hn.expect, hrest]
  · obtain ⟨rfl, rfl⟩ := h.pure
    exact ⟨[], rfl, argumentNames.eq_1⟩

mutual

theorem exists_reference : ∀ {budget : Nat} {c m : Cursor} {names : List ClassName},
    Yields (referenceType budget) c names m →
      ∃ r : Reference, c.rest = r.print ++ m.rest ∧ r.classNames = names
  | 0, c, m, names, h => by
    rw [referenceType] at h
    exact absurd h not_yields_fail
  | budget + 1, c, m, names, h => by
    rw [referenceType] at h
    replace h := h.peek
    split at h
    · obtain ⟨_, n, hn, h⟩ := h.bind
      obtain ⟨name, k, hk, h⟩ := h.bind
      obtain ⟨first, rfl, hname⟩ := hk.segmentName
      obtain ⟨arguments, inner, hrest, hnames⟩ := exists_segments h
      refine ⟨.classType (.mk first arguments) inner, ?_, ?_⟩
      · simp [Reference.print, Segment.print_eq, hn.expect, hname, hrest]
      · simp [Reference.classNames, Segment.classNames, Segment.className, hnames]
    · obtain ⟨_, hvariable, hnames⟩ := h.map
      obtain ⟨name, hrest⟩ := hvariable.typeVariable
      exact ⟨.typeVariable name, by simp [Reference.print, hrest], by
        rw [Reference.classNames, hnames]⟩
    · rename_i hbracket
      obtain ⟨n, hn, h⟩ := h.bump hbracket
      obtain ⟨t, hrest, hnames⟩ := h.primitiveOr exists_reference
      exact ⟨.array t, by rw [hn, hrest, Reference.print, List.cons_append], by
        rw [Reference.classNames, hnames]⟩
    · exact absurd h not_yields_fail
    · exact absurd h not_yields_fail

theorem exists_segments : ∀ {budget : Nat} {name : List Char} {c m : Cursor}
    {names : List ClassName}, Yields (classTail budget name) c names m →
      ∃ arguments inner, c.rest = printOptional arguments ++ (printInner inner ++ ';' :: m.rest) ∧
        argumentNames arguments ++ .ofInternal (String.ofList name) ::
          innerNames (.ofInternal (String.ofList name)) inner = names
  | 0, name, c, m, names, h => by
    rw [classTail] at h
    exact absurd h not_yields_fail
  | budget + 1, name, c, m, names, h => by
    rw [classTail_succ] at h
    obtain ⟨found, n, hn, h⟩ := h.bind
    obtain ⟨arguments, hrest, rfl⟩ := hn.optionalArguments exists_arguments
    replace h := h.peek
    split at h
    · rename_i hdot
      obtain ⟨k, hk, h⟩ := h.bump hdot
      obtain ⟨inner, l, hl, h⟩ := h.bind
      obtain ⟨inner, rfl, hinner⟩ := hl.segmentName
      obtain ⟨more, hmore, rfl⟩ := h.map
      obtain ⟨arguments', segments, htail, rfl⟩ := exists_segments hmore
      refine ⟨arguments, .mk inner arguments' :: segments, ?_, ?_⟩
      · simp [printInner, Segment.print_eq, hrest, hk, hinner, htail]
      · rw [ofInternal_append, innerNames, Segment.classNames, Segment.className]
        simp only [List.append_assoc, List.cons_append, List.nil_append]
    · obtain ⟨_, hend, rfl⟩ := h.map
      exact ⟨arguments, [], by rw [hrest, hend.expect, printInner, List.nil_append], by
        rw [innerNames]⟩

theorem exists_arguments : ∀ {budget : Nat} {c m : Cursor} {names : List ClassName},
    Yields (typeArguments budget) c names m →
      ∃ arguments, c.rest = printArguments arguments ++ '>' :: m.rest ∧
        argumentNames arguments = names
  | 0, c, m, names, h => by
    rw [typeArguments] at h
    exact absurd h not_yields_fail
  | budget + 1, c, m, names, h => by
    have htyped : ∀ (wildcard : Option Wildcard) {n : Cursor},
        c.rest = (wildcard.map Wildcard.char).toList ++ n.rest →
        Yields (do
          let found ← referenceType budget
          let more ← typeArguments budget
          return found ++ more) n names m →
        ∃ arguments, c.rest = printArguments arguments ++ '>' :: m.rest ∧
          argumentNames arguments = names := by
      intro wildcard n hn h
      obtain ⟨l, k, l', hreference, hmore, rfl⟩ := h.append
      obtain ⟨r, hr, rfl⟩ := exists_reference hreference
      obtain ⟨more, hrest, rfl⟩ := exists_arguments hmore
      refine ⟨.type wildcard r :: more, ?_, ?_⟩
      · simp [printArguments, Argument.print, hn, hr, hrest]
      · rw [argumentNames, Argument.classNames]
    rw [typeArguments] at h
    replace h := h.peek
    split at h
    · obtain ⟨_, hend, rfl⟩ := h.map
      exact ⟨[], by rw [hend.expect, printArguments, List.nil_append], argumentNames.eq_1⟩
    · rename_i hany
      obtain ⟨n, hn, h⟩ := h.bump hany
      obtain ⟨more, hrest, rfl⟩ := exists_arguments h
      refine ⟨.any :: more, ?_, ?_⟩
      · simp [printArguments, Argument.print, hn, hrest]
      · rw [argumentNames, Argument.classNames, List.nil_append]
    · rename_i hextends
      obtain ⟨n, hn, h⟩ := h.bump hextends
      exact htyped (some .extends) hn h
    · rename_i hsuper
      obtain ⟨n, hn, h⟩ := h.bump hsuper
      exact htyped (some .super) hn h
    · exact absurd h not_yields_fail
    · exact htyped none rfl h

end

lemma Yields.oneReference {names : List ClassName} (h : Yields oneReference c names m) :
    ∃ r : Reference, c.rest = r.print ++ m.rest ∧ r.classNames = names :=
  exists_reference h.withBudget

lemma Yields.oneType {names : List ClassName} (h : Yields oneType c names m) :
    ∃ t : JavaType, c.rest = t.print ++ m.rest ∧ t.classNames = names :=
  h.withBudget.primitiveOr exists_reference

/-! ### Type parameters -/

lemma exists_interfaceBounds {budget : Nat} {names : List ClassName}
    (h : Yields (interfaceBounds budget) c names m) :
    ∃ bounds : List Reference, c.rest = bounds.flatMap TypeParameter.printBound ++ m.rest ∧
      bounds.flatMap Reference.classNames = names := by
  induction budget generalizing c names with
  | zero =>
    obtain ⟨rfl, rfl⟩ := h.pure
    exact ⟨[], rfl, rfl⟩
  | succ budget ih =>
    replace h := h.peek
    split at h
    · rename_i hcolon
      obtain ⟨n, hn, h⟩ := h.bump hcolon
      obtain ⟨l, k, l', hreference, hmore, rfl⟩ := h.append
      obtain ⟨r, hr, rfl⟩ := hreference.oneReference
      obtain ⟨bounds, hrest, rfl⟩ := ih hmore
      exact ⟨r :: bounds, by simp [TypeParameter.printBound, hn, hr, hrest], by simp⟩
    · obtain ⟨rfl, rfl⟩ := h.pure
      exact ⟨[], rfl, rfl⟩

lemma exists_classBound {names : List ClassName} (h : Yields classBound c names m) :
    ∃ bound : Option Reference, c.rest = bound.elim [] Reference.print ++ m.rest ∧
      (bound.isSome ↔ TypeParameter.startsReference c.rest) ∧
      bound.elim [] Reference.classNames = names := by
  have hstart : ∀ {x : Char}, c.rest.head? = some x →
      (TypeParameter.startsReference c.rest ↔ startsReferenceType x) := by
    intro x hx
    obtain ⟨rest, hrest⟩ := List.head?_eq_some_iff.1 hx
    rw [hrest, TypeParameter.startsReference_iff]
  have hsome : ∀ {x : Char}, c.rest.head? = some x → startsReferenceType x →
      Yields Signature.oneReference c names m →
      ∃ bound : Option Reference, c.rest = bound.elim [] Reference.print ++ m.rest ∧
        (bound.isSome ↔ TypeParameter.startsReference c.rest) ∧
        bound.elim [] Reference.classNames = names := by
    intro x hx hreference h
    obtain ⟨r, hr, rfl⟩ := h.oneReference
    exact ⟨some r, hr, by simpa using (hstart hx).2 hreference, rfl⟩
  replace h := h.peek
  split at h
  · rename_i hx
    exact hsome hx (.inl rfl) h
  · rename_i hx
    exact hsome hx (.inr (.inl rfl)) h
  · rename_i hx
    exact hsome hx (.inr (.inr rfl)) h
  · rename_i hclass hvariable harray
    obtain ⟨rfl, rfl⟩ := h.pure
    refine ⟨none, rfl, ?_, rfl⟩
    simp only [Option.isSome_none, Bool.false_eq_true, false_iff]
    cases hrest : c.rest with
    | nil => simp [TypeParameter.startsReference]
    | cons x rest =>
      rw [hrest] at hclass hvariable harray
      rw [TypeParameter.startsReference_iff]
      rintro (rfl | rfl | rfl)
      · exact hclass rfl
      · exact hvariable rfl
      · exact harray rfl

open TypeParameter in
lemma exists_typeParameters {budget : Nat} {names : List ClassName}
    (h : Yields (typeParameters budget) c names m) :
    ∃ parameters, c.rest = printAll parameters ++ '>' :: m.rest ∧ TakeBounds parameters ∧
      parameters.flatMap TypeParameter.classNames = names := by
  induction budget generalizing c names with
  | zero => exact absurd h not_yields_fail
  | succ budget ih =>
    replace h := h.peek
    split at h
    · obtain ⟨_, hend, rfl⟩ := h.map
      exact ⟨[], hend.expect, trivial, rfl⟩
    · obtain ⟨_, n, hn, h⟩ := h.bind
      obtain ⟨name, -, hname⟩ := hn.name
      obtain ⟨_, k, hk, h⟩ := h.bind
      obtain ⟨_, l, hl, h⟩ := h.bind
      obtain ⟨bound, hbound, htake, rfl⟩ := exists_classBound hl
      obtain ⟨_, j, hj, h⟩ := h.bind
      obtain ⟨bounds, hbounds, rfl⟩ := exists_interfaceBounds hj.withBudget
      replace h := h.peek
      split at h
      · exact absurd h not_yields_fail
      · obtain ⟨_, hmore, rfl⟩ := h.map
        obtain ⟨parameters, hrest, htakes, rfl⟩ := ih hmore
        refine ⟨⟨name, bound, bounds⟩ :: parameters, ?_, ⟨?_, htakes⟩, ?_⟩
        · rw [printAll_cons_append, printBounds, hname, hk.expect, hbound, hbounds, hrest,
            List.append_assoc]
        -- the bound was decided by what follows the `:`, up to the `>`
        · rw [htake, hbound, hbounds, hrest, printBounds, ← List.append_assoc, ← List.append_assoc,
            startsReference_append]
          simp only [List.append_assoc]
        · simp [TypeParameter.classNames]

lemma Yields.optionalTypeParameters {names : List ClassName}
    (h : Yields optionalTypeParameters c names m) :
    ∃ parameters, c.rest = Derivation.printParameters parameters ++ m.rest ∧
      TypeParameter.TakeBounds parameters ∧
      parameters.flatMap TypeParameter.classNames = names := by
  replace h := h.peek
  split at h
  · obtain ⟨_, n, hn, h⟩ := h.bind
    replace h := h.peek
    split at h
    · exact absurd h not_yields_fail
    · rename_i hne
      obtain ⟨parameters, hrest, htake, hnames⟩ := exists_typeParameters h.withBudget
      refine ⟨parameters, ?_, htake, hnames⟩
      cases parameters with
      | nil => exact absurd (by rw [hrest]; rfl) hne
      | cons p parameters => simp [Derivation.printParameters, hn.expect, hrest]
  · obtain ⟨rfl, rfl⟩ := h.pure
    exact ⟨[], rfl, trivial, rfl⟩

/-! ### Methods -/

lemma exists_parameterTypes {budget : Nat} {names : List ClassName}
    (h : Yields (parameterTypes budget) c names m) :
    ∃ parameters : List JavaType,
      c.rest = parameters.flatMap JavaType.print ++ ')' :: m.rest ∧
      parameters.flatMap JavaType.classNames = names := by
  induction budget generalizing c names with
  | zero => exact absurd h not_yields_fail
  | succ budget ih =>
    replace h := h.peek
    split at h
    · obtain ⟨_, hend, rfl⟩ := h.map
      exact ⟨[], hend.expect, rfl⟩
    · exact absurd h not_yields_fail
    · obtain ⟨l, k, l', htype, hmore, rfl⟩ := h.append
      obtain ⟨t, ht, rfl⟩ := htype.oneType
      obtain ⟨parameters, hrest, rfl⟩ := ih hmore
      exact ⟨t :: parameters, by simp [ht, hrest], by simp⟩

lemma Yields.resultType {names : List ClassName} (h : Yields resultType c names m) :
    ∃ result, c.rest = MethodType.printResult result ++ m.rest ∧
      result.elim [] JavaType.classNames = names := by
  replace h := h.peek
  split at h
  · rename_i hvoid
    obtain ⟨n, hn, h⟩ := h.bump hvoid
    obtain ⟨rfl, rfl⟩ := h.pure
    exact ⟨none, hn, rfl⟩
  · obtain ⟨t, ht, rfl⟩ := h.oneType
    exact ⟨some t, ht, rfl⟩

lemma Yields.thrownType {names : List ClassName} (h : Yields thrownType c names m) :
    ∃ t : Thrown, c.rest = t.toReference.print ++ m.rest ∧ t.toReference.classNames = names := by
  have hthrown : (c.rest.head? = some 'T' ∨ c.rest.head? = some 'L') →
      Yields Signature.oneReference c names m →
      ∃ t : Thrown, c.rest = t.toReference.print ++ m.rest ∧ t.toReference.classNames = names := by
    intro hx h
    obtain ⟨r, hr, rfl⟩ := h.oneReference
    cases r with
    | classType first inner => exact ⟨.classType first inner, hr, rfl⟩
    | typeVariable name => exact ⟨.typeVariable name, hr, rfl⟩
    | array element => simp [hr, Reference.print] at hx
  replace h := h.peek
  split at h
  · rename_i hx
    exact hthrown (.inl hx) h
  · rename_i hx
    exact hthrown (.inr hx) h
  · exact absurd h not_yields_fail

/-- Thrown types are read to the end, as the budget allows it. -/
lemma exists_thrownTypes {budget : Nat} {names : List ClassName} (hbudget : c.rest.length < budget)
    (h : Yields (thrownTypes budget) c names m) :
    ∃ thrown : List Thrown, c.rest = thrown.flatMap Thrown.print ∧
      (thrown.flatMap fun t => t.toReference.classNames) = names := by
  induction budget generalizing c names with
  | zero => cases hbudget
  | succ budget ih =>
    rw [thrownTypes_succ] at h
    replace h := h.peek
    split at h
    · rename_i hx
      obtain ⟨n, hn, h⟩ := h.bump hx
      obtain ⟨l, k, l', htype, hmore, rfl⟩ := h.append
      obtain ⟨t, ht, rfl⟩ := htype.thrownType
      -- the `^` was passed over, so the budget still exceeds what is left
      have hlength : k.rest.length < budget := by
        rw [hn, ht, List.length_cons, List.length_append] at hbudget
        omega
      obtain ⟨thrown, hrest, rfl⟩ := ih hlength hmore
      exact ⟨t :: thrown, by simp [Thrown.print, hn, ht, hrest], by simp⟩
    · rename_i hx
      obtain ⟨rfl, rfl⟩ := h.pure
      exact ⟨[], List.head?_eq_none_iff.1 hx, rfl⟩
    · exact absurd h not_yields_fail

lemma Yields.methodType {names : List ClassName} (h : Yields methodType c names m) :
    ∃ t : MethodType, c.rest = t.print ∧ t.classNames = names := by
  obtain ⟨_, n, hn, h⟩ := h.bind
  obtain ⟨_, k, hk, h⟩ := h.bind
  obtain ⟨parameters, hparameters, rfl⟩ := exists_parameterTypes hk.withBudget
  obtain ⟨_, l, hl, h⟩ := h.bind
  obtain ⟨result, hresult, rfl⟩ := hl.resultType
  obtain ⟨_, hthrown, rfl⟩ := h.map
  obtain ⟨thrown, hrest, rfl⟩ := exists_thrownTypes (Nat.lt_succ_self _) hthrown.withBudget
  exact ⟨⟨parameters, result, thrown⟩, by
    rw [hn.expect, hparameters, hresult, hrest, MethodType.print], rfl⟩

/-! ### Whole signatures -/

lemma exists_typesToEnd {budget : Nat} {names : List ClassName} (hbudget : c.rest.length < budget)
    (h : Yields (typesToEnd budget) c names m) :
    ∃ types : List JavaType, c.rest = types.flatMap JavaType.print ∧
      types.flatMap JavaType.classNames = names := by
  induction budget generalizing c names with
  | zero => cases hbudget
  | succ budget ih =>
    replace h := h.peek
    split at h
    · rename_i hx
      obtain ⟨rfl, rfl⟩ := h.pure
      exact ⟨[], List.head?_eq_none_iff.1 hx, rfl⟩
    · obtain ⟨l, k, l', htype, hmore, rfl⟩ := h.append
      obtain ⟨t, ht, rfl⟩ := htype.oneType
      have hlength : k.rest.length < budget := by
        obtain ⟨x, w, hprint, -⟩ := t.print_eq_cons
        rw [ht, hprint, List.length_append, List.length_cons] at hbudget
        omega
      obtain ⟨types, hrest, rfl⟩ := ih hlength hmore
      exact ⟨t :: types, by simp [ht, hrest], by simp⟩

/-- What is read is derived. -/
lemma Yields.derivation {names : List ClassName} (h : Yields whole c names m) :
    ∃ d : Derivation, d.Derives c.rest ∧ d.classNames = names := by
  replace h := h.peek
  split at h
  · exact absurd h not_yields_fail
  · obtain ⟨_, n, hn, h⟩ := h.bind
    obtain ⟨parameters, hparameters, htake, rfl⟩ := hn.optionalTypeParameters
    replace h := h.peek
    split at h
    · obtain ⟨_, hmethod, rfl⟩ := h.map
      obtain ⟨t, ht, rfl⟩ := hmethod.methodType
      exact ⟨⟨parameters, .method t⟩, ⟨by rw [hparameters, ht, Body.print], htake⟩, rfl⟩
    · exact absurd h not_yields_fail
    · rename_i x hne hx
      obtain ⟨_, htypes, rfl⟩ := h.map
      obtain ⟨types, ht, rfl⟩ := exists_typesToEnd (Nat.lt_succ_self _) htypes.withBudget
      cases types with
      | nil => simp [ht] at hx
      | cons first types =>
        exact ⟨⟨parameters, .types first types⟩, ⟨by rw [hparameters, ht, List.flatMap_cons,
          Body.print], htake⟩, rfl⟩

/-- A signature that is accepted is derived, and its derivation names what is reported. -/
lemma exists_derives_of_classTypes {s : String} {names : List ClassName}
    (h : classTypes s = .ok names) :
    ∃ d : Derivation, d.Derives s.toList ∧ d.classNames = names := by
  rw [classTypes, readChars, StateT.run] at h
  cases hwhole : whole ⟨s.toList, 0⟩ with
  | error e =>
    rw [hwhole] at h
    cases h
  | ok x =>
    rw [hwhole] at h
    cases h
    exact Yields.derivation (m := x.2) hwhole

/-- The classes reported for a signature are those named by its derivation, of which there is at
most one. A signature without a derivation is refused. -/
theorem classTypes_exact (s : String) :
    (∀ names, classTypes s = .ok names ↔
      ∃ d : Derivation, d.Derives s.toList ∧ d.classNames = names) ∧
    ∀ d d' : Derivation, d.Derives s.toList → d'.Derives s.toList → d = d' := by
  refine ⟨fun names => ?_, fun d d' h h' => Derivation.derives_inj h h'⟩
  have hread : classTypes s = .ok names ↔ ∃ m, Yields whole ⟨s.toList, 0⟩ names m := by
    rw [classTypes, readChars, StateT.run]
    constructor
    · intro h
      cases hwhole : whole ⟨s.toList, 0⟩ with
      | error e =>
        rw [hwhole] at h
        cases h
      | ok x =>
        rw [hwhole] at h
        cases h
        exact ⟨x.2, hwhole⟩
    · rintro ⟨m, h⟩
      rw [Yields] at h
      rw [h]
      rfl
  rw [hread]
  constructor
  · rintro ⟨m, h⟩
    exact h.derivation
  · rintro ⟨d, h, rfl⟩
    have hreads := Derivation.reads h 0
    rw [List.append_nil] at hreads
    exact ⟨_, hreads⟩

example : classTypes "La/B<-[Lc/D;>.E;" = .ok [⟨"c.D"⟩, ⟨"a.B"⟩, ⟨"a.B.E"⟩] := by
  decide +kernel

end Signature
end ClasspathAudit
