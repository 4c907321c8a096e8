import ClasspathAudit.Proofs.Signature.Exactness

/-
# Readers move forward

A reader never goes back: where it ends, or refuses the text, it has passed over some characters
from its start on. This is proved along the composition of readers, and for those that call
themselves by induction on the budget.
-/
namespace ClasspathAudit
namespace Signature

variable {α β : Type} {c m n : Cursor}

/-! ### Moving forward -/

/-- Whether one place lies behind another in the same text, with `front` between the two. -/
structure Cursor.Over (c : Cursor) (front : List Char) (m : Cursor) : Prop where
  rest : c.rest = front ++ m.rest
  position : m.position = c.position + byteCount front

lemma Cursor.over_self (c : Cursor) : c.Over [] c :=
  ⟨rfl, rfl⟩

lemma Cursor.Over.trans {front front' : List Char} (h : c.Over front m) (h' : m.Over front' n) :
    c.Over (front ++ front') n where
  rest := by rw [h.rest, h'.rest, List.append_assoc]
  position := by rw [h'.position, h.position, byteCount_append, Nat.add_assoc]

lemma eq_nil_of_byteCount_eq_zero {w : List Char} (h : byteCount w = 0) : w = [] := by
  cases w with
  | nil => rfl
  | cons c w =>
    have hpos := c.utf8Size_pos
    rw [byteCount] at h
    omega

/-- Whether a reader ends, or refuses the text, at its start or further on. -/
structure Advances (p : Parser α) : Prop where
  yields : ∀ {c m : Cursor} {a : α}, Yields p c a m → ∃ front, c.Over front m
  refuses : ∀ {c : Cursor} {e : Failure}, p c = .error e →
    ∃ front m, c.Over front m ∧ e.position = m.position

lemma bind_of_error {p : Parser α} {next : α → Parser β} {e : Failure} (h : p c = .error e) :
    (p >>= next) c = .error e := by
  show (p c >>= fun x => next x.1 x.2) = _
  rw [h]
  rfl

/-- Where a composition refuses the text, its first part does, or the second behind the first. -/
lemma cases_of_bind_eq_error {p : Parser α} {next : α → Parser β} {e : Failure}
    (h : (p >>= next) c = .error e) :
    p c = .error e ∨ ∃ a m, Yields p c a m ∧ next a m = .error e := by
  change (p c >>= fun x => next x.1 x.2) = _ at h
  cases hp : p c with
  | error e' =>
    rw [hp] at h
    cases h
    exact .inl rfl
  | ok x =>
    rw [hp] at h
    exact .inr ⟨x.1, x.2, hp, h⟩

lemma advances_pure (a : α) : Advances (pure a : Parser α) where
  yields h := by
    obtain ⟨-, rfl⟩ := h.pure
    exact ⟨[], Cursor.over_self _⟩
  refuses h := by cases h

lemma advances_fail (fault : Fault) : Advances (fail fault : Parser α) where
  yields h := absurd h not_yields_fail
  refuses h := by
    cases h
    exact ⟨[], _, Cursor.over_self _, rfl⟩

lemma Advances.bind {p : Parser α} {next : α → Parser β} (h : Advances p)
    (hnext : ∀ a, Advances (next a)) : Advances (p >>= next) where
  yields hb := by
    obtain ⟨a, n, hp, hnext'⟩ := hb.bind
    obtain ⟨front, hover⟩ := h.yields hp
    obtain ⟨front', hover'⟩ := (hnext a).yields hnext'
    exact ⟨front ++ front', hover.trans hover'⟩
  refuses hb := by
    rcases cases_of_bind_eq_error hb with hp | ⟨a, n, hp, hnext'⟩
    · exact h.refuses hp
    · obtain ⟨front, hover⟩ := h.yields hp
      obtain ⟨front', m, hover', hposition⟩ := (hnext a).refuses hnext'
      exact ⟨front ++ front', m, hover.trans hover', hposition⟩

lemma Advances.map {p : Parser α} (h : Advances p) (f : α → β) :
    Advances (do let a ← p; return f a) :=
  h.bind fun _ => advances_pure _

lemma advances_peek {next : Option Char → Parser β} (h : ∀ o, Advances (next o)) :
    Advances (peek >>= next) where
  yields hb := (h _).yields hb.peek
  refuses {c e} hb := by
    change next c.rest.head? c = _ at hb
    exact (h _).refuses hb

lemma advances_bump : Advances bump where
  yields {c m a} h := by
    rw [Yields, bump] at h
    split at h
    · cases h
      exact ⟨[], Cursor.over_self _⟩
    · rename_i x rest hrest
      cases h
      exact ⟨[x], hrest, by simp [byteCount]⟩
  refuses {c e} h := by
    rw [bump] at h
    split at h <;> cases h

lemma advances_expect (x : Char) : Advances (expect x) where
  yields {c m a} h := by
    rw [Yields, expect] at h
    split at h
    · cases h
    · rename_i y rest hrest
      split at h
      · cases h
        exact ⟨[y], hrest, by simp [byteCount]⟩
      · cases h
  refuses {c e} h := by
    refine ⟨[], c, Cursor.over_self c, ?_⟩
    rw [expect] at h
    split at h
    · cases h
      rfl
    · split at h
      · cases h
      · cases h
        rfl

/-- Whether an identifier goes on over a character. -/
def passes (ends : List Char) (x : Char) : Bool :=
  !(ends.contains x || isReserved x)

/-- The characters at the start of a text that an identifier may hold. -/
def nameChars (ends text : List Char) : List Char :=
  text.takeWhile (passes ends)

/-- The place behind the characters that an identifier may hold. -/
def afterName (ends : List Char) (c : Cursor) : Cursor :=
  ⟨c.rest.drop (nameChars ends c.rest).length, c.position + byteCount (nameChars ends c.rest)⟩

lemma over_afterName (ends : List Char) (c : Cursor) :
    c.Over (nameChars ends c.rest) (afterName ends c) :=
  ⟨(List.prefix_iff_eq_append.1 (List.takeWhile_prefix _)).symm, rfl⟩

/-- An identifier is settled by what stands behind the characters that it may hold. -/
lemma identifier_eq (ends : List Char) (c : Cursor) :
    identifier ends c = match (afterName ends c).rest with
      | [] =>
        .error ⟨(afterName ends c).position,
          if (nameChars ends c.rest).isEmpty then .expectedIdentifier else .unexpectedEnd⟩
      | x :: _ =>
        if !ends.contains x then .error ⟨(afterName ends c).position, .badIdentifierCharacter⟩
        else if (nameChars ends c.rest).isEmpty then
          .error ⟨(afterName ends c).position, .expectedIdentifier⟩
        else .ok (nameChars ends c.rest, afterName ends c) :=
  rfl

/-- An identifier ends, or is refused, behind the characters that it may hold. -/
lemma place_identifier (ends : List Char) (c : Cursor) :
    (∀ name m, Yields (identifier ends) c name m → m = afterName ends c) ∧
      ∀ e, identifier ends c = .error e → e.position = (afterName ends c).position := by
  constructor
  · intro name m h
    rw [Yields, identifier_eq] at h
    split at h
    · cases h
    · split_ifs at h
      cases h
      rfl
  · intro e h
    rw [identifier_eq] at h
    split at h
    · cases h
      rfl
    · split_ifs at h <;> cases h <;> rfl

lemma advances_identifier (ends : List Char) : Advances (identifier ends) where
  yields h := ⟨_, (place_identifier ends _).1 _ _ h ▸ over_afterName ends _⟩
  refuses h := ⟨_, _, over_afterName ends _, (place_identifier ends _).2 _ h⟩

lemma Advances.withBudget {reader : Nat → Parser α} (h : ∀ budget, Advances (reader budget)) :
    Advances (withBudget reader) where
  yields hb := (h _).yields hb.withBudget
  refuses {c _} hb := (h (c.rest.length + 1)).refuses hb

/-! ### The readers of types move forward -/

lemma Advances.append {p q : Parser (List ClassName)} (hp : Advances p) (hq : Advances q) :
    Advances (do let found ← p; let more ← q; return found ++ more) :=
  hp.bind fun _ => hq.map _

lemma advances_typeVariable : Advances typeVariable :=
  (advances_expect 'T').bind fun _ => (advances_identifier _).bind fun _ => advances_expect ';'

lemma Advances.primitiveOr {reference : Parser (List ClassName)} (h : Advances reference) :
    Advances (primitiveOr reference) := by
  refine advances_peek fun o => ?_
  split
  · split
    · exact advances_bump.map _
    · exact h
  · exact h

lemma Advances.optionalArguments {budget : Nat} (h : Advances (typeArguments budget)) :
    Advances (optionalArguments budget) := by
  refine advances_peek fun o => ?_
  split
  · refine (advances_expect '<').bind fun _ => advances_peek fun o => ?_
    split
    · exact advances_fail _
    · exact h
  · exact advances_pure _

mutual

theorem advances_referenceType : ∀ budget, Advances (referenceType budget)
  | 0 => advances_fail _
  | budget + 1 => by
    rw [referenceType]
    refine advances_peek fun o => ?_
    split
    · exact (advances_expect 'L').bind fun _ => (advances_identifier _).bind fun name =>
        advances_classTail budget name
    · exact advances_typeVariable.map _
    · exact advances_bump.bind fun _ => (advances_referenceType budget).primitiveOr
    · exact advances_fail _
    · exact advances_fail _

theorem advances_classTail : ∀ budget name, Advances (classTail budget name)
  | 0, _ => by
    rw [classTail]
    exact advances_fail _
  | budget + 1, name => by
    rw [classTail_succ]
    refine (advances_typeArguments budget).optionalArguments.bind fun arguments =>
      advances_peek fun o => ?_
    split
    · exact advances_bump.bind fun _ => (advances_identifier _).bind fun inner =>
        (advances_classTail budget _).map _
    · exact (advances_expect ';').map _

theorem advances_typeArguments : ∀ budget, Advances (typeArguments budget)
  | 0 => by
    rw [typeArguments]
    exact advances_fail _
  | budget + 1 => by
    have hmore : Advances (do
        let found ← referenceType budget
        let more ← typeArguments budget
        return found ++ more) :=
      (advances_referenceType budget).append (advances_typeArguments budget)
    rw [typeArguments]
    refine advances_peek fun o => ?_
    split
    · exact (advances_expect '>').map _
    · exact advances_bump.bind fun _ => advances_typeArguments budget
    · exact advances_bump.bind fun _ => hmore
    · exact advances_bump.bind fun _ => hmore
    · exact advances_fail _
    · exact hmore

end

lemma advances_oneReference : Advances oneReference :=
  .withBudget advances_referenceType

lemma advances_oneType : Advances oneType :=
  .withBudget fun budget => (advances_referenceType budget).primitiveOr

/-- A reference type is not empty, so less is left behind it. -/
lemma length_lt_of_yields_referenceType {budget : Nat} {names : List ClassName}
    (h : Yields (referenceType budget) c names m) : m.rest.length < c.rest.length := by
  obtain ⟨a, ha, -⟩ := exists_reference h
  obtain ⟨y, w, hprint, -⟩ := a.print_eq_cons
  rw [ha, hprint]
  simp only [List.length_append, List.length_cons]
  omega

lemma length_lt_of_yields_oneType {names : List ClassName} (h : Yields oneType c names m) :
    m.rest.length < c.rest.length := by
  obtain ⟨t, ht, -⟩ := h.oneType
  obtain ⟨y, w, hprint, -⟩ := t.print_eq_cons
  rw [ht, hprint]
  simp only [List.length_append, List.length_cons]
  omega

/-! ### The readers of signatures move forward -/

lemma advances_interfaceBounds (budget : Nat) : Advances (interfaceBounds budget) := by
  induction budget with
  | zero => exact advances_pure _
  | succ budget ih =>
    refine advances_peek fun o => ?_
    split
    · exact advances_bump.bind fun _ => advances_oneReference.append ih
    · exact advances_pure _

lemma advances_classBound : Advances classBound := by
  refine advances_peek fun o => ?_
  split
  · exact advances_oneReference
  · exact advances_oneReference
  · exact advances_oneReference
  · exact advances_pure _

lemma advances_typeParameters (budget : Nat) : Advances (typeParameters budget) := by
  induction budget with
  | zero => exact advances_fail _
  | succ budget ih =>
    refine advances_peek fun o => ?_
    split
    · exact (advances_expect '>').map _
    · refine (advances_identifier _).bind fun _ => (advances_expect ':').bind fun _ =>
        advances_classBound.bind fun bound => (Advances.withBudget advances_interfaceBounds).bind
          fun bounds => advances_peek fun o => ?_
      split
      · exact advances_fail _
      · exact ih.map _

lemma advances_optionalTypeParameters : Advances optionalTypeParameters := by
  refine advances_peek fun o => ?_
  split
  · refine (advances_expect '<').bind fun _ => advances_peek fun o => ?_
    split
    · exact advances_fail _
    · exact .withBudget advances_typeParameters
  · exact advances_pure _

lemma advances_parameterTypes (budget : Nat) : Advances (parameterTypes budget) := by
  induction budget with
  | zero => exact advances_fail _
  | succ budget ih =>
    refine advances_peek fun o => ?_
    split
    · exact (advances_expect ')').map _
    · exact advances_fail _
    · exact advances_oneType.append ih

lemma advances_resultType : Advances resultType := by
  refine advances_peek fun o => ?_
  split
  · exact advances_bump.map _
  · exact advances_oneType

lemma advances_thrownType : Advances thrownType := by
  refine advances_peek fun o => ?_
  split
  · exact advances_oneReference
  · exact advances_oneReference
  · exact advances_fail _

lemma advances_thrownTypes (budget : Nat) : Advances (thrownTypes budget) := by
  induction budget with
  | zero => exact advances_pure _
  | succ budget ih =>
    rw [thrownTypes_succ]
    refine advances_peek fun o => ?_
    split
    · exact advances_bump.bind fun _ => advances_thrownType.append ih
    · exact advances_pure _
    · exact advances_fail _

lemma advances_methodType : Advances methodType :=
  (advances_expect '(').bind fun _ => (Advances.withBudget advances_parameterTypes).bind fun _ =>
    advances_resultType.bind fun _ => (Advances.withBudget advances_thrownTypes).map _

lemma advances_typesToEnd (budget : Nat) : Advances (typesToEnd budget) := by
  induction budget with
  | zero => exact advances_pure _
  | succ budget ih =>
    refine advances_peek fun o => ?_
    split
    · exact advances_pure _
    · exact advances_oneType.append ih

end Signature
end ClasspathAudit
