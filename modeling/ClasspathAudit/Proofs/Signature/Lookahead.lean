import ClasspathAudit.Proofs.Signature.Progress

/-
# Readers look one character ahead

What a reader does up to some character depends on nothing behind that character: two texts that
agree up to it and in it are read alike that far. So a text that is refused before a character is
refused whatever follows the character.

Reading alike has to be stated for two budgets, because a budget goes by the length of the text. It
is proved along the composition of readers, and for those that call themselves by induction on one
of the two budgets.
-/
namespace ClasspathAudit
namespace Signature

variable {α β : Type}

/-! ### Reading alike -/

section Alike

variable {x : Char} {r r' u : List Char}

/-- Whether two readers do the same on `u` and `x`, whatever stands behind: `r` for the first, `r'`
for the second. They do if, where the first refuses the text before `x`, so does the second, and
where the first ends before `x` or earlier, so does the second. -/
structure Alike (x : Char) (r r' u : List Char) (p p' : Parser α) : Prop where
  refuses : ∀ {position : Nat} {fault : Fault},
    p ⟨u ++ x :: r, position⟩ = .error ⟨position + byteCount u, fault⟩ →
      p' ⟨u ++ x :: r', position⟩ = .error ⟨position + byteCount u, fault⟩
  yields : ∀ {position : Nat} {a : α} {front back : List Char}, u = front ++ back →
    Yields p ⟨u ++ x :: r, position⟩ a ⟨back ++ x :: r, position + byteCount front⟩ →
      Yields p' ⟨u ++ x :: r', position⟩ a ⟨back ++ x :: r', position + byteCount front⟩

/-- A place before `x`, told by the number of bytes. -/
lemma exists_back {front rest : List Char} (h : u ++ x :: r = front ++ rest)
    (hle : byteCount front ≤ byteCount u) : ∃ back, u = front ++ back ∧ rest = back ++ x :: r := by
  rcases List.append_eq_append_iff.1 h with ⟨w, rfl, hw⟩ | ⟨w, rfl, hw⟩
  · rw [byteCount_append] at hle
    obtain rfl := eq_nil_of_byteCount_eq_zero (w := w) (by omega)
    exact ⟨[], by simp, by simpa using hw.symm⟩
  · exact ⟨w, rfl, hw⟩

lemma Alike.bind {p p' : Parser α} {next next' : α → Parser β} (hp : Advances p)
    (hnext : ∀ a, Advances (next a)) (h : Alike x r r' u p p')
    (h' : ∀ {position : Nat} {a : α} {front back : List Char}, u = front ++ back →
      Yields p ⟨u ++ x :: r, position⟩ a ⟨back ++ x :: r, position + byteCount front⟩ →
        Alike x r r' back (next a) (next' a)) :
    Alike x r r' u (p >>= next) (p' >>= next') where
  refuses {position fault} hb := by
    rcases cases_of_bind_eq_error hb with hrefuses | ⟨a, m, hyields, hrefuses⟩
    · exact bind_of_error (h.refuses hrefuses)
    · obtain ⟨front, hover⟩ := hp.yields hyields
      obtain ⟨front', n, hover', hplace⟩ := (hnext a).refuses hrefuses
      have hposition : m.position = position + byteCount front := hover.position
      -- the second reader refuses the text before `x`, so the first has not passed it
      have hle : byteCount front ≤ byteCount u := by
        have hplace' : position + byteCount u = n.position := hplace
        have hposition' := hover'.position
        omega
      obtain ⟨back, hu, hrest⟩ := exists_back hover.rest hle
      have hm : m = ⟨back ++ x :: r, position + byteCount front⟩ := by
        rw [← hrest, ← hposition]
      have hcount : position + byteCount front + byteCount back = position + byteCount u := by
        rw [hu, byteCount_append, Nat.add_assoc]
      rw [hm] at hyields hrefuses
      rw [← hcount] at hrefuses ⊢
      rw [bind_of_ok (h.yields hu hyields)]
      exact (h' hu hyields).refuses hrefuses
  yields {position b front back} hu hb := by
    obtain ⟨a, m, hyields, hyields'⟩ := hb.bind
    obtain ⟨front₁, hover⟩ := hp.yields hyields
    obtain ⟨front₂, hover'⟩ := (hnext a).yields hyields'
    have hposition : m.position = position + byteCount front₁ := hover.position
    have hposition' : position + byteCount front = m.position + byteCount front₂ := hover'.position
    have hcount : byteCount u = byteCount front + byteCount back := by
      rw [hu, byteCount_append]
    obtain ⟨back₁, hu₁, hrest⟩ := exists_back hover.rest (by omega)
    have hm : m = ⟨back₁ ++ x :: r, position + byteCount front₁⟩ := by
      rw [← hrest, ← hposition]
    have hback : back₁ = front₂ ++ back := by
      have hsame : back₁ ++ x :: r = front₂ ++ (back ++ x :: r) := hrest ▸ hover'.rest
      rw [← List.append_assoc] at hsame
      exact List.append_cancel_right hsame
    have hend : position + byteCount front =
        position + byteCount front₁ + byteCount front₂ := by omega
    rw [hm] at hyields hyields'
    rw [hend] at hyields' ⊢
    rw [Yields, bind_of_ok (h.yields hu₁ hyields)]
    exact (h' hu₁ hyields).yields hback hyields'

/-- Readers that refuse a text with the same failure read it alike. -/
lemma alike_of_errors {p p' : Parser α} (h : ∀ position, ∃ e,
    p ⟨u ++ x :: r, position⟩ = .error e ∧ p' ⟨u ++ x :: r', position⟩ = .error e) :
    Alike x r r' u p p' where
  refuses {position fault} hp := by
    obtain ⟨e, he, he'⟩ := h position
    rw [he', ← he, hp]
  yields {position a front back} _ hp := by
    obtain ⟨e, he, -⟩ := h position
    rw [Yields, he] at hp
    cases hp

/-- Readers that pass over the same characters before `x` and give the same read alike. -/
lemma alike_of_yields {p p' : Parser α} {a : α} {front back : List Char}
    (h : ∀ position, p ⟨u ++ x :: r, position⟩ =
      .ok (a, ⟨back ++ x :: r, position + byteCount front⟩))
    (h' : ∀ position, p' ⟨u ++ x :: r', position⟩ =
      .ok (a, ⟨back ++ x :: r', position + byteCount front⟩)) : Alike x r r' u p p' where
  refuses {position fault} hp := by
    rw [h] at hp
    cases hp
  yields {position b front' back'} hu' hp := by
    rw [Yields, h] at hp
    obtain ⟨rfl, hsame⟩ := Prod.mk.inj (Except.ok.inj hp)
    obtain ⟨hrest, hposition⟩ := Cursor.mk.inj hsame
    rw [Yields, h', List.append_cancel_right hrest, hposition]

lemma alike_pure (a : α) : Alike x r r' u (pure a) (pure a) :=
  @alike_of_yields _ _ _ _ _ _ _ a [] u (fun _ => rfl) fun _ => rfl

lemma alike_fail (fault : Fault) : Alike x r r' u (fail fault : Parser α) (fail fault) :=
  alike_of_errors fun _ => ⟨_, rfl, rfl⟩

lemma head?_append_cons (u r : List Char) (x : Char) : (u ++ x :: r).head? = (u ++ [x]).head? := by
  cases u <;> rfl

lemma alike_peek {next next' : Option Char → Parser β}
    (h : Alike x r r' u (next (u ++ [x]).head?) (next' (u ++ [x]).head?)) :
    Alike x r r' u (peek >>= next) (peek >>= next') where
  refuses {position fault} hb := by
    change next (u ++ x :: r).head? _ = _ at hb
    show next' (u ++ x :: r').head? _ = _
    rw [head?_append_cons] at hb ⊢
    exact h.refuses hb
  yields {position b front back} hu hb := by
    replace hb := hb.peek
    show next' (u ++ x :: r').head? _ = _
    rw [head?_append_cons] at hb ⊢
    exact h.yields hu hb

/-! ### Single characters -/

lemma expect_cons (y z : Char) (rest : List Char) (position : Nat) :
    expect y ⟨z :: rest, position⟩ =
      if z = y then .ok ((), ⟨rest, position + z.utf8Size⟩)
      else .error ⟨position, .unexpectedCharacter⟩ := rfl

lemma yields_bump_iff {position position' : Nat} {back : List Char} :
    Yields bump ⟨u ++ x :: r, position⟩ () ⟨back ++ x :: r, position'⟩ ↔
      ∃ y, u = y :: back ∧ position' = position + y.utf8Size := by
  constructor
  · intro h
    cases u with
    | nil =>
      obtain ⟨-, hsame⟩ := Prod.mk.inj (Except.ok.inj h)
      have hlength := congrArg List.length (Cursor.mk.inj hsame).1
      simp only [List.length_append, List.length_cons] at hlength
      omega
    | cons y u =>
      obtain ⟨-, hsame⟩ := Prod.mk.inj (Except.ok.inj h)
      obtain ⟨hrest, hposition⟩ := Cursor.mk.inj hsame
      exact ⟨y, by rw [List.append_cancel_right hrest], hposition.symm⟩
  · rintro ⟨y, rfl, rfl⟩
    rfl

lemma yields_expect_iff {y : Char} {position position' : Nat} {back : List Char} :
    Yields (expect y) ⟨u ++ x :: r, position⟩ () ⟨back ++ x :: r, position'⟩ ↔
      u = y :: back ∧ position' = position + y.utf8Size := by
  constructor
  · intro h
    have hhead : u ++ x :: r = y :: (back ++ x :: r) := h.expect
    rw [← List.cons_append] at hhead
    obtain rfl := List.append_cancel_right hhead
    rw [Yields, List.cons_append, expect_cons, if_pos rfl] at h
    exact ⟨rfl, (Cursor.mk.inj (Prod.mk.inj (Except.ok.inj h)).2).2.symm⟩
  · rintro ⟨rfl, rfl⟩
    rw [Yields, List.cons_append, expect_cons, if_pos rfl]

lemma expect_eq_error_iff {y : Char} {position : Nat} {fault : Fault} :
    expect y ⟨u ++ x :: r, position⟩ = .error ⟨position + byteCount u, fault⟩ ↔
      u = [] ∧ x ≠ y ∧ fault = .unexpectedCharacter := by
  cases u with
  | nil =>
    rw [List.nil_append, expect_cons]
    by_cases hx : x = y
    · simp [hx]
    · simp [hx, byteCount, eq_comm]
  | cons z u =>
    have hpos := z.utf8Size_pos
    have hne : byteCount (z :: u) ≠ 0 := by
      rw [byteCount]
      omega
    rw [List.cons_append, expect_cons]
    by_cases hz : z = y
    · simp [hz]
    · simp [hz, hne]

lemma alike_bump : Alike x r r' u bump bump where
  refuses h := by
    cases u <;> cases h
  yields _ h := yields_bump_iff.2 (yields_bump_iff.1 h)

lemma alike_expect (y : Char) : Alike x r r' u (expect y) (expect y) where
  refuses h := expect_eq_error_iff.2 (expect_eq_error_iff.1 h)
  yields _ h := yields_expect_iff.2 (yields_expect_iff.1 h)

/-- Behind a character that was passed over less is left. -/
lemma alike_bumpThen {next next' : Unit → Parser β} (hnext : Advances (next ()))
    (h : ∀ y back, u = y :: back → Alike x r r' back (next ()) (next' ())) :
    Alike x r r' u (bump >>= next) (bump >>= next') := by
  refine Alike.bind advances_bump (fun _ => hnext) alike_bump fun _ hyields => ?_
  obtain ⟨y, hu, -⟩ := yields_bump_iff.1 hyields
  exact h y _ hu

lemma alike_expectThen {y : Char} {next next' : Unit → Parser β} (hnext : Advances (next ()))
    (h : ∀ back, u = y :: back → Alike x r r' back (next ()) (next' ())) :
    Alike x r r' u (expect y >>= next) (expect y >>= next') :=
  Alike.bind (advances_expect y) (fun _ => hnext) (alike_expect y)
    fun _ hyields => h _ (yields_expect_iff.1 hyields).1

/-! ### Identifiers -/

/-- What an identifier does is settled by the first character that it may not hold. -/
lemma identifier_append_cons {ends name s : List Char} {y : Char}
    (hname : ∀ c ∈ name, passes ends c = true) (hy : passes ends y = false) (position : Nat) :
    identifier ends ⟨name ++ y :: s, position⟩ =
      if (!ends.contains y) = true then .error ⟨position + byteCount name, .badIdentifierCharacter⟩
      else if name.isEmpty = true then .error ⟨position + byteCount name, .expectedIdentifier⟩
      else .ok (name, ⟨y :: s, position + byteCount name⟩) := by
  have htake : nameChars ends (name ++ y :: s) = name := takeWhile_append_cons hname hy
  rw [identifier_eq, afterName]
  simp only [htake, List.drop_left]

/-- Characters have a first one that stops a run, or none. -/
lemma exists_stop (P : Char → Bool) (text : List Char) :
    (∀ c ∈ text, P c = true) ∨
      ∃ name y rest, text = name ++ y :: rest ∧ (∀ c ∈ name, P c = true) ∧ P y = false := by
  induction text with
  | nil => exact .inl (by simp)
  | cons c text ih =>
    cases hc : P c with
    | false => exact .inr ⟨[], c, text, rfl, by simp, hc⟩
    | true =>
      rcases ih with hall | ⟨name, y, rest, rfl, hname, hy⟩
      · exact .inl (by simpa [hc] using hall)
      · exact .inr ⟨c :: name, y, rest, rfl, by simpa [hc] using hname, hy⟩

/-- If all characters up to `x` and `x` may stand in a name, the name goes on behind `x`. -/
lemma byteCount_lt_byteCount_nameChars {ends : List Char}
    (h : ∀ c ∈ u ++ [x], passes ends c = true) (tail : List Char) :
    byteCount u < byteCount (nameChars ends (u ++ x :: tail)) := by
  have hpos := x.utf8Size_pos
  have hname : nameChars ends (u ++ x :: tail) = u ++ [x] ++ nameChars ends tail := by
    rw [nameChars, nameChars, ← List.takeWhile_append_of_pos h, List.append_assoc,
      List.singleton_append]
  rw [hname, byteCount_append, byteCount_append, byteCount]
  omega

/-- A character that stops a name is in `u` or is `x`, so the name ends before `x`. -/
lemma exists_back_of_append_cons {name rest : List Char} {y : Char}
    (h : u ++ [x] = name ++ y :: rest) : ∃ back, u = name ++ back ∧ y :: rest = back ++ [x] := by
  rcases List.eq_nil_or_concat (y :: rest) with hnil | ⟨back, z, hback⟩
  · cases hnil
  · rw [List.concat_eq_append] at hback
    rw [hback, ← List.append_assoc] at h
    obtain ⟨hu, hz⟩ := List.append_inj' h rfl
    obtain rfl : x = z := by simpa using hz
    exact ⟨back, hu, hback⟩

lemma alike_identifier (ends : List Char) :
    Alike x r r' u (identifier ends) (identifier ends) := by
  rcases exists_stop (passes ends) (u ++ [x]) with hall | ⟨name, y, rest, hsplit, hname, hy⟩
  · -- the identifier goes on behind `x`, and nothing happens before
    have hlong := byteCount_lt_byteCount_nameChars hall r
    constructor
    · intro position fault h
      have hplace := (place_identifier ends _).2 _ h
      simp only [afterName] at hplace
      omega
    · intro position name front back hu h
      have hplace := congrArg Cursor.position ((place_identifier ends _).1 _ _ h)
      have hcount := congrArg byteCount hu
      rw [byteCount_append] at hcount
      simp only [afterName] at hplace
      omega
  · obtain ⟨back, hu, hback⟩ := exists_back_of_append_cons hsplit
    have houtcome : ∀ tail position, identifier ends ⟨u ++ x :: tail, position⟩ =
        if (!ends.contains y) = true then
          .error ⟨position + byteCount name, .badIdentifierCharacter⟩
        else if name.isEmpty = true then .error ⟨position + byteCount name, .expectedIdentifier⟩
        else .ok (name, ⟨back ++ x :: tail, position + byteCount name⟩) := by
      intro tail position
      have hrest : back ++ x :: tail = y :: (rest ++ tail) := by
        rw [← List.cons_append, hback, List.append_assoc, List.singleton_append]
      rw [hu, List.append_assoc, hrest, identifier_append_cons hname hy]
    by_cases hend : (!ends.contains y) = true
    · exact alike_of_errors fun position =>
        ⟨_, by rw [houtcome, if_pos hend], by rw [houtcome, if_pos hend]⟩
    · by_cases hempty : name.isEmpty = true
      · exact alike_of_errors fun position => ⟨_, by rw [houtcome, if_neg hend, if_pos hempty],
          by rw [houtcome, if_neg hend, if_pos hempty]⟩
      · exact alike_of_yields (fun position => by rw [houtcome, if_neg hend, if_neg hempty])
          fun position => by rw [houtcome, if_neg hend, if_neg hempty]

lemma alike_identifierThen {ends : List Char} {next next' : List Char → Parser β}
    (hnext : ∀ name, Advances (next name))
    (h : ∀ name back, u = name ++ back → name ≠ [] →
      Alike x r r' back (next name) (next' name)) :
    Alike x r r' u (identifier ends >>= next) (identifier ends >>= next') := by
  refine Alike.bind (advances_identifier ends) hnext (alike_identifier ends)
    fun {position name front back} hu hyields => ?_
  obtain ⟨hrest, hname, -⟩ := hyields.identifier
  exact h name back (List.append_cancel_right (by simpa using hrest)) hname

lemma Alike.withBudget {reader : Nat → Parser α}
    (h : ∀ budget budget', u.length + r.length + 1 < budget → u.length + r'.length + 1 < budget' →
      Alike x r r' u (reader budget) (reader budget')) :
    Alike x r r' u (withBudget reader) (withBudget reader) := by
  have hlength : ∀ tail : List Char,
      u.length + tail.length + 1 < (u ++ x :: tail).length + 1 := by
    intro tail
    rw [List.length_append, List.length_cons]
    omega
  have halike := h _ _ (hlength r) (hlength r')
  exact ⟨halike.refuses, halike.yields⟩

/-! ### The readers of types read alike -/

lemma Alike.map {p p' : Parser α} (hp : Advances p) (h : Alike x r r' u p p') (f : α → β) :
    Alike x r r' u (do let a ← p; return f a) (do let a ← p'; return f a) :=
  h.bind hp (fun _ => advances_pure _) fun _ _ => alike_pure _

lemma Alike.append {p p' q q' : Parser (List ClassName)} (hp : Advances p) (hq : Advances q)
    (h : Alike x r r' u p p')
    (h' : ∀ {position : Nat} {names : List ClassName} {front back : List Char},
      u = front ++ back →
      Yields p ⟨u ++ x :: r, position⟩ names ⟨back ++ x :: r, position + byteCount front⟩ →
        Alike x r r' back q q') :
    Alike x r r' u (do let found ← p; let more ← q; return found ++ more)
      (do let found ← p'; let more ← q'; return found ++ more) :=
  h.bind hp (fun _ => hq.map _) fun hu hyields => (h' hu hyields).map hq _

lemma alike_typeVariable : Alike x r r' u typeVariable typeVariable :=
  alike_expectThen ((advances_identifier _).bind fun _ => advances_expect ';') fun _ _ =>
    alike_identifierThen (fun _ => advances_expect ';') fun _ _ _ _ => alike_expect ';'

lemma Alike.primitiveOr {reference reference' : Parser (List ClassName)}
    (h : Alike x r r' u reference reference') :
    Alike x r r' u (primitiveOr reference) (primitiveOr reference') := by
  refine alike_peek ?_
  split
  · split_ifs
    · exact alike_bump.map advances_bump _
    · exact h
  · exact h

mutual

theorem alike_referenceType : ∀ (budget budget' : Nat) (u : List Char),
    u.length + r.length + 1 < budget → u.length + r'.length + 1 < budget' →
      Alike x r r' u (referenceType budget) (referenceType budget')
  | budget + 1, budget' + 1, u, h, h' => by
    rw [referenceType, referenceType]
    refine alike_peek ?_
    split
    · refine alike_expectThen ?_ fun back hu => ?_
      · exact (advances_identifier _).bind (advances_classTail budget)
      · refine alike_identifierThen (advances_classTail budget) fun name back' hback hname => ?_
        -- `classTail` needs a budget greater by one, which the name makes up for
        have hlength := List.length_pos_iff.2 hname
        subst hu hback
        simp only [List.length_append, List.length_cons] at h h'
        exact alike_classTail budget budget' name back' (by omega) (by omega)
    · exact alike_typeVariable.map advances_typeVariable _
    · refine alike_bumpThen (advances_referenceType budget).primitiveOr fun y back hu => ?_
      subst hu
      rw [List.length_cons] at h h'
      exact (alike_referenceType budget budget' back (by omega) (by omega)).primitiveOr
    · exact alike_fail _
    · exact alike_fail _

theorem alike_classTail : ∀ (budget budget' : Nat) (name u : List Char),
    u.length + r.length + 2 < budget → u.length + r'.length + 2 < budget' →
      Alike x r r' u (classTail budget name) (classTail budget' name)
  | budget + 1, budget' + 1, name, u, h, h' => by
    have hoptional : Alike x r r' u (optionalArguments budget) (optionalArguments budget') := by
      refine alike_peek ?_
      split_ifs
      · refine alike_expectThen (advances_peek fun o => ?_) fun back hu => alike_peek ?_
        · split_ifs
          · exact advances_fail _
          · exact advances_typeArguments budget
        · split_ifs
          · exact alike_fail _
          · subst hu
            rw [List.length_cons] at h h'
            exact alike_typeArguments budget budget' back (by omega) (by omega)
      · exact alike_pure _
    have hinner : ∀ (found : List ClassName) (inner : List Char), Advances (do
        let more ← classTail budget (name ++ '$' :: inner)
        return found ++ more) :=
      fun found inner => (advances_classTail budget _).map _
    rw [classTail_succ, classTail_succ]
    refine hoptional.bind (advances_typeArguments budget).optionalArguments
      (fun arguments => advances_peek fun o => ?_)
      fun {_ arguments front back} hu _ => alike_peek ?_
    · split
      · exact advances_bump.bind fun _ => (advances_identifier _).bind (hinner _)
      · exact (advances_expect ';').map _
    · subst hu
      rw [List.length_append] at h h'
      split
      · refine alike_bumpThen ((advances_identifier _).bind (hinner _)) fun y back' hback =>
          alike_identifierThen (hinner _) fun inner back'' hback' hinner =>
            Alike.map (advances_classTail budget _) ?_ _
        have hlength := List.length_pos_iff.2 hinner
        subst hback hback'
        simp only [List.length_append, List.length_cons] at h h'
        exact alike_classTail budget budget' _ back'' (by omega) (by omega)
      · exact (alike_expect ';').map (advances_expect ';') _

theorem alike_typeArguments : ∀ (budget budget' : Nat) (u : List Char),
    u.length + r.length + 2 < budget → u.length + r'.length + 2 < budget' →
      Alike x r r' u (typeArguments budget) (typeArguments budget')
  | budget + 1, budget' + 1, u, h, h' => by
    have hreference : Advances (referenceType budget) := advances_referenceType budget
    have harguments : Advances (typeArguments budget) := advances_typeArguments budget
    have htyped : ∀ back : List Char, back.length ≤ u.length →
        Alike x r r' back (do
            let found ← referenceType budget
            let more ← typeArguments budget
            return found ++ more)
          (do
            let found ← referenceType budget'
            let more ← typeArguments budget'
            return found ++ more) := by
      intro back hback
      refine Alike.append hreference harguments ?_ fun {_ _ front rest} hu hyields => ?_
      · exact alike_referenceType budget budget' back (by omega) (by omega)
      · have hlength := length_lt_of_yields_referenceType hyields
        simp only [List.length_append, List.length_cons] at hlength
        exact alike_typeArguments budget budget' rest (by omega) (by omega)
    have hshorter : ∀ {y : Char} {back : List Char}, u = y :: back → back.length < u.length := by
      rintro y back rfl
      exact Nat.lt_succ_self _
    rw [typeArguments, typeArguments]
    refine alike_peek ?_
    split
    · exact (alike_expect '>').map (advances_expect '>') _
    · refine alike_bumpThen harguments fun y back hu => ?_
      have hlength := hshorter hu
      exact alike_typeArguments budget budget' back (by omega) (by omega)
    · exact alike_bumpThen (hreference.append harguments) fun _ back hu =>
        htyped back (hshorter hu).le
    · exact alike_bumpThen (hreference.append harguments) fun _ back hu =>
        htyped back (hshorter hu).le
    · exact alike_fail _
    · exact htyped u le_rfl

end

lemma alike_oneReference : Alike x r r' u oneReference oneReference :=
  .withBudget fun _ _ h h' => alike_referenceType _ _ _ h h'

lemma alike_oneType : Alike x r r' u oneType oneType :=
  .withBudget fun _ _ h h' => (alike_referenceType _ _ _ h h').primitiveOr

/-! ### The readers of signatures read alike -/

theorem alike_interfaceBounds : ∀ (budget budget' : Nat) (u : List Char),
    u.length + r.length + 1 < budget → u.length + r'.length + 1 < budget' →
      Alike x r r' u (interfaceBounds budget) (interfaceBounds budget')
  | budget + 1, budget' + 1, u, h, h' => by
    refine alike_peek ?_
    split
    · have hmore := advances_interfaceBounds budget
      refine alike_bumpThen (advances_oneReference.append hmore) fun y back hu => ?_
      refine Alike.append advances_oneReference hmore alike_oneReference
        fun {_ _ _ rest} hback _ => ?_
      subst hu hback
      simp only [List.length_append, List.length_cons] at h h'
      exact alike_interfaceBounds budget budget' rest (by omega) (by omega)
    · exact alike_pure _

lemma alike_classBound : Alike x r r' u classBound classBound := by
  refine alike_peek ?_
  split
  · exact alike_oneReference
  · exact alike_oneReference
  · exact alike_oneReference
  · exact alike_pure _

lemma advances_moreParameters (budget : Nat) (bound bounds : List ClassName) : Advances (do
    match ← peek with
    | none => fail .unterminatedTypeParameters
    | some _ => do
      let more ← typeParameters budget
      return bound ++ bounds ++ more) := by
  refine advances_peek fun o => ?_
  split
  · exact advances_fail _
  · exact (advances_typeParameters budget).map _

theorem alike_typeParameters : ∀ (budget budget' : Nat) (u : List Char),
    u.length + r.length + 1 < budget → u.length + r'.length + 1 < budget' →
      Alike x r r' u (typeParameters budget) (typeParameters budget')
  | budget + 1, budget' + 1, u, h, h' => by
    have hbounds : Advances (withBudget interfaceBounds) := .withBudget advances_interfaceBounds
    have hmore := advances_moreParameters budget
    refine alike_peek ?_
    split
    · exact (alike_expect '>').map (advances_expect '>') _
    · refine alike_identifierThen (fun _ => (advances_expect ':').bind fun _ =>
        advances_classBound.bind fun bound => hbounds.bind (hmore bound))
        fun name back hu hname => ?_
      refine alike_expectThen (advances_classBound.bind fun bound => hbounds.bind (hmore bound))
        fun back₁ hback => ?_
      refine alike_classBound.bind advances_classBound (fun bound => hbounds.bind (hmore bound))
        fun {_ bound _ back₂} hback₁ _ => ?_
      refine Alike.bind hbounds (hmore bound)
        (.withBudget fun _ _ h h' => alike_interfaceBounds _ _ _ h h')
        fun {_ bounds _ back₃} hback₂ _ => alike_peek ?_
      -- the name and its `:` are behind, so the budgets exceed what is left again
      subst hu hback hback₁ hback₂
      split
      · exact alike_fail _
      · simp only [List.length_append, List.length_cons] at h h'
        exact (alike_typeParameters budget budget' back₃ (by omega) (by omega)).map
            (advances_typeParameters budget) _

lemma alike_optionalTypeParameters :
    Alike x r r' u optionalTypeParameters optionalTypeParameters := by
  refine alike_peek ?_
  split
  · refine alike_expectThen (advances_peek fun o => ?_) fun back hu => alike_peek ?_
    · split
      · exact advances_fail _
      · exact .withBudget advances_typeParameters
    · split
      · exact alike_fail _
      · exact .withBudget fun _ _ h h' => alike_typeParameters _ _ _ h h'
  · exact alike_pure _

theorem alike_parameterTypes : ∀ (budget budget' : Nat) (u : List Char),
    u.length + r.length + 1 < budget → u.length + r'.length + 1 < budget' →
      Alike x r r' u (parameterTypes budget) (parameterTypes budget')
  | budget + 1, budget' + 1, u, h, h' => by
    refine alike_peek ?_
    split
    · exact (alike_expect ')').map (advances_expect ')') _
    · exact alike_fail _
    · refine Alike.append advances_oneType (advances_parameterTypes budget) alike_oneType
        fun {_ _ _ rest} hu hyields => ?_
      have hlength := length_lt_of_yields_oneType hyields
      simp only [List.length_append, List.length_cons] at h h' hlength
      exact alike_parameterTypes budget budget' rest (by omega) (by omega)

lemma alike_resultType : Alike x r r' u resultType resultType := by
  refine alike_peek ?_
  split
  · exact alike_bump.map advances_bump _
  · exact alike_oneType

lemma alike_thrownType : Alike x r r' u thrownType thrownType := by
  refine alike_peek ?_
  split
  · exact alike_oneReference
  · exact alike_oneReference
  · exact alike_fail _

theorem alike_thrownTypes : ∀ (budget budget' : Nat) (u : List Char),
    u.length + r.length + 1 < budget → u.length + r'.length + 1 < budget' →
      Alike x r r' u (thrownTypes budget) (thrownTypes budget')
  | budget + 1, budget' + 1, u, h, h' => by
    rw [thrownTypes_succ, thrownTypes_succ]
    refine alike_peek ?_
    split
    · have hmore := advances_thrownTypes budget
      refine alike_bumpThen (advances_thrownType.append hmore) fun y back hu => ?_
      refine Alike.append advances_thrownType hmore alike_thrownType fun {_ _ _ rest} hback _ => ?_
      subst hu hback
      simp only [List.length_append, List.length_cons] at h h'
      exact alike_thrownTypes budget budget' rest (by omega) (by omega)
    · exact alike_pure _
    · exact alike_fail _

lemma alike_methodType : Alike x r r' u methodType methodType := by
  have hthrown : Advances (withBudget thrownTypes) := .withBudget advances_thrownTypes
  have hresult : ∀ parameters, Advances (do
      let result ← resultType
      let thrown ← withBudget thrownTypes
      return parameters ++ result ++ thrown) :=
    fun parameters => advances_resultType.bind fun _ => hthrown.map _
  have hparameters : Advances (withBudget parameterTypes) := .withBudget advances_parameterTypes
  refine alike_expectThen (hparameters.bind hresult) fun back hu => ?_
  refine Alike.bind hparameters hresult
    (.withBudget fun _ _ h h' => alike_parameterTypes _ _ _ h h') fun _ _ => ?_
  refine alike_resultType.bind advances_resultType (fun _ => hthrown.map _) fun _ _ => ?_
  exact Alike.map hthrown (.withBudget fun _ _ h h' => alike_thrownTypes _ _ _ h h') _

theorem alike_typesToEnd : ∀ (budget budget' : Nat) (u : List Char),
    u.length + r.length + 1 < budget → u.length + r'.length + 1 < budget' →
      Alike x r r' u (typesToEnd budget) (typesToEnd budget')
  | budget + 1, budget' + 1, u, h, h' => by
    refine alike_peek ?_
    split
    · exact alike_pure _
    · refine Alike.append advances_oneType (advances_typesToEnd budget) alike_oneType
        fun {_ _ _ rest} hu hyields => ?_
      have hlength := length_lt_of_yields_oneType hyields
      simp only [List.length_append, List.length_cons] at h h' hlength
      exact alike_typesToEnd budget budget' rest (by omega) (by omega)

lemma advances_moreTypes (parameters : List ClassName) : Advances (do
    match ← peek with
    | some '(' => do
      let method ← methodType
      return parameters ++ method
    | none => fail .missingType
    | some _ => do
      let types ← withBudget typesToEnd
      return parameters ++ types) := by
  refine advances_peek fun o => ?_
  split
  · exact advances_methodType.map _
  · exact advances_fail _
  · exact (Advances.withBudget advances_typesToEnd).map _

theorem alike_whole : Alike x r r' u whole whole := by
  refine alike_peek ?_
  split
  · exact alike_fail _
  · refine alike_optionalTypeParameters.bind advances_optionalTypeParameters
      advances_moreTypes fun _ _ => alike_peek ?_
    split
    · exact alike_methodType.map advances_methodType _
    · exact alike_fail _
    · exact Alike.map (.withBudget advances_typesToEnd)
        (.withBudget fun _ _ h h' => alike_typesToEnd _ _ _ h h') _

end Alike

/-- A refusal before a character stands, whatever follows the character. -/
lemma whole_refuses_alike {before rest rest' : List Char} {x : Char} {fault : Fault}
    (h : whole ⟨before ++ x :: rest, 0⟩ = .error ⟨byteCount before, fault⟩) :
    whole ⟨before ++ x :: rest', 0⟩ = .error ⟨byteCount before, fault⟩ := by
  rw [← Nat.zero_add (byteCount before)] at h ⊢
  exact alike_whole.refuses h

end Signature
end ClasspathAudit
