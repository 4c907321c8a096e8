import Mathlib.Data.List.Basic
import ClasspathAudit.Proofs.Signature.BytePlaces

/-
# Bytes are read as the characters that they are

The reader of bytes does at each place between characters what the reader of characters does there,
and comes to such a place again. It looks at single bytes, and may do so because all characters of
more than a byte are treated alike: where the grammar distinguishes characters, they are of a single
byte.
-/
namespace ClasspathAudit
namespace Signature

variable {α β : Type} {s : String} {c m : Cursor}

/-! ### Following -/

/-- Whether a reader of bytes does at `c` what a reader of characters does there. -/
structure Follows (s : String) (c : Cursor) (q : ByteReader.Reader α) (p : Parser α) : Prop where
  yields : ∀ {a : α} {m : Cursor}, Yields p c a m → q s c.position = .ok (a, m.position)
  refuses : ∀ {e : Failure}, p c = .error e → q s c.position = .error (.refused e)

lemma follows_of_ok {q : ByteReader.Reader α} {p : Parser α} {a : α} (hp : p c = .ok (a, m))
    (hq : q s c.position = .ok (a, m.position)) : Follows s c q p where
  yields h := by
    rw [Yields, hp] at h
    cases h
    exact hq
  refuses h := by
    rw [hp] at h
    cases h

lemma follows_of_error {q : ByteReader.Reader α} {p : Parser α} {e : Failure}
    (hp : p c = .error e) (hq : q s c.position = .error (.refused e)) : Follows s c q p where
  yields h := by
    rw [Yields, hp] at h
    cases h
  refuses h := by
    rw [hp] at h
    cases h
    exact hq

lemma follows_pure (a : α) : Follows s c (pure a) (pure a) :=
  follows_of_ok rfl rfl

lemma follows_fail (fault : Fault) :
    Follows s c (ByteReader.fail fault : ByteReader.Reader α) (fail fault) :=
  follows_of_error rfl rfl

lemma Follows.bind {q : ByteReader.Reader α} {p : Parser α} {next' : α → ByteReader.Reader β}
    {next : α → Parser β} (hp : Advances p) (hc : c.In s) (h : Follows s c q p)
    (hnext : ∀ {a m}, Yields p c a m → m.In s → Follows s m (next' a) (next a)) :
    Follows s c (q >>= next') (p >>= next) where
  yields hb := by
    obtain ⟨a, n, hn, hm⟩ := hb.bind
    obtain ⟨front, hover⟩ := hp.yields hn
    show (q s c.position >>= fun x => next' x.1 s x.2) = _
    rw [h.yields hn]
    exact (hnext hn (hc.over hover)).yields hm
  refuses {e} hb := by
    show (q s c.position >>= fun x => next' x.1 s x.2) = _
    rcases cases_of_bind_eq_error hb with he | ⟨a, n, hn, he⟩
    · rw [h.refuses he]
      rfl
    · obtain ⟨front, hover⟩ := hp.yields hn
      rw [h.yields hn]
      exact (hnext hn (hc.over hover)).refuses he

lemma Follows.map {q : ByteReader.Reader α} {p : Parser α} (hp : Advances p) (hc : c.In s)
    (h : Follows s c q p) (f : α → β) :
    Follows s c (do let a ← q; return f a) (do let a ← p; return f a) :=
  h.bind hp hc fun _ _ => follows_pure _

lemma Follows.append {q q' : ByteReader.Reader (List ClassName)} {p p' : Parser (List ClassName)}
    (hp : Advances p) (hp' : Advances p') (hc : c.In s) (h : Follows s c q p)
    (h' : ∀ {names m}, Yields p c names m → m.In s → Follows s m q' p') :
    Follows s c (do let found ← q; let more ← q'; return found ++ more)
      (do let found ← p; let more ← p'; return found ++ more) :=
  h.bind hp hc fun hyields hm => (h' hyields hm).map hp' hm _

/-- A look at the next byte leads to the same case as one at the next character, if all characters
of more than a byte lead to one. -/
lemma follows_peek {next' : Option Char → ByteReader.Reader β} {next : Option Char → Parser β}
    (hc : c.In s) (hlong : ∀ x, ¬IsShort x → next (some x) = next (some '\u0080'))
    (h : ∀ o, (∀ x, o = some x → IsShort x → c.rest.head? = some x) →
      Follows s c (next' o) (next o)) :
    Follows s c (ByteReader.peek >>= next') (peek >>= next) := by
  have hcase : next c.rest.head? = next (shown s c.position) ∧
      ∀ x, shown s c.position = some x → IsShort x → c.rest.head? = some x := by
    cases hrest : c.rest with
    | nil =>
      rw [hc.shown_nil hrest]
      exact ⟨rfl, fun x hx => by cases hx⟩
    | cons x rest =>
      by_cases hx : IsShort x
      · rw [hc.shown_short hrest hx]
        exact ⟨rfl, fun y hy _ => hy⟩
      · obtain ⟨y, hshown, hy⟩ := hc.shown_long hrest hx
        rw [hshown]
        refine ⟨(hlong x hx).trans (hlong y hy).symm, fun z hz hshort => ?_⟩
        cases hz
        exact absurd hshort hy
  have hfollows := h (shown s c.position) hcase.2
  constructor
  · intro b m hb
    refine hfollows.yields ?_
    rw [← hcase.1]
    exact hb.peek
  · intro e he
    refine hfollows.refuses ?_
    rw [← hcase.1]
    exact he

lemma follows_bumpThen {x : Char} {next' : Unit → ByteReader.Reader β} {next : Unit → Parser β}
    (hc : c.In s) (hx : IsShort x) (hhead : c.rest.head? = some x)
    (h : ∀ {m}, c.rest = x :: m.rest → m.In s → Follows s m (next' ()) (next ())) :
    Follows s c (ByteReader.bump >>= next') (bump >>= next) := by
  obtain ⟨rest, hrest⟩ := List.head?_eq_some_iff.1 hhead
  have hbump : Follows s c ByteReader.bump bump := by
    refine @follows_of_ok _ _ _ ⟨rest, c.position + x.utf8Size⟩ _ _ () ?_ ?_
    · rw [bump, hrest]
    · rw [hx.utf8Size]
      rfl
  refine hbump.bind advances_bump hc fun {a m} hm hin => h ?_ hin
  rw [Yields, bump, hrest] at hm
  cases hm
  exact hrest

lemma byteReader_expect_eq (x : Char) (s : String) (position : Nat) :
    ByteReader.expect x s position =
      match shown s position with
      | none => .error (.refused ⟨position, .unexpectedEnd⟩)
      | some y =>
        if y = x then .ok ((), position + 1)
        else .error (.refused ⟨position, .unexpectedCharacter⟩) := by
  show (match shown s position with
    | none => ByteReader.fail .unexpectedEnd
    | some y => if y = x then ByteReader.bump else ByteReader.fail .unexpectedCharacter :
      ByteReader.Reader Unit) s position = _
  cases shown s position with
  | none => rfl
  | some y =>
    by_cases hy : y = x
    · simp only [if_pos hy]
      rfl
    · simp only [if_neg hy]
      rfl

lemma follows_expect {x : Char} (hc : c.In s) (hx : IsShort x) :
    Follows s c (ByteReader.expect x) (expect x) := by
  cases hrest : c.rest with
  | nil =>
    refine @follows_of_error _ _ _ _ _ ⟨c.position, .unexpectedEnd⟩ ?_ ?_
    · rw [expect, hrest]
    · rw [byteReader_expect_eq, hc.shown_nil hrest]
  | cons y rest =>
    by_cases hyx : y = x
    · subst hyx
      refine @follows_of_ok _ _ _ ⟨rest, c.position + y.utf8Size⟩ _ _ () ?_ ?_
      · rw [expect, hrest]
        exact if_pos rfl
      · rw [byteReader_expect_eq, hc.shown_short hrest hx, hx.utf8Size]
        exact if_pos rfl
    · refine @follows_of_error _ _ _ _ _ ⟨c.position, .unexpectedCharacter⟩ ?_ ?_
      · rw [expect, hrest]
        exact if_neg hyx
      · -- a byte of a longer character is not `x` either
        have hshown : ∃ z, shown s c.position = some z ∧ z ≠ x := by
          by_cases hy : IsShort y
          · exact ⟨y, hc.shown_short hrest hy, hyx⟩
          · obtain ⟨z, hz, hlong⟩ := hc.shown_long hrest hy
            exact ⟨z, hz, fun h => hlong (h ▸ hx)⟩
        obtain ⟨z, hz, hne⟩ := hshown
        rw [byteReader_expect_eq, hz]
        exact if_neg hne

lemma follows_expectThen {x : Char} {next' : Unit → ByteReader.Reader β} {next : Unit → Parser β}
    (hc : c.In s) (hx : IsShort x)
    (h : ∀ {m}, c.rest = x :: m.rest → m.In s → Follows s m (next' ()) (next ())) :
    Follows s c (ByteReader.expect x >>= next') (expect x >>= next) :=
  (follows_expect hc hx).bind (advances_expect x) hc fun hyields hm => h hyields.expect hm

/-- More bytes than characters are left, so neither budget is used up. -/
lemma Follows.withBudget {reader' : Nat → ByteReader.Reader α} {reader : Nat → Parser α}
    (hc : c.In s) (h : ∀ budget budget', c.rest.length < budget → c.rest.length < budget' →
      Follows s c (reader' budget') (reader budget)) :
    Follows s c (ByteReader.withBudget reader') (withBudget reader) := by
  have hlength : c.rest.length < s.utf8ByteSize - c.position + 1 := by
    have hsize := hc.utf8ByteSize
    have hle := length_le_byteCount c.rest
    omega
  have hfollows := h (c.rest.length + 1) (s.utf8ByteSize - c.position + 1) (Nat.lt_succ_self _)
    hlength
  exact ⟨hfollows.yields, hfollows.refuses⟩

/-! ### Identifiers -/

lemma byteReader_identifier_of_error {ends : List Char} {start : Nat} {h : ByteReader.Halt}
    (hpassed : ByteReader.withBudget (ByteReader.passName ends) s start = .error h) :
    ByteReader.identifier ends s start = .error h := by
  show (ByteReader.withBudget (ByteReader.passName ends) s start >>= _) = _
  rw [hpassed]
  rfl

lemma byteReader_identifier_of_ok {ends : List Char} {start stop : Nat}
    (hpassed : ByteReader.withBudget (ByteReader.passName ends) s start = .ok ((), stop)) :
    ByteReader.identifier ends s start =
      if stop = start then .error (.refused ⟨stop, .expectedIdentifier⟩)
      else match shown s stop with
        | none => .error (.refused ⟨stop, .unexpectedEnd⟩)
        | some _ => ByteReader.cut start stop s stop := by
  have hrun : ByteReader.identifier ends s start =
      ((if stop = start then ByteReader.fail .expectedIdentifier
        else do
          match ← ByteReader.peek with
          | none => ByteReader.fail .unexpectedEnd
          | some _ => ByteReader.cut start stop) : ByteReader.Reader (List Char)) s stop := by
    show (ByteReader.withBudget (ByteReader.passName ends) s start >>= _) = _
    rw [hpassed]
    rfl
  rw [hrun]
  split_ifs
  · rfl
  · show (match shown s stop with
      | none => ByteReader.fail .unexpectedEnd
      | some _ => ByteReader.cut start stop : ByteReader.Reader (List Char)) s stop = _
    cases shown s stop <;> rfl

lemma follows_identifier {ends : List Char} (hends : ends.Forall IsShort) (hc : c.In s) :
    Follows s c (ByteReader.identifier ends) (identifier ends) := by
  have hmem : ∀ x ∈ ends, IsShort x := List.forall_iff_forall_mem.1 hends
  have hover := over_afterName ends c
  have hidentifier := identifier_eq ends c
  have hpassed := passName_eq hmem hc
  have hsame : (afterName ends c).position = c.position ↔ nameChars ends c.rest = [] := by
    rw [hover.position]
    refine ⟨fun h => eq_nil_of_byteCount_eq_zero (by omega), fun h => ?_⟩
    rw [h]
    rfl
  cases hrest : (afterName ends c).rest with
  | nil =>
    rw [hrest] at hidentifier hpassed
    refine follows_of_error hidentifier ?_
    rw [byteReader_identifier_of_ok hpassed, (hc.over hover).shown_nil hrest]
    by_cases hempty : nameChars ends c.rest = []
    · rw [if_pos (hsame.2 hempty), hempty]
      rfl
    · rw [if_neg (fun h => hempty (hsame.1 h)), if_neg (by simpa using hempty)]
  | cons x rest =>
    rw [hrest] at hidentifier hpassed
    simp only at hidentifier hpassed
    by_cases hend : ends.contains x
    · rw [if_pos hend] at hpassed
      rw [if_neg (by simpa using hend)] at hidentifier
      by_cases hempty : nameChars ends c.rest = []
      · rw [if_pos (by simpa using hempty)] at hidentifier
        refine follows_of_error hidentifier ?_
        rw [byteReader_identifier_of_ok hpassed, if_pos (hsame.2 hempty)]
      · rw [if_neg (by simpa using hempty)] at hidentifier
        refine follows_of_ok hidentifier ?_
        have hshown := (hc.over hover).shown_short hrest (hmem x (by simpa using hend))
        rw [byteReader_identifier_of_ok hpassed, if_neg (fun h => hempty (hsame.1 h)), hshown]
        exact cut_eq hc hover _
    · rw [if_neg hend] at hpassed
      rw [if_pos (by simpa using hend)] at hidentifier
      exact follows_of_error hidentifier (byteReader_identifier_of_error hpassed)

/-! ### Types -/

lemma follows_typeVariable (hc : c.In s) :
    Follows s c ByteReader.typeVariable typeVariable :=
  follows_expectThen hc (by decide) fun _ hm =>
    (follows_identifier (by decide) hm).bind (advances_identifier _) hm fun _ hn =>
      follows_expect hn (by decide)

lemma isShort_of_isPrimitive {x : Char} (h : isPrimitive x = true) : IsShort x := by
  have hshort : ∀ c ∈ ['B', 'C', 'D', 'F', 'I', 'J', 'S', 'Z'], IsShort c := by simp [IsShort]
  exact hshort x (isPrimitive_iff.1 h)

lemma not_isPrimitive_of_long {x : Char} (hx : ¬IsShort x) : isPrimitive x = false :=
  Bool.eq_false_iff.2 fun h => hx (isShort_of_isPrimitive h)

lemma Follows.primitiveOr {reference' : ByteReader.Reader (List ClassName)}
    {reference : Parser (List ClassName)} (hc : c.In s)
    (h : Follows s c reference' reference) :
    Follows s c (ByteReader.primitiveOr reference') (primitiveOr reference) := by
  refine follows_peek hc (fun x hx => ?_) fun o ho => ?_
  · show (if isPrimitive x = true then _ else _) = _
    rw [not_isPrimitive_of_long hx]
    rfl
  · cases o with
    | none => exact h
    | some x =>
      simp only
      split_ifs with hprimitive
      · have hshort := isShort_of_isPrimitive hprimitive
        exact follows_bumpThen hc hshort (ho x rfl hshort) fun _ _ => follows_pure _
      · exact h

lemma Follows.optionalArguments {arguments' : ByteReader.Reader (List ClassName)} {budget : Nat}
    (hc : c.In s) (h : ∀ {m}, c.rest = '<' :: m.rest → m.In s →
      Follows s m arguments' (typeArguments budget)) :
    Follows s c (ByteReader.optionalArguments arguments') (optionalArguments budget) := by
  refine follows_peek hc (fun x hx => ?_) fun o ho => ?_
  · split <;> simp_all [IsShort]
  split_ifs
  · refine follows_expectThen hc (by decide) fun hrest hm => follows_peek hm (fun x hx => ?_)
      fun o ho => ?_
    · split <;> simp_all [IsShort]
    · split_ifs
      · exact follows_fail _
      · exact h hrest hm
  · exact follows_pure _

mutual

theorem follows_referenceType : ∀ (budget budget' : Nat) {c : Cursor}, c.In s →
    c.rest.length < budget → c.rest.length < budget' →
      Follows s c (ByteReader.referenceType budget') (referenceType budget)
  | budget + 1, budget' + 1, c, hc, h, h' => by
    rw [referenceType, ByteReader.referenceType]
    refine follows_peek hc (fun x hx => ?_) fun o ho => ?_
    · split <;> simp_all [IsShort]
    -- both distinguish the same cases: `split` settles one reader, `simp only` the other
    split <;> try simp only
    · refine follows_expectThen hc (by decide) fun {n} hn hin =>
        (follows_identifier (by decide) hin).bind (advances_identifier _) hin
          fun {name k} hyields hk => ?_
      obtain ⟨hname, hne, -⟩ := hyields.identifier
      have hlength := List.length_pos_iff.2 hne
      rw [hn, hname, List.length_cons, List.length_append] at h h'
      exact follows_classTail budget budget' name hk (by omega) (by omega)
    · exact (follows_typeVariable hc).map advances_typeVariable hc _
    · refine follows_bumpThen hc (by decide) (ho _ rfl (by decide)) fun hm hin => ?_
      rw [hm, List.length_cons] at h h'
      exact (follows_referenceType budget budget' hin (by omega) (by omega)).primitiveOr hin
    · exact follows_fail _
    · exact follows_fail _

theorem follows_classTail : ∀ (budget budget' : Nat) (name : List Char) {c : Cursor}, c.In s →
    c.rest.length + 1 < budget → c.rest.length + 1 < budget' →
      Follows s c (ByteReader.classTail budget' name) (classTail budget name)
  | budget + 1, budget' + 1, name, c, hc, h, h' => by
    rw [classTail_succ, ByteReader.classTail]
    refine Follows.bind (advances_typeArguments budget).optionalArguments hc
      (Follows.optionalArguments hc fun {m} hm hin => ?_) fun {arguments n} hyields hn => ?_
    · rw [hm, List.length_cons] at h h'
      exact follows_typeArguments budget budget' hin (by omega) (by omega)
    obtain ⟨_, hrest, -⟩ := hyields.optionalArguments exists_arguments
    rw [hrest, List.length_append] at h h'
    refine follows_peek hn (fun x hx => ?_) fun o ho => ?_
    · split <;> simp_all [IsShort]
    split <;> try simp only
    · refine follows_bumpThen hn (by decide) (ho _ rfl (by decide)) fun hk hin =>
        (follows_identifier (by decide) hin).bind (advances_identifier _) hin
          fun {inner l} hyields hl => ?_
      obtain ⟨hname, hne, -⟩ := hyields.identifier
      have hlength := List.length_pos_iff.2 hne
      rw [hk, hname, List.length_cons, List.length_append] at h h'
      exact (follows_classTail budget budget' _ hl (by omega) (by omega)).map
        (advances_classTail budget _) hl _
    · exact (follows_expect hn (by decide)).map (advances_expect ';') hn _

theorem follows_typeArguments : ∀ (budget budget' : Nat) {c : Cursor}, c.In s →
    c.rest.length + 1 < budget → c.rest.length + 1 < budget' →
      Follows s c (ByteReader.typeArguments budget') (typeArguments budget)
  | budget + 1, budget' + 1, c, hc, h, h' => by
    have htyped : ∀ {n : Cursor}, n.In s → n.rest.length ≤ c.rest.length →
        Follows s n (do
            let found ← ByteReader.referenceType budget'
            let more ← ByteReader.typeArguments budget'
            return found ++ more)
          (do
            let found ← referenceType budget
            let more ← typeArguments budget
            return found ++ more) := by
      intro n hn hle
      refine Follows.append (advances_referenceType budget) (advances_typeArguments budget) hn
        (follows_referenceType budget budget' hn (by omega) (by omega)) fun hyields hm => ?_
      have hlength := length_lt_of_yields_referenceType hyields
      exact follows_typeArguments budget budget' hm (by omega) (by omega)
    have hshorter : ∀ {x : Char} {n : Cursor}, c.rest = x :: n.rest →
        n.rest.length < c.rest.length := by
      intro x n hn
      rw [hn]
      exact Nat.lt_succ_self _
    rw [typeArguments, ByteReader.typeArguments]
    refine follows_peek hc (fun x hx => ?_) fun o ho => ?_
    · split <;> simp_all [IsShort]
    split <;> try simp only
    · exact (follows_expect hc (by decide)).map (advances_expect '>') hc _
    · refine follows_bumpThen hc (by decide) (ho _ rfl (by decide)) fun hm hin => ?_
      have hlength := hshorter hm
      exact follows_typeArguments budget budget' hin (by omega) (by omega)
    · exact follows_bumpThen hc (by decide) (ho _ rfl (by decide)) fun hm hin =>
        htyped hin (hshorter hm).le
    · exact follows_bumpThen hc (by decide) (ho _ rfl (by decide)) fun hm hin =>
        htyped hin (hshorter hm).le
    · exact follows_fail _
    · exact htyped hc le_rfl

end

lemma follows_oneReference (hc : c.In s) : Follows s c ByteReader.oneReference oneReference :=
  .withBudget hc fun budget budget' => follows_referenceType budget budget' hc

lemma follows_oneType (hc : c.In s) : Follows s c ByteReader.oneType oneType :=
  .withBudget hc fun budget budget' h h' =>
    (follows_referenceType budget budget' hc h h').primitiveOr hc

/-! ### Type parameters -/

theorem follows_interfaceBounds : ∀ (budget budget' : Nat) {c : Cursor}, c.In s →
    c.rest.length < budget → c.rest.length < budget' →
      Follows s c (ByteReader.interfaceBounds budget') (interfaceBounds budget)
  | budget + 1, budget' + 1, c, hc, h, h' => by
    refine follows_peek hc (fun x hx => ?_) fun o ho => ?_
    · split <;> simp_all [IsShort]
    split <;> try simp only
    · refine follows_bumpThen hc (by decide) (ho _ rfl (by decide)) fun hm hin =>
        Follows.append advances_oneReference (advances_interfaceBounds budget) hin
          (follows_oneReference hin) fun hyields hn => ?_
      have hlength := length_lt_of_yields_referenceType hyields.withBudget
      rw [hm, List.length_cons] at h h'
      exact follows_interfaceBounds budget budget' hn (by omega) (by omega)
    · exact follows_pure _

lemma follows_classBound (hc : c.In s) : Follows s c ByteReader.classBound classBound := by
  refine follows_peek hc (fun x hx => ?_) fun o ho => ?_
  · split <;> simp_all [IsShort]
  split <;> try simp only
  · exact follows_oneReference hc
  · exact follows_oneReference hc
  · exact follows_oneReference hc
  · exact follows_pure _

theorem follows_typeParameters : ∀ (budget budget' : Nat) {c : Cursor}, c.In s →
    c.rest.length < budget → c.rest.length < budget' →
      Follows s c (ByteReader.typeParameters budget') (typeParameters budget)
  | budget + 1, budget' + 1, c, hc, h, h' => by
    have hbounds : Advances (withBudget interfaceBounds) := .withBudget advances_interfaceBounds
    refine follows_peek hc (fun x hx => ?_) fun o ho => ?_
    · split <;> simp_all [IsShort]
    split <;> try simp only
    · exact (follows_expect hc (by decide)).map (advances_expect '>') hc _
    · refine (follows_identifier (by decide) hc).bind (advances_identifier _) hc
        fun {name m} hyields hm => follows_expectThen hm (by decide) fun {n} hn hin =>
          (follows_classBound hin).bind advances_classBound hin fun {bound k} hbound hk =>
            Follows.bind hbounds hk (.withBudget hk fun _ _ => follows_interfaceBounds _ _ hk)
              fun {bounds l} hbounds hl => follows_peek hl (fun x hx => ?_) fun o ho => ?_
      · split <;> simp_all [IsShort]
      obtain ⟨hname, -, -⟩ := hyields.identifier
      obtain ⟨_, hclass, -⟩ := exists_classBound hbound
      obtain ⟨_, hinterfaces, -⟩ := exists_interfaceBounds hbounds.withBudget
      simp only [hname, hn, hclass, hinterfaces, List.length_append, List.length_cons] at h h'
      split <;> try simp only
      · exact follows_fail _
      · exact (follows_typeParameters budget budget' hl (by omega) (by omega)).map
          (advances_typeParameters budget) hl _

lemma follows_optionalTypeParameters (hc : c.In s) :
    Follows s c ByteReader.optionalTypeParameters optionalTypeParameters := by
  refine follows_peek hc (fun x hx => ?_) fun o ho => ?_
  · split <;> simp_all [IsShort]
  split <;> try simp only
  · refine follows_expectThen hc (by decide) fun _ hm => follows_peek hm (fun x hx => ?_)
      fun o ho => ?_
    · split <;> simp_all [IsShort]
    split <;> try simp only
    · exact follows_fail _
    · exact .withBudget hm fun _ _ => follows_typeParameters _ _ hm
  · exact follows_pure _

/-! ### Methods -/

theorem follows_parameterTypes : ∀ (budget budget' : Nat) {c : Cursor}, c.In s →
    c.rest.length < budget → c.rest.length < budget' →
      Follows s c (ByteReader.parameterTypes budget') (parameterTypes budget)
  | budget + 1, budget' + 1, c, hc, h, h' => by
    refine follows_peek hc (fun x hx => ?_) fun o ho => ?_
    · split <;> simp_all [IsShort]
    split <;> try simp only
    · exact (follows_expect hc (by decide)).map (advances_expect ')') hc _
    · exact follows_fail _
    · refine Follows.append advances_oneType (advances_parameterTypes budget) hc
        (follows_oneType hc) fun hyields hm => ?_
      have hlength := length_lt_of_yields_oneType hyields
      exact follows_parameterTypes budget budget' hm (by omega) (by omega)

lemma follows_resultType (hc : c.In s) : Follows s c ByteReader.resultType resultType := by
  refine follows_peek hc (fun x hx => ?_) fun o ho => ?_
  · split <;> simp_all [IsShort]
  split <;> try simp only
  · exact follows_bumpThen hc (by decide) (ho _ rfl (by decide)) fun _ _ => follows_pure _
  · exact follows_oneType hc

lemma follows_thrownType (hc : c.In s) : Follows s c ByteReader.thrownType thrownType := by
  refine follows_peek hc (fun x hx => ?_) fun o ho => ?_
  · split <;> simp_all [IsShort]
  split <;> try simp only
  · exact follows_oneReference hc
  · exact follows_oneReference hc
  · exact follows_fail _

theorem follows_thrownTypes : ∀ (budget budget' : Nat) {c : Cursor}, c.In s →
    c.rest.length < budget → c.rest.length < budget' →
      Follows s c (ByteReader.thrownTypes budget') (thrownTypes budget)
  | budget + 1, budget' + 1, c, hc, h, h' => by
    rw [thrownTypes_succ, ByteReader.thrownTypes]
    refine follows_peek hc (fun x hx => ?_) fun o ho => ?_
    · split <;> simp_all [IsShort]
    split <;> try simp only
    · refine follows_bumpThen hc (by decide) (ho _ rfl (by decide)) fun hm hin =>
        Follows.append advances_thrownType (advances_thrownTypes budget) hin
          (follows_thrownType hin) fun hyields hn => ?_
      obtain ⟨_, hthrown, -⟩ := hyields.thrownType
      rw [hm, hthrown, List.length_cons, List.length_append] at h h'
      exact follows_thrownTypes budget budget' hn (by omega) (by omega)
    · exact follows_pure _
    · exact follows_fail _

lemma follows_methodType (hc : c.In s) : Follows s c ByteReader.methodType methodType := by
  refine follows_expectThen hc (by decide) fun _ hm => ?_
  refine Follows.bind (.withBudget advances_parameterTypes) hm
    (.withBudget hm fun _ _ => follows_parameterTypes _ _ hm) fun _ hn => ?_
  refine (follows_resultType hn).bind advances_resultType hn fun _ hk => ?_
  exact Follows.map (.withBudget advances_thrownTypes) hk
    (.withBudget hk fun _ _ => follows_thrownTypes _ _ hk) _

/-! ### Whole signatures -/

theorem follows_typesToEnd : ∀ (budget budget' : Nat) {c : Cursor}, c.In s →
    c.rest.length < budget → c.rest.length < budget' →
      Follows s c (ByteReader.typesToEnd budget') (typesToEnd budget)
  | budget + 1, budget' + 1, c, hc, h, h' => by
    refine follows_peek hc (fun x hx => ?_) fun o ho => ?_
    · split <;> simp_all [IsShort]
    split <;> try simp only
    · exact follows_pure _
    · refine Follows.append advances_oneType (advances_typesToEnd budget) hc
        (follows_oneType hc) fun hyields hm => ?_
      have hlength := length_lt_of_yields_oneType hyields
      exact follows_typesToEnd budget budget' hm (by omega) (by omega)

theorem follows_whole (hc : c.In s) : Follows s c ByteReader.whole whole := by
  refine follows_peek hc (fun x hx => ?_) fun o ho => ?_
  · split <;> simp_all [IsShort]
  split <;> try simp only
  · exact follows_fail _
  · refine (follows_optionalTypeParameters hc).bind advances_optionalTypeParameters hc
      fun _ hm => follows_peek hm (fun x hx => ?_) fun o ho => ?_
    · split <;> simp_all [IsShort]
    split <;> try simp only
    · exact (follows_methodType hm).map advances_methodType hm _
    · exact follows_fail _
    · exact Follows.map (.withBudget advances_typesToEnd) hm
        (.withBudget hm fun _ _ => follows_typesToEnd _ _ hm) _

end Signature
end ClasspathAudit
