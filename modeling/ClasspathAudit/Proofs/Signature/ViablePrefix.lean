import Mathlib.Data.List.Basic
import ClasspathAudit.Proofs.Signature.Progress

/-
# A refused signature is viable up to the refusal

Where a reader refuses a text, what it has passed over by then starts a text that it reads. For each
reader the texts are those of the grammar, and the start is completed by the shortest means: a name
by a letter, a list that was opened by an element, everything open by what closes it.

A type parameter needs more. Whether it has a class bound goes by what follows it, so the completion
must not start a reference type where nothing of the next parameter has been read.
-/
namespace ClasspathAudit
namespace Signature

variable {α β : Type} {V V' : List Char → Prop} {c m : Cursor}

/-! ### Places of refusal -/

/-- Whether a reader that refuses the text at `c` does so behind some characters of which `V` is
true. -/
def RefusesAfter (V : List Char → Prop) (p : Parser α) (c : Cursor) : Prop :=
  ∀ e, p c = .error e → ∃ w m, c.Over w m ∧ e.position = m.position ∧ V w

lemma RefusesAfter.mono_of_prefix {p : Parser α} (h : RefusesAfter V p c)
    (hV : ∀ w, w <+: c.rest → V w → V' w) : RefusesAfter V' p c := by
  intro e he
  obtain ⟨w, m, hover, hposition, hw⟩ := h e he
  exact ⟨w, m, hover, hposition, hV w ⟨m.rest, hover.rest.symm⟩ hw⟩

lemma RefusesAfter.mono {p : Parser α} (h : RefusesAfter V p c) (hV : ∀ w, V w → V' w) :
    RefusesAfter V' p c :=
  h.mono_of_prefix fun w _ => hV w

lemma refusesAfter_pure (a : α) : RefusesAfter V (pure a : Parser α) c := by
  rintro e ⟨⟩

lemma refusesAfter_fail (fault : Fault) (h : V []) : RefusesAfter V (fail fault : Parser α) c := by
  rintro e ⟨⟩
  exact ⟨[], c, c.over_self, rfl, h⟩

lemma RefusesAfter.bind {p : Parser α} {next : α → Parser β} (hp : Advances p)
    (h : RefusesAfter V p c)
    (hnext : ∀ {a m front}, Yields p c a m → c.rest = front ++ m.rest →
      RefusesAfter (fun w => V (front ++ w)) (next a) m) :
    RefusesAfter V (p >>= next) c := by
  intro e he
  rcases cases_of_bind_eq_error he with he | ⟨a, m, hyields, he⟩
  · exact h e he
  · obtain ⟨front, hover⟩ := hp.yields hyields
    obtain ⟨w, n, hover', hposition, hw⟩ := hnext hyields hover.rest e he
    exact ⟨front ++ w, n, hover.trans hover', hposition, hw⟩

lemma RefusesAfter.map {p : Parser α} (hp : Advances p) (h : RefusesAfter V p c) (f : α → β) :
    RefusesAfter V (do let a ← p; return f a) c :=
  h.bind hp fun _ _ => refusesAfter_pure _

lemma refusesAfter_peek {next : Option Char → Parser β}
    (h : RefusesAfter V (next c.rest.head?) c) : RefusesAfter V (peek >>= next) c :=
  h

lemma refusesAfter_bump : RefusesAfter V bump c := by
  intro e he
  rw [bump] at he
  split at he <;> cases he

lemma refusesAfter_bumpThen {x : Char} {next : Unit → Parser β} (hx : c.rest.head? = some x)
    (h : ∀ {m}, c.rest = x :: m.rest → RefusesAfter (fun w => V (x :: w)) (next ()) m) :
    RefusesAfter V (bump >>= next) c := by
  refine refusesAfter_bump.bind advances_bump fun {_ m front} hyields hfront => ?_
  obtain ⟨rest, hrest⟩ := List.head?_eq_some_iff.1 hx
  rw [Yields, bump, hrest] at hyields
  cases hyields
  obtain rfl : [x] = front := List.append_cancel_right (hrest.symm.trans hfront)
  exact h hrest

lemma refusesAfter_expect {x : Char} (h : V []) : RefusesAfter V (expect x) c := by
  intro e he
  refine ⟨[], c, c.over_self, ?_, h⟩
  rw [expect] at he
  split at he
  · cases he
    rfl
  · split at he <;> cases he
    rfl

lemma refusesAfter_expectThen {x : Char} {next : Unit → Parser β} (hV : V [])
    (h : ∀ {m}, RefusesAfter (fun w => V (x :: w)) (next ()) m) :
    RefusesAfter V (expect x >>= next) c := by
  refine (refusesAfter_expect hV).bind (advances_expect x) fun {_ m front} hyields hfront => ?_
  obtain rfl : [x] = front := List.append_cancel_right (hyields.expect.symm.trans hfront)
  exact h

/-- An identifier is refused behind characters that it may hold. -/
lemma refusesAfter_identifier {ends : List Char}
    (h : ∀ w, (∀ x ∈ w, x ∉ ends ∧ isReserved x = false) → V w) :
    RefusesAfter V (identifier ends) c := by
  intro e he
  refine ⟨_, _, over_afterName ends c, (place_identifier ends c).2 e he, h _ fun x hx => ?_⟩
  simpa [passes] using List.mem_takeWhile_imp hx

lemma RefusesAfter.append {p q : Parser (List ClassName)} (hp : Advances p) (hq : Advances q)
    (h : RefusesAfter V p c)
    (h' : ∀ {names m front}, Yields p c names m → c.rest = front ++ m.rest →
      RefusesAfter (fun w => V (front ++ w)) q m) :
    RefusesAfter V (do let found ← p; let more ← q; return found ++ more) c :=
  h.bind hp fun hyields hfront => (h' hyields hfront).map hq _

lemma RefusesAfter.withBudget {reader : Nat → Parser α}
    (h : ∀ budget, RefusesAfter V (reader budget) c) : RefusesAfter V (withBudget reader) c :=
  h _

/-! ### Names -/

/-- Characters that may stand in a name become one with a letter behind them. -/
lemma Identifier.exists_append_letter {w : List Char} (h : ∀ x ∈ w, isReserved x = false) :
    ∃ n : Identifier, n.chars = w ++ ['a'] := by
  refine ⟨⟨w ++ ['a'], by simp, fun x hx => ?_⟩, rfl⟩
  rcases List.mem_append.1 hx with hx | hx
  · exact h x hx
  · rw [List.mem_singleton.1 hx]
    decide

lemma SegmentName.exists_prefix {w : List Char}
    (h : ∀ x ∈ w, x ∉ segmentEnds ∧ isReserved x = false) : ∃ n : SegmentName, w <+: n.chars := by
  obtain ⟨n, hn⟩ := Identifier.exists_append_letter fun x hx => (h x hx).2
  refine ⟨⟨n, fun hdot => ?_⟩, by simp [hn]⟩
  rw [hn, List.mem_append] at hdot
  rcases hdot with hdot | hdot
  · exact (h '.' hdot).1 (by decide)
  · exact absurd hdot (by decide)

/-- The type variable called `a`, which serves where any reference type does. -/
def someVariable : Identifier :=
  ⟨['a'], by decide, List.forall_iff_forall_mem.1 (by decide)⟩

/-! ### Types -/

lemma refusesAfter_typeVariable :
    RefusesAfter (fun w => ∃ name : Identifier, w <+: 'T' :: (name.chars ++ [';'])) typeVariable
      c := by
  refine refusesAfter_expectThen ⟨someVariable, List.nil_prefix⟩ ?_
  refine RefusesAfter.bind (advances_identifier _) (refusesAfter_identifier fun w hw => ?_)
    fun hyields hfront => refusesAfter_expect ?_
  · obtain ⟨name, hname⟩ := Identifier.exists_append_letter fun x hx => (hw x hx).2
    exact ⟨name, by simp [hname]⟩
  · obtain ⟨name, -, hname⟩ := hyields.name
    obtain rfl := List.append_cancel_right (hfront.symm.trans hname)
    exact ⟨name, by simp⟩

lemma refusesAfter_primitiveOr {reference : Parser (List ClassName)}
    (h : RefusesAfter (fun w => ∃ r : Reference, w <+: r.print) reference c) :
    RefusesAfter (fun w => ∃ t : JavaType, w <+: t.print) (primitiveOr reference) c := by
  have hreference : RefusesAfter (fun w => ∃ t : JavaType, w <+: t.print) reference c :=
    h.mono fun w ⟨r, hr⟩ => ⟨.reference r, by rwa [JavaType.print]⟩
  refine refusesAfter_peek ?_
  split
  · split_ifs
    · exact refusesAfter_bump.map advances_bump _
    · exact hreference
  · exact hreference

lemma RefusesAfter.optionalArguments {budget : Nat}
    (h : ∀ {c}, RefusesAfter (fun w => ∃ arguments, arguments ≠ [] ∧
      w <+: printArguments arguments ++ ['>']) (typeArguments budget) c) :
    RefusesAfter (fun w => ∃ arguments, w <+: printOptional arguments)
      (optionalArguments budget) c := by
  refine refusesAfter_peek ?_
  split_ifs
  · refine refusesAfter_expectThen ⟨[], List.nil_prefix⟩ (refusesAfter_peek ?_)
    have hargument : ∃ arguments, ['<'] <+: printOptional arguments :=
      ⟨[.any], by simp [printOptional]⟩
    split_ifs
    · exact refusesAfter_fail _ hargument
    · refine h.mono fun w hw => ?_
      obtain ⟨arguments, hne, hw⟩ := hw
      exact ⟨arguments, by simpa [printOptional, hne] using hw⟩
  · exact refusesAfter_pure _

mutual

theorem refusesAfter_referenceType : ∀ (budget : Nat) {c : Cursor},
    RefusesAfter (fun w => ∃ r : Reference, w <+: r.print) (referenceType budget) c
  | 0, c => by
    rw [referenceType]
    exact refusesAfter_fail _ ⟨.typeVariable someVariable, List.nil_prefix⟩
  | budget + 1, c => by
    have hnil : ∃ r : Reference, [] <+: r.print :=
      ⟨.typeVariable someVariable, List.nil_prefix⟩
    rw [referenceType]
    refine refusesAfter_peek ?_
    split
    · refine refusesAfter_expectThen hnil ?_
      refine RefusesAfter.bind (advances_identifier _) (refusesAfter_identifier fun w hw => ?_)
        fun hyields hfront => (refusesAfter_classTail budget _).mono ?_
      · obtain ⟨name, hname⟩ := SegmentName.exists_prefix hw
        refine ⟨.classType (.mk name []) [], ?_⟩
        rw [Reference.print, Segment.print_eq, List.append_assoc]
        simpa using hname.trans (List.prefix_append _ _)
      · obtain ⟨name, -, hname⟩ := hyields.segmentName
        obtain rfl := List.append_cancel_right (hfront.symm.trans hname)
        rintro w ⟨arguments, inner, hw⟩
        refine ⟨.classType (.mk name arguments) inner, ?_⟩
        rw [Reference.print, Segment.print_eq, List.append_assoc]
        simpa using hw
    · refine RefusesAfter.map advances_typeVariable ?_ _
      refine refusesAfter_typeVariable.mono fun w ⟨name, hw⟩ => ⟨.typeVariable name, ?_⟩
      rwa [Reference.print]
    · rename_i hbracket
      refine refusesAfter_bumpThen hbracket fun _ => ?_
      refine (refusesAfter_primitiveOr (refusesAfter_referenceType budget)).mono ?_
      rintro w ⟨t, hw⟩
      exact ⟨.array t, by simpa [Reference.print] using hw⟩
    · exact refusesAfter_fail _ hnil
    · exact refusesAfter_fail _ hnil

theorem refusesAfter_classTail : ∀ (budget : Nat) (name : List Char) {c : Cursor},
    RefusesAfter (fun w => ∃ arguments inner,
      w <+: printOptional arguments ++ (printInner inner ++ [';'])) (classTail budget name) c
  | 0, name, c => by
    rw [classTail]
    exact refusesAfter_fail _ ⟨[], [], List.nil_prefix⟩
  | budget + 1, name, c => by
    rw [classTail_succ]
    refine RefusesAfter.bind (advances_typeArguments budget).optionalArguments
      ((RefusesAfter.optionalArguments (refusesAfter_typeArguments budget)).mono ?_)
      fun hyields hfront => ?_
    · rintro w ⟨arguments, hw⟩
      exact ⟨arguments, [], hw.trans (List.prefix_append _ _)⟩
    obtain ⟨arguments, hrest, -⟩ := hyields.optionalArguments exists_arguments
    obtain rfl := List.append_cancel_right (hfront.symm.trans hrest)
    refine refusesAfter_peek ?_
    split
    · rename_i hdot
      refine refusesAfter_bumpThen hdot fun _ => ?_
      refine RefusesAfter.bind (advances_identifier _) (refusesAfter_identifier fun w hw => ?_)
        fun hyields hfront => RefusesAfter.map (advances_classTail budget _)
          ((refusesAfter_classTail budget _).mono ?_) _
      · obtain ⟨inner, hinner⟩ := SegmentName.exists_prefix hw
        refine ⟨arguments, [.mk inner []], ?_⟩
        rw [List.prefix_append_right_inj, printInner, Segment.print_eq, List.cons_append,
          List.cons_prefix_cons, List.append_assoc, List.append_assoc]
        exact ⟨rfl, hinner.trans (List.prefix_append _ _)⟩
      · obtain ⟨inner, -, hname⟩ := hyields.segmentName
        obtain rfl := List.append_cancel_right (hfront.symm.trans hname)
        rintro w ⟨arguments', segments, hw⟩
        refine ⟨arguments, .mk inner arguments' :: segments, ?_⟩
        simpa [printInner, Segment.print_eq] using hw
    · refine RefusesAfter.map (advances_expect ';') (refusesAfter_expect ?_) _
      exact ⟨arguments, [], List.prefix_append_right_inj _ |>.2 List.nil_prefix⟩

theorem refusesAfter_typeArguments : ∀ (budget : Nat) {c : Cursor},
    RefusesAfter (fun w => ∃ arguments, arguments ≠ [] ∧
      w <+: printArguments arguments ++ ['>']) (typeArguments budget) c
  | 0, c => by
    rw [typeArguments]
    exact refusesAfter_fail _ ⟨[.any], by simp, List.nil_prefix⟩
  | budget + 1, c => by
    have hnil : ∃ arguments, arguments ≠ [] ∧ [] <+: printArguments arguments ++ ['>'] :=
      ⟨[.any], by simp, List.nil_prefix⟩
    have htyped : ∀ (wildcard : Option Wildcard) {c : Cursor},
        RefusesAfter (fun w => ∃ arguments, arguments ≠ [] ∧
          (wildcard.map Wildcard.char).toList ++ w <+: printArguments arguments ++ ['>']) (do
            let found ← referenceType budget
            let more ← typeArguments budget
            return found ++ more) c := by
      intro wildcard c
      refine RefusesAfter.append (advances_referenceType budget) (advances_typeArguments budget)
        ((refusesAfter_referenceType budget).mono ?_) fun hyields hfront =>
          (refusesAfter_typeArguments budget).mono ?_
      · rintro w ⟨r, hw⟩
        refine ⟨[.type wildcard r], by simp, ?_⟩
        simpa [printArguments, Argument.print] using hw.trans (List.prefix_append _ _)
      · obtain ⟨r, hr, -⟩ := exists_reference hyields
        obtain rfl := List.append_cancel_right (hfront.symm.trans hr)
        rintro w ⟨arguments, -, hw⟩
        refine ⟨.type wildcard r :: arguments, by simp, ?_⟩
        simpa [printArguments, Argument.print] using hw
    rw [typeArguments]
    refine refusesAfter_peek ?_
    split
    · exact (refusesAfter_expect hnil).map (advances_expect '>') _
    · rename_i hany
      refine refusesAfter_bumpThen hany fun _ => (refusesAfter_typeArguments budget).mono ?_
      rintro w ⟨arguments, -, hw⟩
      refine ⟨.any :: arguments, by simp, ?_⟩
      simpa [printArguments, Argument.print] using hw
    · rename_i hextends
      exact refusesAfter_bumpThen hextends fun _ => htyped (some .extends)
    · rename_i hsuper
      exact refusesAfter_bumpThen hsuper fun _ => htyped (some .super)
    · exact refusesAfter_fail _ hnil
    · exact htyped none

end

lemma refusesAfter_oneReference :
    RefusesAfter (fun w => ∃ r : Reference, w <+: r.print) oneReference c :=
  .withBudget fun budget => refusesAfter_referenceType budget

lemma refusesAfter_oneType : RefusesAfter (fun w => ∃ t : JavaType, w <+: t.print) oneType c :=
  .withBudget fun budget => refusesAfter_primitiveOr (refusesAfter_referenceType budget)

/-! ### Type parameters -/

lemma refusesAfter_interfaceBounds (budget : Nat) :
    RefusesAfter (fun w => ∃ bounds : List Reference,
      w <+: bounds.flatMap TypeParameter.printBound) (interfaceBounds budget) c := by
  induction budget generalizing c with
  | zero => exact refusesAfter_pure _
  | succ budget ih =>
    refine refusesAfter_peek ?_
    split
    · rename_i hcolon
      refine refusesAfter_bumpThen hcolon fun _ => ?_
      refine RefusesAfter.append advances_oneReference (advances_interfaceBounds budget)
        (refusesAfter_oneReference.mono ?_) fun hyields hfront => ih.mono ?_
      · rintro w ⟨r, hw⟩
        exact ⟨[r], by simpa [TypeParameter.printBound] using hw⟩
      · obtain ⟨r, hr, -⟩ := hyields.oneReference
        obtain rfl := List.append_cancel_right (hfront.symm.trans hr)
        rintro w ⟨bounds, hw⟩
        exact ⟨r :: bounds, by simpa [TypeParameter.printBound] using hw⟩
    · exact refusesAfter_pure _

lemma refusesAfter_classBound :
    RefusesAfter (fun w => ∃ r : Reference, w <+: r.print) classBound c := by
  refine refusesAfter_peek ?_
  split
  · exact refusesAfter_oneReference
  · exact refusesAfter_oneReference
  · exact refusesAfter_oneReference
  · exact refusesAfter_pure _

namespace TypeParameter

/-- A type parameter takes a class bound if it has one, and has none if it goes on with an interface
bound or if what follows it does not start a reference type. -/
lemma takesBound {p : TypeParameter} {rest : List Char}
    (h : p.classBound = none → p.interfaceBounds = [] → startsReference rest = false) :
    p.classBound.isSome ↔ startsReference (p.printBounds ++ rest) := by
  obtain ⟨name, bound, bounds⟩ := p
  cases bound with
  | some r =>
    obtain ⟨x, w, hr, hx⟩ := r.print_eq_cons
    simpa [printBounds, hr, startsReference_iff] using hx
  | none =>
    cases bounds with
    | nil => simpa [printBounds] using h rfl rfl
    | cons r bounds => simp [printBounds, printBound, startsReference]

/-- The starts of one or more type parameters with the `>` behind them. An empty one is completed so
that no reference type starts. -/
def Start (w : List Char) : Prop :=
  ∃ parameters, parameters ≠ [] ∧ TakeBounds parameters ∧ w <+: printAll parameters ++ ['>'] ∧
    (w = [] → startsReference (printAll parameters ++ ['>']) = false)

/-- A single type parameter that is read as far as `w` of its text. -/
lemma start_of_prefix {p : TypeParameter} {w : List Char} (hw : w <+: p.print ++ ['>'])
    (hne : w ≠ []) : Start w := by
  refine ⟨[p], by simp, ⟨takesBound fun _ _ => rfl, trivial⟩, ?_, fun h => absurd h hne⟩
  simpa [printAll] using hw

/-- A name that is read as far as `w` becomes a type parameter without bounds. -/
lemma start_of_name {w : List Char} (h : ∀ x ∈ w, isReserved x = false) : Start w := by
  obtain ⟨name, hname⟩ := Identifier.exists_append_letter h
  refine ⟨[⟨name, none, []⟩], by simp, ⟨takesBound fun _ _ => rfl, trivial⟩, ?_, ?_⟩
  · simp [printAll, print, hname]
  · rintro rfl
    simp [printAll, print, hname, startsReference]

/-- A type parameter whose bounds are read as far as `w` of their text. -/
lemma start_of_bounds (name : Identifier) (bound : Option Reference) (bounds : List Reference)
    {w : List Char} (hw : w <+: printBounds ⟨name, bound, bounds⟩) :
    Start (name.chars ++ ':' :: w) := by
  refine start_of_prefix (p := ⟨name, bound, bounds⟩) ?_ (by simp)
  simpa [print] using hw.trans (List.prefix_append _ _)

/-- Behind a type parameter that was read, further ones may be started. -/
lemma Start.cons {p : TypeParameter} {w : List Char} (h : Start w)
    (hbound : p.classBound = none → p.interfaceBounds = [] → w ≠ [] → startsReference w = false) :
    Start (p.print ++ w) := by
  obtain ⟨parameters, -, htake, hw, hnil⟩ := h
  refine ⟨p :: parameters, by simp, ⟨takesBound fun hnone hempty => ?_, htake⟩, ?_, fun hp => ?_⟩
  · cases w with
    | nil => exact hnil rfl
    | cons x w =>
      obtain ⟨rest, hrest⟩ := hw
      rw [← hrest]
      exact hbound hnone hempty (by simp)
  · simpa [printAll] using hw
  · simp [print] at hp

/-- The next type parameters are refused behind a start of theirs, with the one before in front. If
that has no bounds, no reference type starts behind it, because it would have been its class
bound. -/
lemma refusesAfter_next {p : TypeParameter} {next : Parser (List ClassName)}
    (h : RefusesAfter Start next c)
    (hbound : p.classBound = none → p.interfaceBounds = [] → ¬startsReference c.rest = true) :
    RefusesAfter (fun w => Start (p.print ++ w)) next c := by
  refine h.mono_of_prefix fun w hw hstart => hstart.cons fun hnone hempty hne => ?_
  have hnot := hbound hnone hempty
  obtain ⟨x, w, rfl⟩ := List.exists_cons_of_ne_nil hne
  obtain ⟨tail, htail⟩ := hw
  rw [← htail] at hnot
  exact Bool.eq_false_iff.2 hnot

theorem refusesAfter_typeParameters (budget : Nat) :
    RefusesAfter Start (typeParameters budget) c := by
  have hnil : Start [] := start_of_name (by simp)
  induction budget generalizing c with
  | zero => exact refusesAfter_fail _ hnil
  | succ budget ih =>
    have hbounds : Advances (withBudget Signature.interfaceBounds) :=
      .withBudget advances_interfaceBounds
    refine refusesAfter_peek ?_
    split
    · exact (refusesAfter_expect hnil).map (advances_expect '>') _
    · refine RefusesAfter.bind (advances_identifier _) (refusesAfter_identifier fun w hw => ?_)
        fun hyields hfront => ?_
      · exact start_of_name fun x hx => (hw x hx).2
      obtain ⟨name, -, hname⟩ := hyields.name
      obtain rfl := List.append_cancel_right (hfront.symm.trans hname)
      refine refusesAfter_expectThen ?_ fun {m} => ?_
      · exact start_of_name (by simpa using name.unreserved)
      refine RefusesAfter.bind advances_classBound (refusesAfter_classBound.mono ?_)
        fun {found k front} hyields hfront => ?_
      · rintro w ⟨r, hw⟩
        exact start_of_bounds name (some r) [] (by simpa [printBounds] using hw)
      obtain ⟨bound, hrest, htake, -⟩ := exists_classBound hyields
      obtain rfl := List.append_cancel_right (hfront.symm.trans hrest)
      refine RefusesAfter.bind hbounds (.withBudget fun budget =>
        (refusesAfter_interfaceBounds budget).mono ?_) fun {found l front} hyields hfront => ?_
      · rintro w ⟨bounds, hw⟩
        exact start_of_bounds name bound bounds (by simpa [printBounds] using hw)
      obtain ⟨bounds, hbounds, -⟩ := exists_interfaceBounds hyields.withBudget
      obtain rfl := List.append_cancel_right (hfront.symm.trans hbounds)
      refine refusesAfter_peek ?_
      split
      · refine refusesAfter_fail _ ?_
        simpa [printBounds] using start_of_bounds name bound bounds List.prefix_rfl
      · refine RefusesAfter.map (advances_typeParameters budget) ?_ _
        have hnext := @refusesAfter_next l ⟨name, bound, bounds⟩ _ ih fun hnone hempty => by
          obtain rfl : bound = none := hnone
          obtain rfl : bounds = [] := hempty
          simpa [hrest, hbounds] using htake
        exact hnext.mono fun w hw => by simpa [print, printBounds] using hw

end TypeParameter

lemma refusesAfter_optionalTypeParameters :
    RefusesAfter (fun w => ∃ parameters, TypeParameter.TakeBounds parameters ∧
      w <+: Derivation.printParameters parameters) optionalTypeParameters c := by
  have hstart : ∀ {w}, TypeParameter.Start w → ∃ parameters,
      TypeParameter.TakeBounds parameters ∧ '<' :: w <+: Derivation.printParameters parameters := by
    rintro w ⟨parameters, hne, htake, hw, -⟩
    exact ⟨parameters, htake, by simpa [Derivation.printParameters, hne] using hw⟩
  refine refusesAfter_peek ?_
  split
  · refine refusesAfter_expectThen ⟨[], trivial, List.nil_prefix⟩ (refusesAfter_peek ?_)
    split
    · exact refusesAfter_fail _ (hstart (TypeParameter.start_of_name (by simp)))
    · exact .withBudget fun budget =>
        (TypeParameter.refusesAfter_typeParameters budget).mono fun w => hstart
  · exact refusesAfter_pure _

/-! ### Methods -/

lemma refusesAfter_parameterTypes (budget : Nat) :
    RefusesAfter (fun w => ∃ parameters : List JavaType,
      w <+: parameters.flatMap JavaType.print ++ [')']) (parameterTypes budget) c := by
  induction budget generalizing c with
  | zero => exact refusesAfter_fail _ ⟨[], List.nil_prefix⟩
  | succ budget ih =>
    refine refusesAfter_peek ?_
    split
    · exact (refusesAfter_expect ⟨[], List.nil_prefix⟩).map (advances_expect ')') _
    · exact refusesAfter_fail _ ⟨[], List.nil_prefix⟩
    · refine RefusesAfter.append advances_oneType (advances_parameterTypes budget)
        (refusesAfter_oneType.mono ?_) fun hyields hfront => ih.mono ?_
      · rintro w ⟨t, hw⟩
        exact ⟨[t], by simpa using hw.trans (List.prefix_append _ _)⟩
      · obtain ⟨t, ht, -⟩ := hyields.oneType
        obtain rfl := List.append_cancel_right (hfront.symm.trans ht)
        rintro w ⟨parameters, hw⟩
        exact ⟨t :: parameters, by simpa using hw⟩

lemma refusesAfter_resultType :
    RefusesAfter (fun w => ∃ result, w <+: MethodType.printResult result) resultType c := by
  refine refusesAfter_peek ?_
  split
  · exact refusesAfter_bump.map advances_bump _
  · exact refusesAfter_oneType.mono fun w ⟨t, hw⟩ => ⟨some t, hw⟩

lemma refusesAfter_thrownType :
    RefusesAfter (fun w => ∃ t : Thrown, w <+: t.toReference.print) thrownType c := by
  have hnil : ∃ t : Thrown, [] <+: t.toReference.print :=
    ⟨.typeVariable someVariable, List.nil_prefix⟩
  have hthrown : (c.rest.head? = some 'T' ∨ c.rest.head? = some 'L') →
      RefusesAfter (fun w => ∃ t : Thrown, w <+: t.toReference.print) oneReference c := by
    refine fun hx => refusesAfter_oneReference.mono_of_prefix fun w hw ⟨r, hr⟩ => ?_
    cases r with
    | classType first inner => exact ⟨.classType first inner, hr⟩
    | typeVariable name => exact ⟨.typeVariable name, hr⟩
    | array element =>
      -- no array type starts where `w` is read, unless `w` is empty
      cases w with
      | nil => exact hnil
      | cons x w =>
        rw [Reference.print, List.cons_prefix_cons] at hr
        obtain ⟨tail, htail⟩ := hw
        simp [← htail, hr.1] at hx
  refine refusesAfter_peek ?_
  split
  · rename_i hx
    exact hthrown (.inl hx)
  · rename_i hx
    exact hthrown (.inr hx)
  · exact refusesAfter_fail _ hnil

lemma refusesAfter_thrownTypes (budget : Nat) :
    RefusesAfter (fun w => ∃ thrown : List Thrown, w <+: thrown.flatMap Thrown.print)
      (thrownTypes budget) c := by
  induction budget generalizing c with
  | zero => exact refusesAfter_pure _
  | succ budget ih =>
    rw [thrownTypes_succ]
    refine refusesAfter_peek ?_
    split
    · rename_i hcaret
      refine refusesAfter_bumpThen hcaret fun _ => ?_
      refine RefusesAfter.append advances_thrownType (advances_thrownTypes budget)
        (refusesAfter_thrownType.mono ?_) fun hyields hfront => ih.mono ?_
      · rintro w ⟨t, hw⟩
        exact ⟨[t], by simpa [Thrown.print] using hw⟩
      · obtain ⟨t, ht, -⟩ := hyields.thrownType
        obtain rfl := List.append_cancel_right (hfront.symm.trans ht)
        rintro w ⟨thrown, hw⟩
        exact ⟨t :: thrown, by simpa [Thrown.print] using hw⟩
    · exact refusesAfter_pure _
    · exact refusesAfter_fail _ ⟨[], List.nil_prefix⟩

lemma refusesAfter_methodType :
    RefusesAfter (fun w => ∃ t : MethodType, w <+: t.print) methodType c := by
  refine refusesAfter_expectThen ⟨⟨[], none, []⟩, List.nil_prefix⟩ ?_
  refine RefusesAfter.bind (.withBudget advances_parameterTypes) (.withBudget fun budget =>
    (refusesAfter_parameterTypes budget).mono ?_) fun {_ k front} hyields hfront => ?_
  · rintro w ⟨parameters, hw⟩
    refine ⟨⟨parameters, none, []⟩, ?_⟩
    simpa [MethodType.print, MethodType.printResult] using hw.trans (List.prefix_append _ ['V'])
  obtain ⟨parameters, hparameters, -⟩ := exists_parameterTypes hyields.withBudget
  rw [List.append_cons] at hparameters
  obtain rfl := List.append_cancel_right (hfront.symm.trans hparameters)
  refine RefusesAfter.bind advances_resultType (refusesAfter_resultType.mono ?_)
    fun {_ l front} hyields hfront => ?_
  · rintro w ⟨result, hw⟩
    exact ⟨⟨parameters, result, []⟩, by simpa [MethodType.print] using hw⟩
  obtain ⟨result, hresult, -⟩ := hyields.resultType
  obtain rfl := List.append_cancel_right (hfront.symm.trans hresult)
  refine RefusesAfter.map (.withBudget advances_thrownTypes) (.withBudget fun budget =>
    (refusesAfter_thrownTypes budget).mono ?_) _
  rintro w ⟨thrown, hw⟩
  exact ⟨⟨parameters, result, thrown⟩, by simpa [MethodType.print] using hw⟩

/-! ### Whole signatures -/

lemma refusesAfter_typesToEnd (budget : Nat) :
    RefusesAfter (fun w => ∃ (first : JavaType) (rest : List JavaType),
      w <+: first.print ++ rest.flatMap JavaType.print) (typesToEnd budget) c := by
  induction budget generalizing c with
  | zero => exact refusesAfter_pure _
  | succ budget ih =>
    refine refusesAfter_peek ?_
    split
    · exact refusesAfter_pure _
    · refine RefusesAfter.append advances_oneType (advances_typesToEnd budget)
        (refusesAfter_oneType.mono ?_) fun hyields hfront => ih.mono ?_
      · rintro w ⟨t, hw⟩
        exact ⟨t, [], by simpa using hw⟩
      · obtain ⟨t, ht, -⟩ := hyields.oneType
        obtain rfl := List.append_cancel_right (hfront.symm.trans ht)
        rintro w ⟨first, rest, hw⟩
        exact ⟨t, first :: rest, by simpa using hw⟩

/-- A signature is refused behind the start of one that is derived. -/
theorem refusesAfter_whole :
    RefusesAfter (fun w => ∃ d : Derivation, ∃ text, d.Derives text ∧ w <+: text) whole c := by
  have hbody : ∀ {parameters : List TypeParameter} {w : List Char},
      TypeParameter.TakeBounds parameters → (∃ b : Body, w <+: b.print) →
      ∃ d : Derivation, ∃ text, d.Derives text ∧
        Derivation.printParameters parameters ++ w <+: text := by
    rintro parameters w htake ⟨b, hw⟩
    exact ⟨⟨parameters, b⟩, _, ⟨rfl, htake⟩, (List.prefix_append_right_inj _).2 hw⟩
  have hnil : ∃ b : Body, [] <+: b.print :=
    ⟨.types (.reference (.typeVariable someVariable)) [], List.nil_prefix⟩
  refine refusesAfter_peek ?_
  split
  · exact refusesAfter_fail _ (@hbody [] [] trivial hnil)
  · refine RefusesAfter.bind advances_optionalTypeParameters
      (refusesAfter_optionalTypeParameters.mono ?_) fun hyields hfront => refusesAfter_peek ?_
    · rintro w ⟨parameters, htake, hw⟩
      obtain ⟨d, text, hd, hprefix⟩ := hbody htake hnil
      rw [List.append_nil] at hprefix
      exact ⟨d, text, hd, hw.trans hprefix⟩
    obtain ⟨parameters, hparameters, htake, -⟩ := hyields.optionalTypeParameters
    obtain rfl := List.append_cancel_right (hfront.symm.trans hparameters)
    split
    · refine RefusesAfter.map advances_methodType (refusesAfter_methodType.mono ?_) _
      rintro w ⟨t, hw⟩
      exact hbody htake ⟨.method t, hw⟩
    · exact refusesAfter_fail _ (hbody htake hnil)
    · refine RefusesAfter.map (.withBudget advances_typesToEnd) (.withBudget fun budget =>
        (refusesAfter_typesToEnd budget).mono ?_) _
      rintro w ⟨first, rest, hw⟩
      exact hbody htake ⟨.types first rest, hw⟩

end Signature
end ClasspathAudit
