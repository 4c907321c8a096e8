import ClasspathAudit.Proofs.Signature.ByteReading
import ClasspathAudit.Proofs.Signature.Lookahead
import ClasspathAudit.Proofs.Signature.ViablePrefix

/-
# Where signatures are refused

A signature is refused at the end of its longest viable prefix: what is before the place starts some
accepted signature, and together with the next character it starts none. The place is between two
characters, as is every place at which a name is cut out.
-/
namespace ClasspathAudit
namespace Signature

/-- Whether a text starts some accepted signature. -/
def Viable (text : String) : Prop :=
  ∃ rest names, classTypes (text ++ rest) = .ok names

lemma classTypes_of_whole {s : String} {names : List ClassName} {m : Cursor}
    (h : whole ⟨s.toList, 0⟩ = .ok (names, m)) : classTypes s = .ok names := by
  rw [classTypes, readChars, StateT.run, h]
  rfl

lemma classTypes_of_whole_error {s : String} {e : Failure}
    (h : whole ⟨s.toList, 0⟩ = .error e) : classTypes s = .error ⟨e, s⟩ := by
  rw [classTypes, readChars, StateT.run, h]
  rfl

/-- Every refusal comes from the reader of whole signatures. -/
lemma whole_of_classTypes_error {s : String} {e : Error} (h : classTypes s = .error e) :
    whole ⟨s.toList, 0⟩ = .error e.toFailure := by
  cases hwhole : whole ⟨s.toList, 0⟩ with
  | error e' =>
    rw [classTypes_of_whole_error hwhole] at h
    cases h
    rfl
  | ok x =>
    rw [classTypes_of_whole hwhole] at h
    cases h

/-- What starts a derived text is viable. -/
lemma Derivation.Derives.viable {d : Derivation} {w text : List Char} (h : d.Derives text)
    (hw : w <+: text) : Viable (String.ofList w) := by
  obtain ⟨v, rfl⟩ := hw
  have hreads := Derivation.reads h 0
  rw [List.append_nil, ← String.toList_ofList (l := w ++ v), String.ofList_append] at hreads
  exact ⟨String.ofList v, d.classNames, classTypes_of_whole hreads⟩

/-- Nothing that goes on with the character before which a text is refused is viable. -/
lemma not_viable_of_whole_error {w rest : List Char} {x : Char} {fault : Fault}
    (h : whole ⟨w ++ x :: rest, 0⟩ = .error ⟨byteCount w, fault⟩) :
    ¬Viable ((String.ofList w).push x) := by
  rintro ⟨more, names, haccepted⟩
  have hrefused := @whole_refuses_alike w rest more.toList x fault h
  have htext : ((String.ofList w).push x ++ more).toList = w ++ x :: more.toList := by simp
  rw [← htext] at hrefused
  rw [classTypes_of_whole_error hrefused] at haccepted
  cases haccepted

/-- The reader of bytes gives the names that the reader of characters gives, or refuses the text
where that does. -/
lemma byteReader_classTypes_eq (s : String) :
    ByteReader.classTypes s = (classTypes s).mapError fun e => .refused e.toFailure := by
  have hfollows := follows_whole (Cursor.start_in s)
  rw [ByteReader.classTypes]
  cases hwhole : whole ⟨s.toList, 0⟩ with
  | error e =>
    rw [classTypes_of_whole_error hwhole, hfollows.refuses hwhole]
    rfl
  | ok x =>
    rw [classTypes_of_whole hwhole, @Follows.yields _ _ _ _ _ hfollows x.1 x.2 hwhole]
    rfl

/-- A refused signature is refused at the end of its longest viable prefix, which is between two of
its characters. No signature is cut inside a character, whether it is accepted or refused: the
reader of bytes comes to the same names or the same refusal. -/
theorem refused_at_longestViable (s : String) :
    (∀ e, classTypes s = .error e → ∃ before after, s = before ++ after ∧
      e.position = before.utf8ByteSize ∧ Viable before ∧
        ∀ x more, after = String.singleton x ++ more → ¬Viable (before.push x)) ∧
    ByteReader.classTypes s ≠ .error .badCut ∧
    ByteReader.classTypes s = (classTypes s).mapError fun e => .refused e.toFailure := by
  refine ⟨fun e he => ?_, fun hcut => ?_, byteReader_classTypes_eq s⟩
  · have hwhole := whole_of_classTypes_error he
    obtain ⟨w, m, hover, hposition, d, text, hd, hw⟩ := refusesAfter_whole _ hwhole
    have hplace : e.position = byteCount w := by
      rw [hposition, hover.position, Nat.zero_add]
    have hrest : s.toList = w ++ m.rest := hover.rest
    refine ⟨String.ofList w, String.ofList m.rest, ?_, ?_, hd.viable hw, ?_⟩
    · rw [← String.ofList_append, ← hrest, String.ofList_toList]
    · rw [hplace, utf8ByteSize_ofList]
    · intro x more hmore
      have hnext : m.rest = x :: more.toList := by
        have hchars := congrArg String.toList hmore
        simpa using hchars
      rw [hrest, hnext] at hwhole
      refine @not_viable_of_whole_error w more.toList x e.fault ?_
      rw [hwhole, ← hplace]
  · rw [byteReader_classTypes_eq] at hcut
    cases hnames : classTypes s <;> rw [hnames] at hcut <;> cases hcut

example : (ByteReader.classTypes "La/Ö<>;") = .error (.refused ⟨6, .emptyTypeArguments⟩) := by
  decide +kernel

end Signature
end ClasspathAudit
