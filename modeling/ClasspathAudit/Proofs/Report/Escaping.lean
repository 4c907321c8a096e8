import Mathlib.Data.List.Infix
import ClasspathAudit.Report.GitHub
import ClasspathAudit.Report.JUnit

/-
# Texts that are escaped

A report keeps characters that would end a text out of it by escapes. An escape is a mark and a code
behind it, and the mark has an escape as well, so that it stands in an escaped text for nothing
else. Since no code is the start of another, an escaped text is read in one way only; and since no
character that has an escape is in a code, each text has one escaped form. Both kinds of reports
write that form, which is `escape_exact`.

Replacing one character after the other comes to the same as replacing all of them at once if the
mark comes first; in any other order, the marks of the escapes would be escaped again.
-/
namespace ClasspathAudit
namespace Text

/-! ### Escapes -/

/-- A way of keeping characters out of texts: the mark that starts each escape, and the characters
that have one, each with the code behind the mark. -/
structure Escapes where
  /-- The mark. -/
  mark : Char
  /-- The characters and their codes. -/
  codes : List (Char × List Char)
  /-- The mark has an escape. -/
  marked : mark ∈ codes.map Prod.fst
  /-- A character has one escape. -/
  single : ∀ p ∈ codes, ∀ q ∈ codes, p.1 = q.1 → p = q
  /-- No code is the start of another. -/
  apart : ∀ p ∈ codes, ∀ q ∈ codes, p.2 <+: q.2 → p = q
  /-- No character that has an escape is in a code. -/
  clean : ∀ p ∈ codes, ∀ q ∈ codes, p.1 ∉ q.2

namespace Escapes

/-- A character as it is written with the codes behind a mark. -/
def image (mark : Char) (codes : List (Char × List Char)) (c : Char) : List Char :=
  match codes.find? (·.1 == c) with
  | some p => mark :: p.2
  | none => [c]

/-- A text as it is written. -/
def write (e : Escapes) (text : List Char) : List Char :=
  text.flatMap (image e.mark e.codes)

/-- The text for which a text stands. A mark that starts no escape stands for itself. -/
def read (e : Escapes) : List Char → List Char
  | [] => []
  | c :: rest =>
    if c = e.mark then
      match e.codes.find? (·.2.isPrefixOf rest) with
      | some p => p.1 :: e.read (rest.drop p.2.length)
      | none => c :: e.read rest
    else c :: e.read rest
termination_by text => text.length
decreasing_by all_goals simp only [List.length_cons, List.length_drop]; omega

/-- Whether no character that has an escape is left in a text, but for the mark, and each mark
starts an escape. -/
structure IsClean (e : Escapes) (text : List Char) : Prop where
  free : ∀ c ∈ e.codes.map Prod.fst, c ≠ e.mark → c ∉ text
  starts : ∀ behind, e.mark :: behind <:+ text → ∃ p ∈ e.codes, p.2 <+: behind

/-- Whether a text is an escaped form of another, for which it stands. -/
structure IsEscaped (e : Escapes) (text written : List Char) : Prop extends IsClean e written where
  read : e.read written = text

variable {e : Escapes} {mark c : Char} {codes : List (Char × List Char)} {p : Char × List Char}
  {text rest : List Char}

lemma mark_notMem (hp : p ∈ e.codes) : e.mark ∉ p.2 := by
  obtain ⟨q, hq, hmark⟩ := List.mem_map.1 e.marked
  exact hmark ▸ e.clean q hq p hp

lemma image_of_mem (hp : p ∈ e.codes) : image e.mark e.codes p.1 = e.mark :: p.2 := by
  rw [image]
  cases hfind : e.codes.find? (·.1 == p.1) with
  | none => exact absurd (List.find?_eq_none.1 hfind p hp) (by simp)
  | some q =>
    have hkey : q.1 = p.1 := by simpa using List.find?_some hfind
    rw [e.single q (List.mem_of_find?_eq_some hfind) p hp hkey]

lemma image_of_forall_ne (h : ∀ p ∈ codes, p.1 ≠ c) : image mark codes c = [c] := by
  have hfind : codes.find? (·.1 == c) = none :=
    List.find?_eq_none.2 fun p hp => by simpa using h p hp
  rw [image, hfind]

/-- A character has an escape, or it is not the mark and written as it is. -/
lemma image_cases (e : Escapes) (c : Char) :
    (∃ p ∈ e.codes, c = p.1 ∧ image e.mark e.codes c = e.mark :: p.2) ∨
      (∀ p ∈ e.codes, p.1 ≠ c) ∧ c ≠ e.mark ∧ image e.mark e.codes c = [c] := by
  by_cases h : ∃ p ∈ e.codes, p.1 = c
  · obtain ⟨p, hp, rfl⟩ := h
    exact .inl ⟨p, hp, rfl, image_of_mem hp⟩
  · have hne : ∀ p ∈ e.codes, p.1 ≠ c := fun p hp hc => h ⟨p, hp, hc⟩
    obtain ⟨q, hq, hmark⟩ := List.mem_map.1 e.marked
    exact .inr ⟨hne, fun hc => hne q hq (hmark.trans hc.symm), image_of_forall_ne hne⟩

lemma write_cons (e : Escapes) (c : Char) (text : List Char) :
    e.write (c :: text) = image e.mark e.codes c ++ e.write text :=
  List.flatMap_cons

/-! ### Reading -/

lemma read_cons_of_ne (h : c ≠ e.mark) : e.read (c :: rest) = c :: e.read rest := by
  rw [read, if_neg h]

lemma read_cons_of_not_prefix (h : ∀ p ∈ e.codes, ¬p.2 <+: rest) :
    e.read (c :: rest) = c :: e.read rest := by
  have hfind : e.codes.find? (·.2.isPrefixOf rest) = none :=
    List.find?_eq_none.2 fun p hp => by simpa using h p hp
  rw [read, hfind]
  split <;> rfl

lemma read_escape (hp : p ∈ e.codes) (rest : List Char) :
    e.read (e.mark :: (p.2 ++ rest)) = p.1 :: e.read rest := by
  have hfind : e.codes.find? (·.2.isPrefixOf (p.2 ++ rest)) = some p := by
    cases hfind : e.codes.find? (·.2.isPrefixOf (p.2 ++ rest)) with
    | none => exact absurd (List.find?_eq_none.1 hfind p hp) (by simp)
    | some q =>
      have hq := List.mem_of_find?_eq_some hfind
      have hprefix : q.2 <+: p.2 ++ rest := by simpa using List.find?_some hfind
      rcases List.prefix_or_prefix_of_prefix hprefix (List.prefix_append p.2 rest) with h | h
      · rw [e.apart q hq p hp h]
      · rw [e.apart p hp q hq h]
  rw [read, if_pos rfl, hfind]
  simp only [List.drop_left]

lemma read_write (e : Escapes) (text : List Char) : e.read (e.write text) = text := by
  induction text with
  | nil => rw [write, List.flatMap_nil, read]
  | cons c text ih =>
    rw [write_cons]
    rcases e.image_cases c with ⟨p, hp, rfl, himage⟩ | ⟨-, hmark, himage⟩
    · rw [himage, List.cons_append, read_escape hp, ih]
    · rw [himage, List.singleton_append, read_cons_of_ne hmark, ih]

/-! ### Writing -/

/-- What ends a text and starts with a character that the first part does not hold lies in the
second. -/
lemma suffix_of_suffix_append {part behind : List Char} (h : mark ∉ part)
    (hsuffix : mark :: behind <:+ part ++ rest) : mark :: behind <:+ rest := by
  induction part with
  | nil => exact hsuffix
  | cons c part ih =>
    rw [List.mem_cons, not_or] at h
    rcases List.suffix_cons_iff.1 hsuffix with heq | hsuffix
    · exact absurd (List.cons.inj heq).1 h.1
    · exact ih h.2 hsuffix

lemma notMem_write (text : List Char) (hc : c ∈ e.codes.map Prod.fst) (hmark : c ≠ e.mark) :
    c ∉ e.write text := by
  obtain ⟨p, hp, rfl⟩ := List.mem_map.1 hc
  rw [write, List.mem_flatMap]
  rintro ⟨d, -, hd⟩
  rcases e.image_cases d with ⟨q, hq, rfl, himage⟩ | ⟨hne, -, himage⟩
  · rw [himage, List.mem_cons] at hd
    exact hd.elim hmark (e.clean p hp q hq)
  · rw [himage, List.mem_singleton] at hd
    exact hne p hp hd

lemma exists_prefix_of_write {behind : List Char} (text : List Char)
    (hsuffix : e.mark :: behind <:+ e.write text) : ∃ p ∈ e.codes, p.2 <+: behind := by
  induction text with
  | nil => exact absurd (List.suffix_nil.1 hsuffix) (List.cons_ne_nil _ _)
  | cons c text ih =>
    rw [write_cons] at hsuffix
    rcases e.image_cases c with ⟨p, hp, rfl, himage⟩ | ⟨-, hmark, himage⟩
    · -- the mark is the one put in for this character, or lies behind the code
      rw [himage, List.cons_append] at hsuffix
      rcases List.suffix_cons_iff.1 hsuffix with heq | hsuffix
      · exact ⟨p, hp, (List.cons.inj heq).2 ▸ List.prefix_append _ _⟩
      · exact ih (suffix_of_suffix_append (mark_notMem hp) hsuffix)
    · rw [himage] at hsuffix
      exact ih (suffix_of_suffix_append (by simpa using hmark.symm) hsuffix)

lemma isClean_write (e : Escapes) (text : List Char) : e.IsClean (e.write text) where
  free _ hc hmark := notMem_write text hc hmark
  starts _ hsuffix := exists_prefix_of_write text hsuffix

lemma IsClean.of_suffix (h : e.IsClean text) (hrest : rest <:+ text) : e.IsClean rest where
  free c hc hmark hmem := h.free c hc hmark (hrest.subset hmem)
  starts behind hsuffix := h.starts behind (hsuffix.trans hrest)

/-- A clean text is the escaped form of what it stands for. -/
lemma IsClean.write_read (h : e.IsClean text) : e.write (e.read text) = text := by
  -- reading passes a whole escape at once, so the induction is on the length
  induction hlength : text.length using Nat.strong_induction_on generalizing text with
  | _ length ih =>
    subst hlength
    cases text with
    | nil => rw [read, write, List.flatMap_nil]
    | cons c rest =>
      by_cases hc : c = e.mark
      · subst hc
        obtain ⟨p, hp, behind, rfl⟩ := h.starts rest List.suffix_rfl
        have hbehind : e.write (e.read behind) = behind :=
          ih behind.length (by simp only [List.length_cons, List.length_append]; omega)
            (h.of_suffix ⟨e.mark :: p.2, rfl⟩) rfl
        rw [read_escape hp, write_cons, image_of_mem hp, hbehind, List.cons_append]
      · have hne : ∀ p ∈ e.codes, p.1 ≠ c := by
          rintro p hp rfl
          exact h.free p.1 (List.mem_map_of_mem hp) hc List.mem_cons_self
        have hrest : e.write (e.read rest) = rest :=
          ih rest.length (by simp) (h.of_suffix (List.suffix_cons c rest)) rfl
        rw [read_cons_of_ne hc, write_cons, image_of_forall_ne hne, hrest, List.singleton_append]

/-- Each text has one escaped form. -/
lemma isEscaped_iff {written : List Char} : e.IsEscaped text written ↔ written = e.write text := by
  constructor
  · rintro ⟨hclean, rfl⟩
    exact hclean.write_read.symm
  · rintro rfl
    exact ⟨isClean_write e text, read_write e text⟩

/-! ### One character after the other -/

/-- Replacing characters one after the other writes each as if all were replaced at once, if none
that is replaced later is in an escape that is there by then. -/
lemma foldl_replace_eq_flatMap (text : List Char)
    (h : codes.Pairwise fun p q => q.1 ∉ mark :: p.2) :
    codes.foldl (fun text p => text.flatMap fun c => if c = p.1 then mark :: p.2 else [c]) text =
      text.flatMap (image mark codes) := by
  induction codes generalizing text with
  | nil => exact (List.flatMap_singleton' text).symm
  | cons p codes ih =>
    rw [List.pairwise_cons] at h
    rw [List.foldl_cons, ih _ h.2, List.flatMap_assoc]
    refine List.flatMap_congr fun c _ => ?_
    by_cases hc : c = p.1
    · -- the escape that was put in has nothing to replace
      subst hc
      have hkept : ∀ d ∈ mark :: p.2, image mark codes d = [d] := by
        intro d hd
        refine image_of_forall_ne fun q hq hqd => h.1 q hq ?_
        rwa [hqd]
      rw [if_pos rfl, List.flatMap_congr hkept, List.flatMap_singleton', image,
        List.find?_cons_of_pos (by simp)]
    · rw [if_neg hc, List.flatMap_singleton, image, image,
        List.find?_cons_of_neg (by simpa using Ne.symm hc)]

end Escapes

-- with the mark after the end of a line, that end and the text of its escape are written alike
example : replaceChar '%' "%25" (replaceChar '\n' "%0A" "\n") =
    replaceChar '%' "%25" (replaceChar '\n' "%0A" "%0A") := by decide

lemma toList_replaceChar (c : Char) (image text : String) :
    (replaceChar c image text).toList =
      text.toList.flatMap fun d => if d = c then image.toList else [d] :=
  String.toList_ofList

end Text

/-! ### Escapes of reports -/

/-- The escapes in the data of a command. -/
def GitHubReport.escapes : Text.Escapes where
  mark := '%'
  codes := [('%', ['2', '5']), ('\r', ['0', 'D']), ('\n', ['0', 'A'])]
  marked := by decide
  single := by decide
  apart := by decide
  clean := by decide

lemma GitHubReport.toList_escape (message : String) :
    (escape message).toList = escapes.write message.toList := by
  rw [escape, Text.toList_replaceChar, Text.toList_replaceChar, Text.toList_replaceChar]
  exact Text.Escapes.foldl_replace_eq_flatMap message.toList (by decide : escapes.codes.Pairwise _)

/-- The entities that are known in every document. -/
def JUnitReport.entities : Text.Escapes where
  mark := '&'
  codes := [('&', ['a', 'm', 'p', ';']), ('<', ['l', 't', ';']), ('>', ['g', 't', ';']),
    ('"', ['q', 'u', 'o', 't', ';']), ('\'', ['a', 'p', 'o', 's', ';'])]
  marked := by decide
  single := by decide
  apart := by decide
  clean := by decide

lemma JUnitReport.toList_escape (text : String) :
    (escape text).toList = text.toList.flatMap escapeChar :=
  String.toList_ofList

lemma JUnitReport.flatMap_escapeChar (text : List Char) :
    text.flatMap escapeChar = entities.write text := by
  refine List.flatMap_congr fun c _ => ?_
  rw [escapeChar]
  split_ifs with hamp hlt hgt hquot hapos
  · subst hamp; rfl
  · subst hlt; rfl
  · subst hgt; rfl
  · subst hquot; rfl
  · subst hapos; rfl
  · refine (Text.Escapes.image_of_forall_ne ?_).symm
    simp [entities, eq_comm, *]

/-- A message is written in its only escaped form: no line ends in it, each `%` starts an escape,
and undoing the escapes gives the message. A text in a document is written in its only form in which
no `<`, no `>` and no quote is left, each `&` starts an entity, and expanding the entities gives the
text. -/
theorem escape_exact (text written : String) :
    (GitHubReport.escapes.IsEscaped text.toList written.toList ↔
      written = GitHubReport.escape text) ∧
    (JUnitReport.entities.IsEscaped text.toList written.toList ↔
      written = JUnitReport.escape text) := by
  rw [Text.Escapes.isEscaped_iff, Text.Escapes.isEscaped_iff, ← GitHubReport.toList_escape,
    ← JUnitReport.flatMap_escapeChar, ← JUnitReport.toList_escape, String.toList_inj,
    String.toList_inj]
  exact ⟨Iff.rfl, Iff.rfl⟩

end ClasspathAudit
