import Mathlib.Data.List.Basic
import ClasspathAudit.Text

/-
# Texts and their parts

A text that is put together from parts with a separator behind or between them is split into the
same parts again, if none of them holds the separator. Names of files, segments of class names and
lines of output are such parts.
-/
namespace ClasspathAudit
namespace Text

variable {separator : Char} {part text : List Char}

lemma splitAtChar_of_notMem (h : separator ∉ part) : splitAtChar separator part = [part] := by
  induction part with
  | nil => rfl
  | cons c part ih =>
    rw [List.mem_cons, not_or] at h
    rw [splitAtChar, if_neg (Ne.symm h.1), ih h.2]

lemma splitAtChar_append_cons (text rest : List Char) :
    splitAtChar separator (text ++ separator :: rest) =
      splitAtChar separator text ++ splitAtChar separator rest := by
  induction text with
  | nil => simp [splitAtChar]
  | cons c text ih =>
    rw [List.cons_append, splitAtChar, splitAtChar, ih]
    split
    · rfl
    · cases hparts : splitAtChar separator text with
      | nil => exact absurd hparts (splitAtChar_ne_nil separator text)
      | cons part parts => rfl

lemma splitAtChar_append (h : separator ∉ part) (text : List Char) :
    splitAtChar separator (part ++ separator :: text) = part :: splitAtChar separator text := by
  rw [splitAtChar_append_cons, splitAtChar_of_notMem h, List.singleton_append]

lemma splitOnChar_append (separator : Char) (text rest : String) :
    splitOnChar separator (text ++ String.singleton separator ++ rest) =
      splitOnChar separator text ++ splitOnChar separator rest := by
  simp only [splitOnChar, String.toList_append, String.toList_singleton, List.append_assoc,
    List.singleton_append]
  rw [splitAtChar_append_cons, List.map_append]

lemma splitOnChar_ne_nil (separator : Char) (text : String) : splitOnChar separator text ≠ [] :=
  fun h => splitAtChar_ne_nil separator text.toList (List.map_eq_nil_iff.1 h)

/-- The first part is all that stands before the first separator. -/
lemma eq_of_splitAtChar_eq_cons {first : List Char} {rest : List (List Char)}
    (h : splitAtChar separator text = first :: rest) : separator ∉ first ∧
      (text = first ∧ rest = [] ∨
        ∃ behind, text = first ++ separator :: behind ∧ splitAtChar separator behind = rest) := by
  by_cases hmem : separator ∈ text
  · obtain ⟨front, behind, rfl, hfront⟩ := List.eq_append_cons_of_mem hmem
    rw [splitAtChar_append hfront, List.cons.injEq] at h
    obtain ⟨rfl, hrest⟩ := h
    exact ⟨hfront, .inr ⟨behind, rfl, hrest⟩⟩
  · rw [splitAtChar_of_notMem hmem, List.cons.injEq] at h
    obtain ⟨rfl, rfl⟩ := h
    exact ⟨hmem, .inl ⟨rfl, rfl⟩⟩

/-- The parts hold nothing that the text does not. -/
lemma mem_of_mem_splitAtChar {c : Char} (hpart : part ∈ splitAtChar separator text)
    (hc : c ∈ part) : c ∈ text := by
  induction hparts : splitAtChar separator text generalizing text with
  | nil => exact absurd hparts (splitAtChar_ne_nil separator text)
  | cons first rest ih =>
    rw [hparts] at hpart
    obtain ⟨-, ⟨rfl, rfl⟩ | ⟨behind, rfl, rfl⟩⟩ := eq_of_splitAtChar_eq_cons hparts
    · rwa [List.mem_singleton.1 hpart] at hc
    · rw [List.mem_append, List.mem_cons]
      rcases List.mem_cons.1 hpart with rfl | hpart
      · exact .inl hc
      · exact .inr (.inr (ih hpart rfl))

lemma mem_of_mem_splitOnChar {c : Char} {part text : String}
    (hpart : part ∈ splitOnChar separator text) (hc : c ∈ part.toList) : c ∈ text.toList := by
  obtain ⟨chars, hchars, rfl⟩ := List.mem_map.1 hpart
  rw [String.toList_ofList] at hc
  exact mem_of_mem_splitAtChar hchars hc

/-- What is put behind a text comes to its last part. -/
lemma exists_splitAtChar_append (h : separator ∉ part) (text : List Char) :
    ∃ front last, splitAtChar separator text = front ++ [last] ∧
      splitAtChar separator (text ++ part) = front ++ [last ++ part] := by
  induction text with
  | nil => exact ⟨[], [], rfl, splitAtChar_of_notMem h⟩
  | cons c text ih =>
    obtain ⟨front, last, htext, hall⟩ := ih
    rw [List.cons_append, splitAtChar, splitAtChar, htext, hall]
    split
    · exact ⟨[] :: front, last, rfl, rfl⟩
    · cases front with
      | nil => exact ⟨[], c :: last, rfl, rfl⟩
      | cons first front => exact ⟨(c :: first) :: front, last, rfl, rfl⟩

/-! ### Joining parts -/

lemma splitAtChar_intercalate {parts : List (List Char)} (hne : parts ≠ [])
    (h : ∀ part ∈ parts, separator ∉ part) :
    splitAtChar separator ([separator].intercalate parts) = parts := by
  induction parts with
  | nil => exact absurd rfl hne
  | cons part parts ih =>
    rw [List.forall_mem_cons] at h
    cases parts with
    | nil => rw [List.intercalate_singleton, splitAtChar_of_notMem h.1]
    | cons next parts =>
      rw [List.intercalate_cons_cons, List.append_assoc, List.singleton_append,
        splitAtChar_append h.1, ih (List.cons_ne_nil _ _) h.2]

lemma splitOnChar_intercalate {parts : List String} (hne : parts ≠ [])
    (h : ∀ part ∈ parts, separator ∉ part.toList) :
    splitOnChar separator ((String.singleton separator).intercalate parts) = parts := by
  have hparts : ∀ part ∈ parts.map String.toList, separator ∉ part := by
    simpa only [List.forall_mem_map] using h
  rw [splitOnChar, String.toList_intercalate, String.toList_singleton,
    splitAtChar_intercalate (by simpa using hne) hparts, List.map_map]
  exact (List.map_congr_left fun _ _ => String.ofList_toList).trans (List.map_id' parts)

/-- A text is told by its parts. -/
lemma splitAtChar_injective (separator : Char) : Function.Injective (splitAtChar separator) := by
  intro text text' h
  -- the induction is on the parts, the first of which both texts start with
  induction hparts : splitAtChar separator text generalizing text text' with
  | nil => exact absurd hparts (splitAtChar_ne_nil separator text)
  | cons first rest ih =>
    obtain ⟨-, ⟨rfl, rfl⟩ | ⟨behind, rfl, hbehind⟩⟩ := eq_of_splitAtChar_eq_cons hparts
    · obtain ⟨-, ⟨rfl, -⟩ | ⟨behind', -, hbehind'⟩⟩ :=
        eq_of_splitAtChar_eq_cons (h.symm.trans hparts)
      · rfl
      · exact absurd hbehind' (splitAtChar_ne_nil separator behind')
    · obtain ⟨-, ⟨-, rfl⟩ | ⟨behind', rfl, hbehind'⟩⟩ :=
        eq_of_splitAtChar_eq_cons (h.symm.trans hparts)
      · exact absurd hbehind (splitAtChar_ne_nil separator behind)
      · rw [ih (hbehind.trans hbehind'.symm) hbehind]

lemma splitOnChar_injective (separator : Char) : Function.Injective (splitOnChar separator) := by
  intro text text' h
  have hparts := (List.map_injective_iff.2 fun _ _ => String.ofList_inj.1) h
  exact String.toList_inj.1 (splitAtChar_injective separator hparts)

/-! ### The last separator -/

lemma takeWhile_reverse_append (h : separator ∉ part) (front : List Char) :
    (front ++ separator :: part).reverse.takeWhile (· != separator) = part.reverse := by
  have hpart : ∀ c ∈ part.reverse, (c != separator) = true := by
    intro c hc
    rw [bne_iff_ne]
    rintro rfl
    exact h (List.mem_reverse.1 hc)
  rw [List.reverse_append, List.reverse_cons, List.append_assoc,
    List.takeWhile_append_of_pos hpart, List.singleton_append,
    List.takeWhile_cons_of_neg (by simp), List.append_nil]

/-- A text is cut at the last separator in one way only. -/
lemma append_cons_inj_of_notMem {front front' part' : List Char} (h : separator ∉ part)
    (h' : separator ∉ part') :
    front ++ separator :: part = front' ++ separator :: part' ↔ front = front' ∧ part = part' := by
  refine ⟨fun heq => ?_, fun ⟨hfront, hpart⟩ => by rw [hfront, hpart]⟩
  have hlast := congrArg (fun text => text.reverse.takeWhile (· != separator)) heq
  simp only [takeWhile_reverse_append h, takeWhile_reverse_append h', List.reverse_inj] at hlast
  rw [hlast, List.append_cancel_right_eq] at heq
  exact ⟨heq, hlast⟩

lemma exists_eq_append_takeWhile_reverse (h : separator ∈ text) :
    ∃ front, text = front ++ separator :: (text.reverse.takeWhile (· != separator)).reverse := by
  obtain ⟨last, front, hsplit, hlast⟩ := List.eq_append_cons_of_mem (List.mem_reverse.2 h)
  have htext : text = front.reverse ++ separator :: last.reverse := by
    rw [← List.reverse_reverse text, hsplit]
    simp
  have hlast' : separator ∉ last.reverse := fun hmem => hlast (List.mem_reverse.1 hmem)
  exact ⟨front.reverse, by
    rw [htext, takeWhile_reverse_append hlast', List.reverse_reverse]⟩

/-! ### Lines -/

lemma toList_unlines_cons (line : String) (lines : List String) :
    (unlines (line :: lines)).toList = line.toList ++ '\n' :: (unlines lines).toList := by
  simp [unlines]

/-- The lines of an output are those of its lines. After the last of them there is nothing. -/
lemma splitOnChar_unlines (lines : List String) :
    splitOnChar '\n' (unlines lines) = lines.flatMap (splitOnChar '\n') ++ [""] := by
  induction lines with
  | nil => rfl
  | cons line lines ih =>
    rw [splitOnChar, toList_unlines_cons, splitAtChar_append_cons, List.map_append, ← splitOnChar,
      ← splitOnChar, ih, List.flatMap_cons, List.append_assoc]

/-- Lines of output are told apart by their ends. -/
lemma splitOnChar_unlines_of_notMem {lines : List String}
    (h : ∀ line ∈ lines, '\n' ∉ line.toList) :
    splitOnChar '\n' (unlines lines) = lines ++ [""] := by
  have hline : ∀ line ∈ lines, splitOnChar '\n' line = [line] := by
    intro line hline
    rw [splitOnChar, splitAtChar_of_notMem (h line hline), List.map_singleton, String.ofList_toList]
  rw [splitOnChar_unlines, List.flatMap_congr hline, List.flatMap_singleton']

lemma notMem_unlines {c : Char} (hc : c ≠ '\n') {lines : List String}
    (h : ∀ line ∈ lines, c ∉ line.toList) : c ∉ (unlines lines).toList := by
  induction lines with
  | nil => simp [unlines]
  | cons line lines ih =>
    rw [List.forall_mem_cons] at h
    rw [toList_unlines_cons, List.mem_append, List.mem_cons, not_or, not_or]
    exact ⟨h.1, hc, ih h.2⟩

end Text
end ClasspathAudit
