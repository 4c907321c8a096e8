import Mathlib.Data.List.Infix
import Mathlib.Data.List.TakeWhile
import Mathlib.Tactic.Common
import ClasspathAudit.Text

/-
# Documents in XML

What a reader of XML 1.0 makes of a text: the elements with their attributes and the texts between
them, or nothing if the text is not well-formed. The reader knows the part of the language in which
reports are written: an XML declaration, elements, attributes, and references to the five characters
that have names. It refuses what it does not know, such as comments.

A document is written as a tree whose texts stand as they are in the document. What is read back is
the tree with its texts decoded; this is `parse?_write`.
-/
namespace ClasspathAudit
namespace Xml

/-! ### Characters -/

/-- Whether a character may occur in a document. -/
def isChar (c : Char) : Bool :=
  let n := c.toNat
  n == 0x9 || n == 0xA || n == 0xD || (0x20 ≤ n && n ≤ 0xD7FF) || (0xE000 ≤ n && n ≤ 0xFFFD) ||
    0x10000 ≤ n

/-- The blank characters. -/
def isBlank (c : Char) : Bool :=
  c == ' ' || c == '\t' || c == '\n' || c == '\r'

/-- Whether a name may start with a character. -/
def isNameStart (c : Char) : Bool :=
  let n := c.toNat
  c == ':' || c == '_' || c.isAlpha || (0xC0 ≤ n && n ≤ 0xD6) || (0xD8 ≤ n && n ≤ 0xF6) ||
    (0xF8 ≤ n && n ≤ 0x2FF) || (0x370 ≤ n && n ≤ 0x37D) || (0x37F ≤ n && n ≤ 0x1FFF) ||
    (0x200C ≤ n && n ≤ 0x200D) || (0x2070 ≤ n && n ≤ 0x218F) || (0x2C00 ≤ n && n ≤ 0x2FEF) ||
    (0x3001 ≤ n && n ≤ 0xD7FF) || (0xF900 ≤ n && n ≤ 0xFDCF) || (0xFDF0 ≤ n && n ≤ 0xFFFD) ||
    (0x10000 ≤ n && n ≤ 0xEFFFF)

/-- Whether a name may go on with a character. -/
def isNameChar (c : Char) : Bool :=
  let n := c.toNat
  isNameStart c || c == '-' || c == '.' || c.isDigit || n == 0xB7 || (0x300 ≤ n && n ≤ 0x36F) ||
    (0x203F ≤ n && n ≤ 0x2040)

/-! ### Texts -/

/-- A text with its references replaced, unless it has a reference to nothing, a `<` or a character
that may not occur. -/
def decode? : List Char → Option (List Char)
  | [] => some []
  | '&' :: 'a' :: 'm' :: 'p' :: ';' :: rest => (decode? rest).map ('&' :: ·)
  | '&' :: 'l' :: 't' :: ';' :: rest => (decode? rest).map ('<' :: ·)
  | '&' :: 'g' :: 't' :: ';' :: rest => (decode? rest).map ('>' :: ·)
  | '&' :: 'q' :: 'u' :: 'o' :: 't' :: ';' :: rest => (decode? rest).map ('"' :: ·)
  | '&' :: 'a' :: 'p' :: 'o' :: 's' :: ';' :: rest => (decode? rest).map ('\'' :: ·)
  | c :: rest => if c = '&' || c = '<' || !isChar c then none else (decode? rest).map (c :: ·)

/-- A text in which every line ends with a line feed alone. -/
def lineEnds : List Char → List Char
  | '\r' :: '\n' :: rest => '\n' :: lineEnds rest
  | '\r' :: rest => '\n' :: lineEnds rest
  | c :: rest => c :: lineEnds rest
  | [] => []

/-- The text for which a text between tags stands. No reference is to the end of a line, so it makes
no difference that references are replaced first. -/
def contentText? (raw : List Char) : Option (List Char) :=
  if [']', ']', '>'] <:+: raw then none else (decode? raw).map lineEnds

/-- A text with a space in place of the end of a line and of each other blank character. -/
def spaced (text : List Char) : List Char :=
  (lineEnds text).map fun c => if isBlank c then ' ' else c

/-- The value for which a text between quotes stands. -/
def attributeValue? (raw : List Char) : Option (List Char) :=
  (decode? raw).map spaced

/-! ### Documents -/

/-- An attribute: its name and its value. -/
abbrev Attribute := List Char × List Char

/-- What stands between two tags. -/
inductive Content
  /-- A text without elements. -/
  | text (characters : List Char)
  /-- A text, the first element after it, and what stands after that. -/
  | element (before : List Char) (name : List Char) (attributes : List Attribute)
    (inner after : Content)
deriving DecidableEq

/-- An element. -/
structure Element where
  /-- Its name. -/
  name : List Char
  /-- Its attributes. -/
  attributes : List Attribute
  /-- What stands between its tags. -/
  content : Content
deriving DecidableEq

namespace Content

/-- All elements of a name, those in other elements too. -/
def elements (name : String) : Content → List Element
  | .text _ => []
  | .element _ found attributes inner after =>
    (if found = name.toList then [⟨found, attributes, inner⟩] else []) ++
      inner.elements name ++ after.elements name

/-- The text, without that in elements. -/
def ownText : Content → List Char
  | .text characters => characters
  | .element before _ _ _ after => before ++ after.ownText

end Content

/-- All elements of a name in an element. -/
def Element.elements (e : Element) (name : String) : List Element :=
  e.content.elements name

/-- The value of an attribute. -/
def Element.attribute? (e : Element) (name : String) : Option String :=
  (e.attributes.lookup name.toList).map String.ofList

/-- The text in an element, without that in elements of it. -/
def Element.text (e : Element) : String :=
  String.ofList e.content.ownText

/-! ### Reading -/

/-- Reads a name. -/
def name? : List Char → Option (List Char × List Char)
  | [] => none
  | c :: rest =>
    if isNameStart c then some (c :: rest.takeWhile isNameChar, rest.dropWhile isNameChar) else none

/-- Reads a value between quotes. -/
def quoted? : List Char → Option (List Char × List Char)
  | [] => none
  | quote :: rest =>
    if quote = '"' || quote = '\'' then
      match rest.dropWhile (· ≠ quote) with
      | [] => none
      | _ :: after => (attributeValue? (rest.takeWhile (· ≠ quote))).map (·, after)
    else none

/-- Reads an attribute. -/
def attribute? (input : List Char) : Option (Attribute × List Char) := do
  let (name, rest) ← name? input
  match rest.dropWhile isBlank with
  | '=' :: rest => do
    let (value, rest) ← quoted? (rest.dropWhile isBlank)
    return ((name, value), rest)
  | _ => none

/-- Reads the attributes of a tag, a blank before each of them, and the blanks after them. -/
def attributes? : Nat → List Char → Option (List Attribute × List Char)
  | 0, _ => none
  | budget + 1, input =>
    let rest := input.dropWhile isBlank
    if rest.head?.any isNameStart then
      if input.head?.any isBlank then do
        let (first, rest) ← attribute? rest
        let (attributes, rest) ← attributes? budget rest
        return (first :: attributes, rest)
      else none
    else some ([], rest)

/-- Reads an end tag. -/
def endTag? (name : List Char) : List Char → Option (List Char)
  | '<' :: '/' :: rest => do
    let (found, rest) ← name? rest
    match rest.dropWhile isBlank with
    | '>' :: rest => if found = name then some rest else none
    | _ => none
  | _ => none

/-- Reads what follows the attributes in an element, with `content?` for what it holds. -/
def body? (content? : List Char → Option (Content × List Char)) (name : List Char) :
    List Char → Option (Content × List Char)
  | '/' :: '>' :: rest => some (.text [], rest)
  | '>' :: rest => do
    let (inner, rest) ← content? rest
    let rest ← endTag? name rest
    return (inner, rest)
  | _ => none

/-- Reads up to the next end tag that has no start tag, or to the end. The budget bounds how deep
elements are nested and how many there are, one after the other. -/
def content? : Nat → List Char → Option (Content × List Char)
  | 0, _ => none
  | budget + 1, input => do
    let text ← contentText? (input.takeWhile (· ≠ '<'))
    match input.dropWhile (· ≠ '<') with
    | '<' :: '/' :: rest => return (.text text, '<' :: '/' :: rest)
    | '<' :: rest =>
      let (name, rest) ← name? rest
      let (attributes, rest) ← attributes? budget rest
      if (attributes.map Prod.fst).Nodup then
        let (inner, rest) ← body? (content? budget) name rest
        let (after, rest) ← content? budget rest
        return (.element text name attributes inner after, rest)
      else none
    | _ => return (.text text, [])

/-- The line with which a document starts. -/
def declaration : String := "<?xml version=\"1.0\" encoding=\"UTF-8\"?>"

/-- Reads what follows the declaration: a single element, and blanks before and after it. -/
def root? (input : List Char) : Option Element :=
  match content? (input.length + 1) input with
  | some (.element before name attributes inner (.text after), []) =>
    if before.all isBlank && after.all isBlank then some ⟨name, attributes, inner⟩ else none
  | _ => none

/-- The element that a document holds, if the text is a document. -/
def parse? (text : String) : Option Element :=
  if declaration.toList.isPrefixOf text.toList then
    root? (text.toList.drop declaration.toList.length)
  else none

/-! ### Writing -/

/-- An attribute as it is written. -/
def writeAttribute (a : Attribute) : List Char :=
  ' ' :: a.1 ++ '=' :: '"' :: a.2 ++ ['"']

/-- Whether there is nothing between two tags. -/
def Content.isEmpty : Content → Bool
  | .text characters => characters.isEmpty
  | .element .. => false

@[simp] lemma Content.isEmpty_text (characters : List Char) :
    (Content.text characters).isEmpty = characters.isEmpty := rfl

@[simp] lemma Content.isEmpty_element (before name : List Char) (attributes : List Attribute)
    (inner after : Content) : (element before name attributes inner after).isEmpty = false := rfl

/-- A tree as it is written, with the texts in it as they are. An element that holds nothing has a
single tag. -/
def Content.write : Content → List Char
  | .text characters => characters
  | .element before name attributes inner after =>
    before ++ '<' :: name ++ attributes.flatMap writeAttribute ++
      (if inner.isEmpty then [' ', '/', '>']
        else '>' :: inner.write ++ '<' :: '/' :: name ++ ['>']) ++ after.write

/-! ### Texts that are read back -/

section Texts

variable {raw raw' text text' : List Char}

lemma decode?_cons {c : Char} (h : isChar c = true ∧ c ≠ '&' ∧ c ≠ '<') :
    decode? (c :: text) = (decode? text).map (c :: ·) := by
  obtain ⟨hchar, hamp, hlt⟩ := h
  rw [decode?, if_neg (by simp [hchar, hamp, hlt])] <;> exact fun _ hc => absurd hc hamp

/-- Texts without references stand for themselves. -/
lemma decode?_eq_self (h : ∀ c ∈ text, isChar c = true ∧ c ≠ '&' ∧ c ≠ '<') :
    decode? text = some text := by
  induction text with
  | nil => rfl
  | cons c text ih =>
    rw [List.forall_mem_cons] at h
    rw [decode?_cons h.1, ih h.2, Option.map_some]

/-- A text that stands for another does so in front of any other text. -/
lemma decode?_append (h : decode? raw = some text) :
    decode? (raw ++ raw') = (decode? raw').map (text ++ ·) := by
  -- Cases 2 to 6 are the references; in case 8 a character stands for itself.
  fun_induction decode? raw generalizing text with
  | case1 =>
    obtain rfl := Option.some.inj h
    exact Option.map_id'.symm
  | case7 => cases h
  | case8 c rest _ _ _ _ _ hc ih =>
    obtain ⟨text, htext, rfl⟩ := Option.map_eq_some_iff.1 h
    have hc : isChar c = true ∧ c ≠ '&' ∧ c ≠ '<' := by simp_all
    rw [List.cons_append, decode?_cons hc, ih htext, Option.map_map]
    rfl
  | case2 _ ih | case3 _ ih | case4 _ ih | case5 _ ih | case6 _ ih =>
    obtain ⟨text, htext, rfl⟩ := Option.map_eq_some_iff.1 h
    simp [decode?, ih htext, Function.comp_def]

/-- Texts that stand for others, one after the other. -/
lemma decode?_flatMap {α : Type} {items : List α} {raw text : α → List Char}
    (h : ∀ item ∈ items, decode? (raw item) = some (text item)) :
    decode? (items.flatMap raw) = some (items.flatMap text) := by
  induction items with
  | nil => rfl
  | cons item items ih =>
    rw [List.forall_mem_cons] at h
    rw [List.flatMap_cons, decode?_append h.1, ih h.2, Option.map_some, List.flatMap_cons]

lemma lt_notMem_of_decode? (h : decode? raw = some text) : '<' ∉ raw := by
  fun_induction decode? raw generalizing text with
  | case1 => simp
  | case7 => cases h
  | case8 c rest _ _ _ _ _ hc ih =>
    obtain ⟨text, htext, rfl⟩ := Option.map_eq_some_iff.1 h
    rw [List.mem_cons, not_or]
    refine ⟨?_, ih htext⟩
    rintro rfl
    simp at hc
  | case2 _ ih | case3 _ ih | case4 _ ih | case5 _ ih | case6 _ ih =>
    obtain ⟨text, htext, rfl⟩ := Option.map_eq_some_iff.1 h
    simpa using ih htext

lemma lineEnds_eq_self (h : '\r' ∉ text) : lineEnds text = text := by
  induction text with
  | nil => rfl
  | cons c text ih =>
    rw [List.mem_cons, not_or] at h
    rw [lineEnds, ih h.2]
    · exact fun _ hc => absurd hc.symm h.1
    · exact fun hc => absurd hc.symm h.1

/-- A text is not in two others if it has nothing of a character that stands between them. -/
lemma infix_or_infix {c : Char} (h : text <:+: raw ++ c :: raw') (hc : c ∉ text) :
    text <:+: raw ∨ text <:+: raw' := by
  have hnone : ∀ part, part <+: c :: raw' → c ∉ part → part = [] := by
    rintro (_ | ⟨d, part⟩) hpart hc
    · rfl
    · exact absurd (List.mem_cons.2 (.inl (List.cons_prefix_cons.1 hpart).1.symm)) hc
  -- It lies in either side, or has a part in each; the part behind begins with `c` or is empty.
  rcases List.infix_append_iff.1 h with h | h | ⟨left, right, rfl, hleft, hright⟩
  · exact .inl h
  · rcases List.infix_cons_iff.1 h with h | h
    · rw [hnone _ h hc]
      exact .inl (List.nil_infix)
    · exact .inr h
  · rw [hnone right hright fun hmem => hc (List.mem_append_right _ hmem), List.append_nil]
    exact .inl hleft.isInfix

lemma infix_of_infix_append (before : List Char) (h : text <:+: before ++ raw)
    (hbefore : before.Forall (· ∉ text)) : text <:+: raw := by
  induction before with
  | nil => exact h
  | cons c before ih =>
    rw [List.forall_cons] at hbefore
    have hcons : text <:+: [] ++ c :: (before ++ raw) := h
    rcases infix_or_infix hcons hbefore.1 with h | h
    · rw [List.infix_nil.1 h]
      exact List.nil_infix
    · exact ih h hbefore.2

lemma spaced_eq_self (h : ∀ c ∈ text, isBlank c = true → c = ' ') : spaced text = text := by
  have hreturn : '\r' ∉ text := fun hmem => absurd (h _ hmem (by decide)) (by decide)
  rw [spaced, lineEnds_eq_self hreturn]
  refine (List.map_congr_left fun c hc => ?_).trans (List.map_id' _)
  split
  · exact (h c hc ‹_›).symm
  · rfl

end Texts

/-! ### Trees that are read back -/

/-- Whether a text is a name. -/
def IsName (name : List Char) : Prop :=
  ∃ c rest, name = c :: rest ∧ isNameStart c = true ∧ ∀ d ∈ rest, isNameChar d = true

/-- Whether an attribute that is written as `raw` is read as `a`. -/
structure AttributeFor (raw a : Attribute) : Prop where
  name : raw.1 = a.1
  isName : IsName a.1
  quote : '"' ∉ raw.2
  value : attributeValue? raw.2 = some a.2

/-- Whether a tree that is written with the texts of `raw` is read as `tree`. -/
inductive StandsFor : Content → Content → Prop
  | text {raw characters : List Char} : contentText? raw = some characters →
    StandsFor (.text raw) (.text characters)
  | element {raw before name : List Char} {rawAttributes attributes : List Attribute}
    {rawInner inner rawAfter after : Content} :
    contentText? raw = some before → IsName name →
    List.Forall₂ AttributeFor rawAttributes attributes → (attributes.map Prod.fst).Nodup →
    StandsFor rawInner inner → StandsFor rawAfter after →
    StandsFor (.element raw name rawAttributes rawInner rawAfter)
      (.element before name attributes inner after)

section Reading

variable {name rest input : List Char} {c : Char}

/-- No blank is the start of a name. -/
lemma isBlank_eq_false (h : isNameStart c = true) : isBlank c = false := by
  by_contra hblank
  simp only [isBlank, Bool.not_eq_false, Bool.or_eq_true, beq_iff_eq] at hblank
  obtain ((rfl | rfl) | rfl) | rfl := hblank <;> revert h <;> decide

lemma takeWhile_append_cons {p : Char → Bool} (h : ∀ d ∈ input, p d = true) (hc : p c = false) :
    (input ++ c :: rest).takeWhile p = input := by
  rw [List.takeWhile_append_of_pos h, List.takeWhile_cons_of_neg (by simp [hc]), List.append_nil]

lemma dropWhile_append_cons {p : Char → Bool} (h : ∀ d ∈ input, p d = true) (hc : p c = false) :
    (input ++ c :: rest).dropWhile p = c :: rest := by
  rw [List.dropWhile_append_of_pos h, List.dropWhile_cons_of_neg (by simp [hc])]

lemma name?_append (h : IsName name) (hc : isNameChar c = false) :
    name? (name ++ c :: rest) = some (name, c :: rest) := by
  obtain ⟨first, others, rfl, hfirst, hothers⟩ := h
  rw [List.cons_append, name?, if_pos hfirst, takeWhile_append_cons hothers hc,
    dropWhile_append_cons hothers hc]

/-- A name has a start, which stays where it is when blanks are left out. -/
lemma IsName.dropWhile_isBlank (h : IsName name) :
    (name ++ rest).dropWhile isBlank = name ++ rest := by
  obtain ⟨first, others, rfl, hfirst, -⟩ := h
  exact List.dropWhile_cons_of_neg (by simp [isBlank_eq_false hfirst])

lemma IsName.head?_append (h : IsName name) : (name ++ rest).head?.any isNameStart = true := by
  obtain ⟨first, others, rfl, hfirst, -⟩ := h
  exact hfirst

lemma quoted?_append {raw value : List Char} (hquote : '"' ∉ raw)
    (hvalue : attributeValue? raw = some value) :
    quoted? ('"' :: raw ++ '"' :: rest) = some (value, rest) := by
  have hraw : ∀ d ∈ raw, decide (d ≠ '"') = true :=
    fun d hd => decide_eq_true fun heq => hquote (heq ▸ hd)
  rw [List.cons_append, quoted?, if_pos (by decide), dropWhile_append_cons hraw rfl,
    takeWhile_append_cons hraw rfl, hvalue]
  rfl

lemma attribute?_append {raw a : Attribute} (h : AttributeFor raw a) :
    attribute? (a.1 ++ '=' :: '"' :: raw.2 ++ '"' :: rest) = some (a, rest) := by
  have hquoted : quoted? (('"' :: raw.2 ++ '"' :: rest).dropWhile isBlank) = some (a.2, rest) := by
    rw [List.cons_append, List.dropWhile_cons_of_neg (by decide), ← List.cons_append,
      quoted?_append h.quote h.value]
  rw [List.append_assoc, List.cons_append, attribute?, name?_append h.isName (by decide)]
  simp only [Option.bind_eq_bind, Option.bind_some]
  rw [List.dropWhile_cons_of_neg (by decide)]
  change (quoted? (('"' :: raw.2 ++ '"' :: rest).dropWhile isBlank)).bind _ = _
  rw [hquoted]
  rfl

/-- Whether no attribute follows. -/
def EndsAttributes (rest : List Char) : Prop :=
  (rest.dropWhile isBlank).head?.any isNameStart = false

lemma attributes?_append {raws attributes : List Attribute} {budget : Nat}
    (h : List.Forall₂ AttributeFor raws attributes) (hrest : EndsAttributes rest)
    (hbudget : raws.length < budget) :
    attributes? budget (raws.flatMap writeAttribute ++ rest) =
      some (attributes, rest.dropWhile isBlank) := by
  induction h generalizing budget with
  | nil =>
    obtain ⟨budget, rfl⟩ := Nat.exists_eq_add_of_lt hbudget
    rw [List.flatMap_nil, List.nil_append, attributes?]
    exact if_neg (Bool.not_eq_true _ ▸ hrest)
  | @cons raw a raws attributes ha _ ih =>
    obtain ⟨budget, rfl⟩ : ∃ n, budget = n + 1 := ⟨budget - 1, by omega⟩
    have hinput : (raw :: raws).flatMap writeAttribute ++ rest =
        ' ' :: (a.1 ++ '=' :: '"' :: raw.2 ++ '"' :: (raws.flatMap writeAttribute ++ rest)) := by
      simp [writeAttribute, ha.name]
    rw [hinput, attributes?, List.dropWhile_cons_of_pos (by decide), List.append_assoc,
      ha.isName.dropWhile_isBlank, if_pos ha.isName.head?_append,
      if_pos (by simp [isBlank]), ← List.append_assoc, attribute?_append ha]
    simp only [Option.bind_eq_bind, Option.bind_some]
    rw [ih (by simpa using hbudget)]
    rfl

lemma endTag?_append (h : IsName name) :
    endTag? name ('<' :: '/' :: name ++ '>' :: rest) = some rest := by
  rw [List.cons_append, List.cons_append, endTag?, name?_append h (by decide)]
  simp [isBlank]

lemma exists_head_writeAttributes (raws : List Attribute) (rest : List Char)
    (hrest : isNameChar c = false) :
    ∃ d others, raws.flatMap writeAttribute ++ c :: rest = d :: others ∧ isNameChar d = false := by
  cases raws with
  | nil => exact ⟨c, rest, rfl, hrest⟩
  | cons raw raws => exact ⟨' ', _, rfl, by decide⟩

/-- Whether reading ends before a text: at an end tag, or because there is none. -/
def EndsContent (rest : List Char) : Prop :=
  rest = [] ∨ ∃ others, rest = '<' :: '/' :: others

variable {raw characters : List Char}

lemma ne_lt_of_contentText? (h : contentText? raw = some characters) :
    ∀ d ∈ raw, decide (d ≠ '<') = true := by
  rw [contentText?] at h
  split at h
  · cases h
  · obtain ⟨text, htext, -⟩ := Option.map_eq_some_iff.1 h
    exact fun d hd => decide_eq_true fun heq => lt_notMem_of_decode? htext (heq ▸ hd)

/-- What is written of an element after its attributes. -/
def writeBody (name : List Char) (inner : Content) : List Char :=
  if inner.isEmpty then [' ', '/', '>'] else '>' :: inner.write ++ '<' :: '/' :: name ++ ['>']

lemma Content.write_eq_nil {inner : Content} (h : inner.isEmpty = true) : inner.write = [] := by
  cases inner with
  | text => exact List.isEmpty_iff.1 h
  | element => cases h

lemma length_le_length_flatMap (raws : List Attribute) :
    raws.length ≤ (raws.flatMap writeAttribute).length := by
  induction raws with
  | nil => exact Nat.le_refl _
  | cons raw raws ih =>
    have hpos : 0 < (writeAttribute raw).length := by simp [writeAttribute]
    rw [List.flatMap_cons, List.length_append, List.length_cons]
    omega

/-- Each part of an element is shorter than the element. -/
lemma length_write_element (before name : List Char) (raws : List Attribute)
    (inner after : Content) :
    let written := (Content.element before name raws inner after).write.length
    raws.length + 1 < written ∧ inner.write.length + 1 < written ∧
      after.write.length + 1 < written := by
  have hraws := length_le_length_flatMap raws
  have hinner : inner.write.length < (writeBody name inner).length := by
    rw [writeBody]
    split
    · rename_i hempty
      rw [Content.write_eq_nil hempty]
      exact Nat.zero_lt_succ _
    · simp only [List.length_cons, List.length_append]
      omega
  have hwritten : (Content.element before name raws inner after).write.length = before.length + 1 +
      name.length + (raws.flatMap writeAttribute).length + (writeBody name inner).length +
        after.write.length := by
    simp only [Content.write, writeBody, List.length_append, List.length_cons]
    omega
  intro written
  refine ⟨?_, ?_, ?_⟩ <;> omega

lemma content?_text (budget : Nat) (h : contentText? raw = some characters)
    (hrest : EndsContent rest) :
    content? (budget + 1) (raw ++ rest) = some (.text characters, rest) := by
  have hraw := ne_lt_of_contentText? h
  rw [content?]
  obtain rfl | ⟨others, rfl⟩ := hrest
  · rw [List.append_nil, List.takeWhile_eq_self_iff.2 hraw, h, List.dropWhile_eq_nil_iff.2 hraw]
    rfl
  · rw [takeWhile_append_cons hraw rfl, h, dropWhile_append_cons hraw rfl]
    rfl

lemma content?_element {budget : Nat} {inner after : Content} {attributes : List Attribute}
    {tagEnd bodyEnd contentEnd : List Char} (h : contentText? raw = some characters)
    (hname : IsName name) (hc : isNameChar c = false)
    (hattributes : attributes? budget (c :: rest) = some (attributes, tagEnd))
    (hnodup : (attributes.map Prod.fst).Nodup)
    (hbody : body? (content? budget) name tagEnd = some (inner, bodyEnd))
    (hafter : content? budget bodyEnd = some (after, contentEnd)) :
    content? (budget + 1) (raw ++ '<' :: (name ++ c :: rest)) =
      some (.element characters name attributes inner after, contentEnd) := by
  have hraw := ne_lt_of_contentText? h
  have hslash : ∀ others, name ++ c :: rest ≠ '/' :: others := by
    obtain ⟨first, others, rfl, hfirst, -⟩ := hname
    rintro _ heq
    obtain ⟨rfl, -⟩ := List.cons.inj heq
    exact absurd hfirst (by decide)
  rw [content?, takeWhile_append_cons hraw rfl, h, dropWhile_append_cons hraw rfl]
  simp only [Option.bind_eq_bind, Option.bind_some, name?_append hname hc, hattributes,
    if_pos hnodup, hbody, hafter]
  rfl

/-- What is written of an element after its attributes is read as what it holds. -/
lemma body?_write (rest : List Char) {budget : Nat} {rawInner inner : Content} (hname : IsName name)
    (hinner : StandsFor rawInner inner)
    (hread : ∀ others, content? budget (rawInner.write ++ '<' :: '/' :: others) =
      some (inner, '<' :: '/' :: others)) :
    ∃ d others, writeBody name rawInner ++ rest = d :: others ∧ isNameChar d = false ∧
      EndsAttributes (d :: others) ∧
      body? (content? budget) name ((d :: others).dropWhile isBlank) = some (inner, rest) := by
  by_cases hempty : rawInner.isEmpty = true
  · obtain ⟨rfl, rfl⟩ : rawInner = .text [] ∧ inner = .text [] := by
      cases hinner with
      | text htext =>
        obtain rfl := List.isEmpty_iff.1 hempty
        exact ⟨rfl, congrArg _ (Option.some.inj (htext.symm.trans (by decide)))⟩
      | element => cases hempty
    exact ⟨' ', '/' :: '>' :: rest, rfl, by decide, rfl, rfl⟩
  · refine ⟨'>', rawInner.write ++ '<' :: '/' :: name ++ '>' :: rest, ?_, by decide, rfl, ?_⟩
    · simp [writeBody, hempty]
    · rw [List.dropWhile_cons_of_neg (by decide), body?, List.append_assoc, List.cons_append,
        List.cons_append, hread]
      simp only [Option.bind_eq_bind, Option.bind_some]
      rw [← List.cons_append, ← List.cons_append, endTag?_append hname]
      rfl

/-- A tree that is written with other texts is read as the tree. -/
lemma content?_write {raw tree : Content} (h : StandsFor raw tree) {budget : Nat}
    (hrest : EndsContent rest) (hbudget : raw.write.length < budget) :
    content? budget (raw.write ++ rest) = some (tree, rest) := by
  induction h generalizing budget rest with
  | text htext =>
    obtain ⟨budget, rfl⟩ : ∃ n, budget = n + 1 := ⟨budget - 1, by omega⟩
    exact content?_text budget htext hrest
  | @element raw before name raws attributes rawInner inner rawAfter after hbefore hname hattributes
      hnodup hinner hafter ihinner ihafter =>
    -- Each part of the element is shorter than it, so that a budget less by one is enough.
    obtain ⟨budget, rfl⟩ : ∃ n, budget = n + 1 := ⟨budget - 1, by omega⟩
    have hlength := length_write_element raw name raws rawInner rawAfter
    have hcontent : ∀ others, content? budget (rawInner.write ++ '<' :: '/' :: others) =
        some (inner, '<' :: '/' :: others) :=
      fun others => ihinner (.inr ⟨others, rfl⟩) (by omega)
    obtain ⟨d, others, hbody, hd, hends, hread⟩ :=
      body?_write (rawAfter.write ++ rest) hname hinner hcontent
    have htags : attributes? budget (raws.flatMap writeAttribute ++ d :: others) =
        some (attributes, (d :: others).dropWhile isBlank) :=
      attributes?_append hattributes hends (by omega)
    obtain ⟨e, tail, htag, he⟩ := exists_head_writeAttributes raws others hd
    have hwritten : (Content.element raw name raws rawInner rawAfter).write ++ rest =
        raw ++ '<' :: (name ++ e :: tail) := by
      rw [← htag, ← hbody]
      simp [Content.write, writeBody]
    rw [hwritten]
    rw [htag] at htags
    exact content?_element hbefore hname he htags hnodup hread (ihafter hrest (by omega))

end Reading

/-! ### Documents that are read back -/

lemma parse?_declaration (input : List Char) :
    parse? (declaration ++ String.ofList input) = root? input := by
  rw [parse?, String.toList_append, String.toList_ofList, if_pos (by simp), List.drop_left]

/-- A document that is written with other texts is read as the element that it holds. -/
lemma parse?_write {raws attributes : List Attribute} {rawInner inner : Content}
    {name before after : List Char}
    (h : StandsFor (.element before name raws rawInner (.text after))
      (.element before name attributes inner (.text after)))
    (hbefore : before.all isBlank = true) (hafter : after.all isBlank = true) :
    parse? (declaration ++ String.ofList
      (Content.element before name raws rawInner (.text after)).write) =
      some ⟨name, attributes, inner⟩ := by
  have hread := content?_write h (.inl rfl : EndsContent []) (Nat.lt_succ_self _)
  rw [List.append_nil] at hread
  rw [parse?_declaration, root?, hread]
  exact if_pos (by simp [hbefore, hafter])

end Xml
end ClasspathAudit
