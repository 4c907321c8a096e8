import ClasspathAudit.Proofs.Signature.Progress
import ClasspathAudit.Signature.ByteReader

/-
# Places in the bytes of a text

A place between two characters lies as many bytes behind the start of the text as the characters
before it take, and the bytes from there on are those of the characters that follow. A byte of a
character of more than a byte is none of a single-byte character, so the bytes of a name can be
passed over one by one: they end where the name does. What lies between two such places can be cut
out of the text.
-/
namespace ClasspathAudit
namespace Signature

variable {s : String} {c m : Cursor}

/-! ### Places between characters -/

/-- Whether a place is between two characters of a text, or at one of its ends. -/
def Cursor.In (c : Cursor) (s : String) : Prop :=
  ∃ before, s.toList = before ++ c.rest ∧ c.position = byteCount before

lemma Cursor.start_in (s : String) : Cursor.In ⟨s.toList, 0⟩ s :=
  ⟨[], rfl, rfl⟩

lemma Cursor.In.over {front : List Char} (h : c.In s) (hover : c.Over front m) : m.In s := by
  obtain ⟨before, hrest, hposition⟩ := h
  refine ⟨before ++ front, ?_, ?_⟩
  · rw [hrest, hover.rest, List.append_assoc]
  · rw [hover.position, hposition, byteCount_append]

/-- The bytes of characters. -/
def bytesOf (text : List Char) : List UInt8 :=
  text.flatMap String.utf8EncodeChar

lemma length_bytesOf (text : List Char) : (bytesOf text).length = byteCount text := by
  induction text with
  | nil => rfl
  | cons x text ih => simp [bytesOf, byteCount, ← ih]

lemma bytesOf_append (w v : List Char) : bytesOf (w ++ v) = bytesOf w ++ bytesOf v :=
  List.flatMap_append

lemma toList_toUTF8 (s : String) : s.toUTF8.data.toList = bytesOf s.toList := by
  obtain ⟨text, rfl⟩ := s.exists_eq_ofList
  simp [String.toUTF8, List.utf8Encode, bytesOf]

lemma utf8ByteSize_eq (s : String) : s.utf8ByteSize = byteCount s.toList := by
  rw [← length_bytesOf, ← toList_toUTF8]
  rfl

lemma utf8ByteSize_ofList (text : List Char) :
    (String.ofList text).utf8ByteSize = byteCount text := by
  rw [utf8ByteSize_eq, String.toList_ofList]

/-- From a place between characters the bytes are those of the characters that follow. -/
lemma Cursor.In.byteAt? (h : c.In s) (i : Nat) :
    ByteReader.byteAt? s (c.position + i) = (bytesOf c.rest)[i]? := by
  obtain ⟨before, hrest, hposition⟩ := h
  rw [ByteReader.byteAt?, ← Array.getElem?_toList, toList_toUTF8, hrest, bytesOf_append, hposition,
    ← length_bytesOf, List.getElem?_append_right (Nat.le_add_right _ _), Nat.add_sub_cancel_left]

lemma length_le_byteCount (text : List Char) : text.length ≤ byteCount text := by
  induction text with
  | nil => exact Nat.le_refl 0
  | cons x text ih =>
    have hpos := x.utf8Size_pos
    rw [List.length_cons, byteCount]
    omega

lemma Cursor.In.utf8ByteSize (h : c.In s) : s.utf8ByteSize = c.position + byteCount c.rest := by
  obtain ⟨before, hrest, hposition⟩ := h
  rw [utf8ByteSize_eq, hrest, byteCount_append, hposition]

lemma Cursor.In.isValid (h : c.In s) : (String.Pos.Raw.mk c.position).IsValid s := by
  obtain ⟨before, hrest, hposition⟩ := h
  refine String.Pos.Raw.isValid_iff_exists_append.2
    ⟨String.ofList before, String.ofList c.rest, ?_, ?_⟩
  · rw [← String.ofList_append, ← hrest, String.ofList_toList]
  · rw [hposition, ← utf8ByteSize_ofList]
    rfl

/-! ### Bytes of a character -/

/-- Whether a character takes a single byte. -/
def IsShort (x : Char) : Prop :=
  x.toNat < 128

instance (x : Char) : Decidable (IsShort x) :=
  inferInstanceAs (Decidable (x.toNat < 128))

lemma IsShort.utf8EncodeChar {x : Char} (h : IsShort x) :
    String.utf8EncodeChar x = [UInt8.ofNat x.toNat] :=
  if_pos (Nat.le_of_lt_succ h)

lemma IsShort.utf8Size {x : Char} (h : IsShort x) : x.utf8Size = 1 := by
  rw [← String.length_utf8EncodeChar, h.utf8EncodeChar]
  rfl

lemma toNat_ofUInt8 (b : UInt8) : (Char.ofUInt8 b).toNat = b.toNat := rfl

lemma IsShort.ofUInt8 {x : Char} (h : IsShort x) : Char.ofUInt8 (UInt8.ofNat x.toNat) = x := by
  apply Char.toNat_inj.1
  rw [toNat_ofUInt8, UInt8.toNat_ofNat', Nat.mod_eq_of_lt (Nat.lt_trans h (by decide))]

/-- No byte of a longer character is that of a single-byte one. -/
lemma not_isShort_ofUInt8 {x : Char} {b : UInt8} (hx : ¬IsShort x)
    (hb : b ∈ String.utf8EncodeChar x) : ¬IsShort (Char.ofUInt8 b) := by
  have hval : ¬x.val.toNat ≤ 127 := fun h => hx (Nat.lt_succ_of_le h)
  rw [IsShort, toNat_ofUInt8]
  simp only [String.utf8EncodeChar, if_neg hval] at hb
  split_ifs at hb <;> simp only [List.mem_cons, List.not_mem_nil, or_false] at hb
  · rcases hb with rfl | rfl <;> simp only [UInt8.toNat_ofNat'] <;> omega
  · rcases hb with rfl | rfl | rfl <;> simp only [UInt8.toNat_ofNat'] <;> omega
  · rcases hb with rfl | rfl | rfl | rfl <;> simp only [UInt8.toNat_ofNat'] <;> omega

/-- The next byte as `peek` shows it. -/
def shown (s : String) (position : Nat) : Option Char :=
  (ByteReader.byteAt? s position).map Char.ofUInt8

lemma Cursor.In.shown_add (h : c.In s) (i : Nat) :
    shown s (c.position + i) = (bytesOf c.rest)[i]?.map Char.ofUInt8 := by
  rw [shown, h.byteAt?]

lemma Cursor.In.shown_nil (h : c.In s) (hrest : c.rest = []) : shown s c.position = none := by
  have hshown := h.shown_add 0
  rw [hrest] at hshown
  exact hshown

lemma Cursor.In.shown_short {x : Char} {rest : List Char} (h : c.In s) (hrest : c.rest = x :: rest)
    (hx : IsShort x) : shown s c.position = some x := by
  have hshown := h.shown_add 0
  rw [hrest, bytesOf, List.flatMap_cons, hx.utf8EncodeChar] at hshown
  exact hshown.trans (congrArg some hx.ofUInt8)

lemma Cursor.In.shown_long {x : Char} {rest : List Char} (h : c.In s) (hrest : c.rest = x :: rest)
    (hx : ¬IsShort x) : ∃ y, shown s c.position = some y ∧ ¬IsShort y := by
  obtain ⟨b, bs, hb⟩ := List.exists_cons_of_ne_nil (@String.utf8EncodeChar_ne_nil x)
  have hshown := h.shown_add 0
  rw [hrest, bytesOf, List.flatMap_cons, hb] at hshown
  exact ⟨Char.ofUInt8 b, hshown, not_isShort_ofUInt8 hx (hb ▸ List.mem_cons_self)⟩

/-! ### Names -/

lemma passes_of_not_isShort {ends : List Char} (hends : ∀ x ∈ ends, IsShort x) {x : Char}
    (hx : ¬IsShort x) : passes ends x = true := by
  have hshort : ∀ c ∈ ['<', '>', ';', '[', ':'], IsShort c := by simp [IsShort]
  have hreserved : isReserved x = false :=
    isReserved_eq_false_iff.2 fun hmem => hx (hshort x hmem)
  have hend : x ∉ ends := fun hmem => hx (hends x hmem)
  simp [passes, hend, hreserved]

/-- A name goes on over all bytes of characters over which it goes on. -/
lemma passes_shown {ends name rest : List Char} (hends : ∀ x ∈ ends, IsShort x) (hc : c.In s)
    (hrest : c.rest = name ++ rest) (hname : ∀ x ∈ name, passes ends x = true) {i : Nat}
    (hi : i < byteCount name) : ∃ x, shown s (c.position + i) = some x ∧ passes ends x = true := by
  rw [← length_bytesOf] at hi
  have hshown := hc.shown_add i
  rw [hrest, bytesOf_append, List.getElem?_append_left hi, List.getElem?_eq_getElem hi] at hshown
  refine ⟨_, hshown, ?_⟩
  obtain ⟨x, hx, hbyte⟩ := List.mem_flatMap.1 (List.getElem_mem hi)
  by_cases hshort : IsShort x
  · rw [hshort.utf8EncodeChar, List.mem_singleton] at hbyte
    rw [hbyte, hshort.ofUInt8]
    exact hname x hx
  · exact passes_of_not_isShort hends (not_isShort_ofUInt8 hshort hbyte)

lemma passName_succ (ends : List Char) (budget : Nat) (s : String) (position : Nat) :
    ByteReader.passName ends (budget + 1) s position =
      match shown s position with
      | none => .ok ((), position)
      | some x =>
        if ends.contains x then .ok ((), position)
        else if isReserved x then .error (.refused ⟨position, .badIdentifierCharacter⟩)
        else ByteReader.passName ends budget s (position + 1) := by
  rw [ByteReader.passName]
  show (match shown s position with
    | none => pure ()
    | some x =>
      if ends.contains x then pure ()
      else if isReserved x then ByteReader.fail .badIdentifierCharacter
      else do
        ByteReader.bump
        ByteReader.passName ends budget : ByteReader.Reader Unit) s position = _
  cases shown s position with
  | none => rfl
  | some x =>
    simp only
    split_ifs <;> rfl

/-- Bytes over which a name goes on are passed over one by one. -/
lemma passName_add {ends : List Char} (budget : Nat) {n position : Nat}
    (h : ∀ i < n, ∃ x, shown s (position + i) = some x ∧ passes ends x = true) :
    ByteReader.passName ends (budget + n) s position =
      ByteReader.passName ends budget s (position + n) := by
  induction n generalizing position with
  | zero => rfl
  | succ n ih =>
    obtain ⟨x, hshown, hx⟩ := h 0 (Nat.succ_pos n)
    have hmore : ∀ i < n, ∃ x, shown s (position + 1 + i) = some x ∧ passes ends x = true := by
      intro i hi
      obtain ⟨x, hx⟩ := h (i + 1) (Nat.succ_lt_succ hi)
      exact ⟨x, by rwa [Nat.add_right_comm]⟩
    rw [Nat.add_zero] at hshown
    simp only [passes, Bool.not_eq_true', Bool.or_eq_false_iff] at hx
    rw [← Nat.add_assoc budget, passName_succ, hshown]
    simp only [hx.1, hx.2, Bool.false_eq_true, if_false]
    rw [ih hmore, Nat.add_right_comm, Nat.add_assoc]

/-- A name stops where it does not go on. -/
lemma passes_head?_afterName (ends : List Char) (c : Cursor) :
    ∀ x ∈ (afterName ends c).rest.head?, passes ends x = false := by
  have hsplit : nameChars ends c.rest ++ c.rest.dropWhile (passes ends) = c.rest :=
    List.takeWhile_append_dropWhile
  have hafter : (afterName ends c).rest = c.rest.dropWhile (passes ends) :=
    List.append_cancel_left ((over_afterName ends c).rest.symm.trans hsplit.symm)
  have hnot := List.head?_dropWhile_not (passes ends) c.rest
  intro x hx
  rw [← hafter, Option.mem_def.1 hx] at hnot
  simpa using hnot

/-- The bytes of a name are passed over up to the end of the name. -/
lemma passName_eq {ends : List Char} (hends : ∀ x ∈ ends, IsShort x) (hc : c.In s) :
    ByteReader.withBudget (ByteReader.passName ends) s c.position =
      match (afterName ends c).rest with
      | [] => .ok ((), (afterName ends c).position)
      | x :: _ =>
        if ends.contains x then .ok ((), (afterName ends c).position)
        else .error (.refused ⟨(afterName ends c).position, .badIdentifierCharacter⟩) := by
  have hover := over_afterName ends c
  have hm := hc.over hover
  have hname : ∀ x ∈ nameChars ends c.rest, passes ends x = true :=
    fun x hx => List.mem_takeWhile_imp hx
  have hbudget : s.utf8ByteSize - c.position + 1 =
      byteCount (afterName ends c).rest + 1 + byteCount (nameChars ends c.rest) := by
    have hcount := congrArg byteCount hover.rest
    rw [byteCount_append] at hcount
    rw [hc.utf8ByteSize]
    omega
  have hpassed : ByteReader.withBudget (ByteReader.passName ends) s c.position =
      ByteReader.passName ends (byteCount (afterName ends c).rest + 1) s
        (afterName ends c).position := by
    show ByteReader.passName ends (s.utf8ByteSize - c.position + 1) s c.position = _
    rw [hbudget, passName_add _ fun i hi => passes_shown hends hc hover.rest hname hi,
      hover.position]
  rw [hpassed, passName_succ]
  cases hrest : (afterName ends c).rest with
  | nil => rw [hm.shown_nil hrest]
  | cons x rest =>
    have hx : passes ends x = false := passes_head?_afterName ends c x (by rw [hrest]; rfl)
    have hshort : IsShort x := by
      by_contra hlong
      rw [passes_of_not_isShort hends hlong] at hx
      cases hx
    rw [hm.shown_short hrest hshort]
    simp only [passes, Bool.not_eq_false', Bool.or_eq_true] at hx
    simp only
    split_ifs with hend hreserved
    · rfl
    · rfl
    · exact absurd (hx.resolve_left hend) hreserved

/-! ### Cutting out -/

/-- Places that differ by a part of a text delimit this part. -/
lemma extract_eq_of_append {u v w : String} (hs : s = u ++ (v ++ w)) {start stop : s.Pos}
    (hstart : start.offset.byteIdx = u.utf8ByteSize)
    (hstop : stop.offset.byteIdx = u.utf8ByteSize + v.utf8ByteSize) : s.extract start stop = v := by
  apply String.toByteArray_inj.1
  rw [String.toByteArray_extract, hstart, hstop, hs, String.toByteArray_append,
    String.toByteArray_append, ← String.size_toByteArray, ← String.size_toByteArray]
  have hshift := @ByteArray.extract_append_size_add u.toByteArray (v.toByteArray ++ w.toByteArray) 0
    v.toByteArray.size
  rw [Nat.add_zero] at hshift
  exact hshift.trans (ByteArray.extract_append_eq_left rfl)

/-- What is read between two places between characters can be cut out. -/
lemma cut_eq {name : List Char} (hc : c.In s) (hover : c.Over name m) (position : Nat) :
    ByteReader.cut c.position m.position s position = .ok (name, position) := by
  have hle : c.position ≤ m.position := by
    rw [hover.position]
    exact Nat.le_add_right _ _
  have hvalid := hc.isValid
  have hvalid' := (hc.over hover).isValid
  obtain ⟨before, hrest, hposition⟩ := hc
  have hs : s = String.ofList before ++ (String.ofList name ++ String.ofList m.rest) := by
    rw [← String.ofList_append, ← String.ofList_append, ← hover.rest, ← hrest, String.ofList_toList]
  have hextract : s.extract (s.pos _ hvalid) (s.pos _ hvalid') = String.ofList name := by
    refine extract_eq_of_append hs ?_ ?_
    · rw [String.offset_pos, utf8ByteSize_ofList, hposition]
    · rw [String.offset_pos, utf8ByteSize_ofList, utf8ByteSize_ofList, hover.position, hposition]
  rw [ByteReader.cut, dif_pos ⟨hvalid, hvalid', hle⟩, hextract, String.toList_ofList]

end Signature
end ClasspathAudit
