import Mathlib.Data.List.Chain
import ClasspathAudit.Proofs.ClassFile.UnitBytes

/-
# The texts of class files

UTF-16 units are a sequence of characters and of surrogates without a partner. A character beyond
U+FFFF is a pair of surrogates, so a high surrogate without a partner is one that no low one
follows. Decoding gives the characters, with U+FFFD in place of each surrogate that is left over.

Bytes are refused exactly if they cannot be cut into the three forms of units. More forms are read
than are written: a unit may take more bytes than it needs.
-/
namespace ClasspathAudit
namespace ClassFile

/-! ### UTF-16 -/

namespace Utf16

/-- Whether a unit is the first half of a surrogate pair. -/
def IsHighSurrogate (u : UInt16) : Prop :=
  0xD800 ≤ u.toNat ∧ u.toNat ≤ 0xDBFF

/-- Whether a unit is the second half of a surrogate pair. -/
def IsLowSurrogate (u : UInt16) : Prop :=
  0xDC00 ≤ u.toNat ∧ u.toNat ≤ 0xDFFF

instance : DecidablePred IsHighSurrogate := fun u =>
  inferInstanceAs (Decidable (0xD800 ≤ u.toNat ∧ u.toNat ≤ 0xDBFF))

instance : DecidablePred IsLowSurrogate := fun u =>
  inferInstanceAs (Decidable (0xDC00 ≤ u.toNat ∧ u.toNat ≤ 0xDFFF))

/-- The units of a character: one, or a surrogate pair for a character beyond U+FFFF. -/
def unitsOf (c : Char) : List UInt16 :=
  let n := c.toNat
  if n < 0x10000 then [.ofNat n]
  else [.ofNat (0xD800 + (n - 0x10000) / 0x400), .ofNat (0xDC00 + (n - 0x10000) % 0x400)]

/-- A character, or a surrogate without a partner. -/
inductive Stretch
  | char (c : Char)
  | loneHigh (u : UInt16) (h : IsHighSurrogate u)
  | loneLow (u : UInt16) (h : IsLowSurrogate u)

namespace Stretch

/-- The units of a stretch. -/
def units : Stretch → List UInt16
  | char c => unitsOf c
  | loneHigh u _ | loneLow u _ => [u]

/-- The character that stands for a stretch. -/
def shown : Stretch → Char
  | char c => c
  | loneHigh .. | loneLow .. => '\uFFFD'

/-- Whether one stretch may stand right before another: two surrogates that make a pair are one
character. -/
def MayPrecede : Stretch → Stretch → Prop
  | loneHigh .., loneLow .. => False
  | _, _ => True

end Stretch

/-- Whether units consist of the given stretches. -/
structure Splits (units : List UInt16) (stretches : List Stretch) : Prop where
  units : stretches.flatMap Stretch.units = units
  lone : stretches.IsChain Stretch.MayPrecede

end Utf16

namespace ModifiedUtf8

open Utf16

/-! ### Units as characters -/

lemma isHigh_iff {u : UInt16} : isHigh u.toNat = true ↔ IsHighSurrogate u := by
  simp [isHigh, IsHighSurrogate]

lemma isLow_iff {u : UInt16} : isLow u.toNat = true ↔ IsLowSurrogate u := by
  simp [isLow, IsLowSurrogate]

lemma not_isHigh_of_isLow {u : UInt16} (h : IsLowSurrogate u) : ¬IsHighSurrogate u := by
  rintro ⟨-, hhigh⟩
  have := h.1
  omega

/-- A unit that starts no pair stands for itself. -/
lemma ofUnits_cons {u : Nat} {rest : List Nat}
    (h : isHigh u = true → ∀ v ∈ rest.head?, isLow v = false) :
    ofUnits (u :: rest) =
      (if isHigh u || isLow u then replacement else Char.ofNat u) :: ofUnits rest := by
  cases rest with
  | nil => rfl
  | cons v rest =>
    rw [ofUnits]
    by_cases hhigh : isHigh u = true
    · have hlow : isLow v = false := h hhigh v rfl
      simp [hhigh, hlow]
    · by_cases hlow : isLow u = true
      · simp [hhigh, hlow]
      · simp [hhigh, hlow]

/-- A character is read from its units, whatever follows them. -/
lemma ofUnits_char (c : Char) (rest : List Nat) :
    ofUnits ((unitsOf c).map UInt16.toNat ++ rest) = c :: ofUnits rest := by
  have hchar : Char.ofNat c.toNat = c := Char.ofNat_toNat c
  have hvalid : c.toNat < 0xD800 ∨ 0xDFFF < c.toNat ∧ c.toNat < 0x110000 := c.valid
  rw [unitsOf]
  split
  · rename_i hsmall
    have hunit : (UInt16.ofNat c.toNat).toNat = c.toNat := UInt16.toNat_ofNat_of_lt' hsmall
    have hhigh : isHigh c.toNat = false := by
      simp [isHigh]
      omega
    have hlow : isLow c.toNat = false := by
      simp [isLow]
      omega
    rw [List.map_singleton, hunit, List.singleton_append, ofUnits_cons (by simp [hhigh])]
    simp [hhigh, hlow, hchar]
  · rename_i hlarge
    have hfirst : (UInt16.ofNat (0xD800 + (c.toNat - 0x10000) / 0x400)).toNat =
        0xD800 + (c.toNat - 0x10000) / 0x400 := UInt16.toNat_ofNat_of_lt' (by
          show _ < 65536
          omega)
    have hsecond : (UInt16.ofNat (0xDC00 + (c.toNat - 0x10000) % 0x400)).toNat =
        0xDC00 + (c.toNat - 0x10000) % 0x400 := UInt16.toNat_ofNat_of_lt' (by
          show _ < 65536
          omega)
    have hhigh : isHigh (0xD800 + (c.toNat - 0x10000) / 0x400) = true := by
      simp [isHigh]
      omega
    have hlow : isLow (0xDC00 + (c.toNat - 0x10000) % 0x400) = true := by
      simp [isLow]
      omega
    have hsum : 0x10000 + (0xD800 + (c.toNat - 0x10000) / 0x400 - 0xD800) * 1024 +
        (0xDC00 + (c.toNat - 0x10000) % 0x400 - 0xDC00) = c.toNat := by omega
    simp only [List.map_cons, List.map_nil, hfirst, hsecond, List.cons_append, List.nil_append,
      ofUnits, hhigh, hlow, if_true, joined, hsum, hchar]

lemma ofUnits_stretch {a : Stretch} {rest : List UInt16}
    (h : ∀ u hu, a = .loneHigh u hu → ∀ v ∈ rest.head?, ¬IsLowSurrogate v) :
    ofUnits ((a.units ++ rest).map UInt16.toNat) = a.shown :: ofUnits (rest.map UInt16.toNat) := by
  rw [List.map_append]
  cases a with
  | char c => exact ofUnits_char c _
  | loneHigh u hu =>
    have hnext : ∀ v ∈ (rest.map UInt16.toNat).head?, isLow v = false := by
      intro v hv
      rw [List.head?_map] at hv
      obtain ⟨v', hv', rfl⟩ := Option.map_eq_some_iff.1 hv
      rw [← Bool.not_eq_true, isLow_iff]
      exact h u hu rfl v' hv'
    show ofUnits (u.toNat :: rest.map UInt16.toNat) = _
    rw [ofUnits_cons fun _ => hnext, isHigh_iff.2 hu]
    rfl
  | loneLow u hu =>
    have hhigh : isHigh u.toNat = false := by
      rw [← Bool.not_eq_true, isHigh_iff]
      exact not_isHigh_of_isLow hu
    show ofUnits (u.toNat :: rest.map UInt16.toNat) = _
    rw [ofUnits_cons (by simp [hhigh]), hhigh, isLow_iff.2 hu]
    rfl

/-- Only a low surrogate without a partner starts with a low surrogate. -/
lemma eq_loneLow_of_head? {a : Stretch} {v : UInt16} {rest : List UInt16}
    (hv : v ∈ (a.units ++ rest).head?) (hlow : IsLowSurrogate v) : ∃ h, a = .loneLow v h := by
  cases a with
  | char c =>
    exfalso
    have hvalid : c.toNat < 0xD800 ∨ 0xDFFF < c.toNat ∧ c.toNat < 0x110000 := c.valid
    obtain ⟨hfrom, hto⟩ := hlow
    rw [Stretch.units, unitsOf] at hv
    split at hv
    · rename_i hsmall
      obtain rfl := Option.some.inj hv
      have hunit : (UInt16.ofNat c.toNat).toNat = c.toNat := UInt16.toNat_ofNat_of_lt' hsmall
      omega
    · rename_i hlarge
      obtain rfl := Option.some.inj hv
      have hunit : (UInt16.ofNat (0xD800 + (c.toNat - 0x10000) / 0x400)).toNat =
          0xD800 + (c.toNat - 0x10000) / 0x400 := UInt16.toNat_ofNat_of_lt' (by
            show _ < 65536
            omega)
      omega
  | loneHigh u hu =>
    obtain rfl := Option.some.inj hv
    exact absurd hu (not_isHigh_of_isLow hlow)
  | loneLow u hu =>
    obtain rfl := Option.some.inj hv
    exact ⟨hu, rfl⟩

/-- The characters of units are those of their stretches. -/
lemma ofUnits_of_splits {units : List UInt16} {stretches : List Stretch}
    (h : Splits units stretches) :
    ofUnits (units.map UInt16.toNat) = stretches.map Stretch.shown := by
  obtain ⟨rfl, hlone⟩ := h
  induction stretches with
  | nil => rfl
  | cons a stretches ih =>
    rw [List.isChain_cons] at hlone
    rw [List.flatMap_cons, List.map_cons, ofUnits_stretch, ih hlone.2]
    rintro u hu rfl v hv hlow
    cases stretches with
    | nil => cases hv
    | cons b stretches =>
      rw [List.flatMap_cons] at hv
      obtain ⟨hb, rfl⟩ := eq_loneLow_of_head? hv hlow
      exact hlone.1 _ rfl

lemma toNat_char {n : Nat} (h : n.isValidChar) : (Char.ofNat n).toNat = n := by
  rw [Char.ofNat, dif_pos h]
  rfl

/-- The stretch of a unit that is in no pair. -/
def stretchOf (u : UInt16) : Stretch :=
  if h : IsHighSurrogate u then .loneHigh u h
  else if h : IsLowSurrogate u then .loneLow u h
  else .char (Char.ofNat u.toNat)

lemma units_stretchOf (u : UInt16) : (stretchOf u).units = [u] := by
  rw [stretchOf]
  split
  · rfl
  · rename_i hhigh
    split
    · rfl
    · rename_i hlow
      have hlt := u.toNat_lt
      have hvalid : u.toNat.isValidChar := by
        simp only [IsHighSurrogate, IsLowSurrogate] at hhigh hlow
        simp only [Nat.isValidChar]
        omega
      have hchar : (Char.ofNat u.toNat).toNat = u.toNat := toNat_char hvalid
      rw [Stretch.units, unitsOf, hchar, if_pos hlt, UInt16.ofNat_toNat]

/-- A surrogate pair is the units of one character. -/
lemma unitsOf_joined {u v : UInt16} (hu : IsHighSurrogate u) (hv : IsLowSurrogate v) :
    unitsOf (joined u.toNat v.toNat) = [u, v] := by
  obtain ⟨hufrom, huto⟩ := hu
  obtain ⟨hvfrom, hvto⟩ := hv
  have hvalid : (0x10000 + (u.toNat - 0xD800) * 1024 + (v.toNat - 0xDC00)).isValidChar := by
    simp only [Nat.isValidChar]
    omega
  have hchar : (joined u.toNat v.toNat).toNat =
      0x10000 + (u.toNat - 0xD800) * 1024 + (v.toNat - 0xDC00) := by
    rw [joined, toNat_char hvalid]
  have hhigh : 0xD800 + ((joined u.toNat v.toNat).toNat - 0x10000) / 0x400 = u.toNat := by omega
  have hlow : 0xDC00 + ((joined u.toNat v.toNat).toNat - 0x10000) % 0x400 = v.toNat := by omega
  rw [unitsOf, if_neg (by omega), hhigh, hlow, UInt16.ofNat_toNat, UInt16.ofNat_toNat]

/-- A unit that is in no pair may stand before what starts with another unit. -/
lemma mayPrecede_stretchOf {u v : UInt16} {a : Stretch} {rest rest' : List UInt16}
    (hpair : ¬(IsHighSurrogate u ∧ IsLowSurrogate v)) (ha : a.units ++ rest = v :: rest') :
    (stretchOf u).MayPrecede a := by
  rw [stretchOf]
  split
  · rename_i hhigh
    cases a with
    | loneLow w hw =>
      obtain ⟨rfl, -⟩ := List.cons.inj ha
      exact hpair ⟨hhigh, hw⟩
    | char | loneHigh => trivial
  · split <;> trivial

/-- All units are characters and surrogates without a partner. -/
lemma exists_splits : ∀ units : List UInt16, ∃ stretches, Splits units stretches
  | [] => ⟨[], rfl, .nil⟩
  | [u] => ⟨[stretchOf u], by simp [units_stretchOf], .singleton _⟩
  | u :: v :: rest => by
    by_cases hpair : IsHighSurrogate u ∧ IsLowSurrogate v
    · obtain ⟨stretches, hunits, hlone⟩ := exists_splits rest
      refine ⟨.char (joined u.toNat v.toNat) :: stretches, ?_, ?_⟩
      · rw [List.flatMap_cons, Stretch.units, unitsOf_joined hpair.1 hpair.2, hunits]
        rfl
      · rw [List.isChain_cons]
        exact ⟨fun a _ => trivial, hlone⟩
    · obtain ⟨stretches, hunits, hlone⟩ := exists_splits (v :: rest)
      refine ⟨stretchOf u :: stretches, ?_, ?_⟩
      · rw [List.flatMap_cons, units_stretchOf, hunits]
        rfl
      · rw [List.isChain_cons]
        refine ⟨fun a ha => ?_, hlone⟩
        obtain ⟨stretches, rfl⟩ := List.head?_eq_some_iff.1 ha
        rw [List.flatMap_cons] at hunits
        exact mayPrecede_stretchOf hpair hunits

/-! ### Bytes as units -/

/-- Whether a byte continues a form. -/
def IsContinuation (b : UInt8) : Prop :=
  0x80 ≤ b.toNat ∧ b.toNat ≤ 0xBF

/-- Whether bytes have the form of one unit. -/
inductive IsUnitForm : Bytes → Prop
  | one {b : UInt8} (h : 0x01 ≤ b.toNat ∧ b.toNat ≤ 0x7F) : IsUnitForm [b]
  | two {b₁ b₂ : UInt8} (h₁ : 0xC0 ≤ b₁.toNat ∧ b₁.toNat ≤ 0xDF) (h₂ : IsContinuation b₂) :
    IsUnitForm [b₁, b₂]
  | three {b₁ b₂ b₃ : UInt8} (h₁ : 0xE0 ≤ b₁.toNat ∧ b₁.toNat ≤ 0xEF) (h₂ : IsContinuation b₂)
    (h₃ : IsContinuation b₃) : IsUnitForm [b₁, b₂, b₃]

/-- Whether bytes are forms of units, one after the other. -/
def AreUnitForms (bytes : Bytes) : Prop :=
  ∃ forms : List Bytes, (∀ form ∈ forms, IsUnitForm form) ∧ forms.flatten = bytes

lemma exists_continuation? {b : UInt8} (h : IsContinuation b) : ∃ x, continuation? b = some x :=
  ⟨b.toNat - 0x80, continuation?_eq_some_iff.2 ⟨h.1, h.2, rfl⟩⟩

lemma isContinuation_of_eq_some {b : UInt8} {x : Nat} (h : continuation? b = some x) :
    IsContinuation b :=
  have h := continuation?_eq_some_iff.1 h
  ⟨h.1, h.2.1⟩

lemma IsUnitForm.exists_units? {form : Bytes} (h : IsUnitForm form) (rest : Bytes) :
    ∃ u, units? (form ++ rest) = (units? rest).map (u :: ·) := by
  cases h with
  | one h => exact ⟨_, units?_oneByte rest h.1 h.2⟩
  | two h₁ h₂ =>
    obtain ⟨x, hx⟩ := exists_continuation? h₂
    exact ⟨_, units?_twoBytes rest h₁.1 h₁.2 hx⟩
  | three h₁ h₂ h₃ =>
    obtain ⟨x, hx⟩ := exists_continuation? h₂
    obtain ⟨y, hy⟩ := exists_continuation? h₃
    exact ⟨_, units?_threeBytes rest h₁.1 h₁.2 hx hy⟩

lemma AreUnitForms.append {form bytes : Bytes} (hform : IsUnitForm form) (h : AreUnitForms bytes) :
    AreUnitForms (form ++ bytes) := by
  obtain ⟨forms, hforms, rfl⟩ := h
  refine ⟨form :: forms, fun f hf => ?_, rfl⟩
  rcases List.mem_cons.1 hf with rfl | hf
  · exact hform
  · exact hforms f hf

lemma areUnitForms_of_units? {bytes : Bytes} {units : List Nat} (h : units? bytes = some units) :
    AreUnitForms bytes := by
  fun_induction units? bytes generalizing units with
  | case1 => exact ⟨[], by simp, rfl⟩
  | case2 b rest n hone =>
    rename_i ih
    obtain ⟨more, hmore, -⟩ := Option.map_eq_some_iff.1 h
    exact (ih hmore).append (.one (by simpa using hone))
  | case3 b n hone htwo b₂ rest =>
    rename_i ih
    obtain ⟨x, hx, h⟩ := Option.bind_eq_some_iff.1 h
    obtain ⟨more, hmore, -⟩ := Option.map_eq_some_iff.1 h
    exact (ih hmore).append (.two (by simpa using htwo) (isContinuation_of_eq_some hx))
  | case5 b n hone htwo hthree b₂ b₃ rest =>
    rename_i ih
    obtain ⟨x, hx, h⟩ := Option.bind_eq_some_iff.1 h
    obtain ⟨y, hy, h⟩ := Option.bind_eq_some_iff.1 h
    obtain ⟨more, hmore, -⟩ := Option.map_eq_some_iff.1 h
    exact (ih hmore).append (.three (by simpa using hthree) (isContinuation_of_eq_some hx)
      (isContinuation_of_eq_some hy))
  | case4 | case6 | case7 => cases h

lemma exists_units?_iff {bytes : Bytes} :
    (∃ units, units? bytes = some units) ↔ AreUnitForms bytes := by
  constructor
  · rintro ⟨units, h⟩
    exact areUnitForms_of_units? h
  · rintro ⟨forms, hforms, rfl⟩
    induction forms with
    | nil => exact ⟨[], rfl⟩
    | cons form forms ih =>
      obtain ⟨units, hunits⟩ := ih fun f hf => hforms f (List.mem_cons_of_mem form hf)
      obtain ⟨u, hu⟩ := (hforms form List.mem_cons_self).exists_units? forms.flatten
      exact ⟨u :: units, by rw [List.flatten_cons, hu, hunits, Option.map_some]⟩

/-! ### Texts -/

lemma isSome_decode?_iff {bytes : Bytes} : (decode? bytes).isSome = true ↔ AreUnitForms bytes := by
  rw [← exists_units?_iff, decode?_eq, decodeUnits?, Option.isSome_map, Option.isSome_iff_exists]

/-- The text that forms of units spell. -/
def AreUnitForms.text {bytes : Bytes} (h : AreUnitForms bytes) : String :=
  (decode? bytes).get (isSome_decode?_iff.2 h)

lemma AreUnitForms.decode?_eq_some {bytes : Bytes} (h : AreUnitForms bytes) :
    decode? bytes = some h.text :=
  (Option.some_get _).symm

/-- Every sequence of units is read back from its written form as the characters that it stands for,
and so is every text. Bytes are refused if they are no forms of units, and only then. Bytes that are
ASCII and not zero may be read either way. -/
theorem decoding_exact :
    (∀ units : List UInt16, ∃ stretches, Splits units stretches) ∧
    (∀ (units : List UInt16) (stretches : List Stretch), Splits units stretches →
      decode? (encode units) = some (String.ofList (stretches.map Stretch.shown))) ∧
    (∀ text : String, decode? (encode (text.toList.flatMap unitsOf)) = some text) ∧
    (∀ bytes : Bytes, decode? bytes = none ↔ ¬AreUnitForms bytes) ∧
    (∀ bytes : Bytes, (∀ b ∈ bytes, 0x01 ≤ b.toNat ∧ b.toNat ≤ 0x7F) →
      decode? bytes = Utf8.decode? bytes ∧ Utf8.decode? bytes = decodeUnits? bytes) := by
  have hread : ∀ (units : List UInt16) (stretches : List Stretch), Splits units stretches →
      decode? (encode units) = some (String.ofList (stretches.map Stretch.shown)) := by
    intro units stretches h
    rw [decode?_encode, textOf, ofUnits_of_splits h]
  refine ⟨exists_splits, hread, fun text => ?_, fun bytes => ?_, fun bytes h => ?_⟩
  · have hsplits : Splits (text.toList.flatMap unitsOf) (text.toList.map Stretch.char) := by
      constructor
      · rw [List.flatMap_map]
        rfl
      · rw [List.isChain_map]
        exact List.isChain_iff_forall_rel_of_append_cons_cons.2 fun _ _ _ _ _ => trivial
    rw [hread _ _ hsplits, List.map_map]
    show some (String.ofList (text.toList.map id)) = _
    rw [List.map_id, String.ofList_toList]
  · rw [← isSome_decode?_iff, Option.not_isSome_iff_eq_none]
  · exact ⟨if_pos (isAscii_iff.2 h), decode?_of_forall h⟩

/-- A NUL, a two-byte `A`, which is longer than needed, a pair of surrogates and a lone one. -/
example : decode? [0xC0, 0x80, 0xC1, 0x81, 0xED, 0xA0, 0xBD, 0xED, 0xB8, 0x80, 0xED, 0xA0, 0xBD] =
    some "\x00A😀\uFFFD" := by
  decide +kernel

end ModifiedUtf8
end ClassFile
end ClasspathAudit
