import Mathlib.Algebra.Group.Nat.Defs
import Mathlib.Tactic.Common
import ClasspathAudit.ClassFile.ModifiedUtf8

/-
# Writing modified UTF-8

Every UTF-16 unit has one written form: the units 1 to 7F take one byte, zero and the units up to
7FF take two, all others three. Halves of surrogate pairs are written like any other unit. Reading
gives back the units that were written, also where the bytes are read as ASCII.
-/
namespace ClasspathAudit
namespace ClassFile
namespace ModifiedUtf8

/-- The written form of a unit. -/
def encodeUnit (u : UInt16) : Bytes :=
  let n := u.toNat
  if 1 ≤ n ∧ n ≤ 0x7F then [UInt8.ofNat n]
  else if n ≤ 0x7FF then [UInt8.ofNat (0xC0 + n / 64), UInt8.ofNat (0x80 + n % 64)]
  else
    [UInt8.ofNat (0xE0 + n / 4096), UInt8.ofNat (0x80 + n / 64 % 64), UInt8.ofNat (0x80 + n % 64)]

/-- The written form of a sequence of units. -/
def encode (units : List UInt16) : Bytes :=
  units.flatMap encodeUnit

/-- The text that units stand for. -/
def textOf (units : List UInt16) : String :=
  String.ofList (ofUnits (units.map UInt16.toNat))

/-! ### The three forms -/

lemma toNat_byte {n : Nat} (h : n < 256) : (UInt8.ofNat n).toNat = n := by
  rw [UInt8.toNat_ofNat', Nat.mod_eq_of_lt h]

lemma isContinuation_iff : ∀ n < 256, n &&& 0xC0 = 0x80 ↔ 0x80 ≤ n ∧ n ≤ 0xBF := by
  decide +kernel

lemma continuation?_eq_some_iff {b : UInt8} {x : Nat} :
    continuation? b = some x ↔ 0x80 ≤ b.toNat ∧ b.toNat ≤ 0xBF ∧ x = b.toNat - 0x80 := by
  have hbits : b.toNat &&& 0x3F = b.toNat % 64 := Nat.and_two_pow_sub_one_eq_mod b.toNat 6
  have hb := b.toNat_lt
  rw [continuation?, hbits]
  by_cases h : b.toNat &&& 0xC0 = 0x80
  · obtain ⟨hlow, hhigh⟩ := (isContinuation_iff b.toNat hb).1 h
    rw [if_pos h, Option.some.injEq]
    omega
  · have hnot := mt (isContinuation_iff b.toNat hb).2 h
    rw [if_neg h]
    constructor
    · intro h
      cases h
    · rintro ⟨hlow, hhigh, -⟩
      exact absurd ⟨hlow, hhigh⟩ hnot

lemma continuation?_ofNat {n : Nat} (h : n < 64) :
    continuation? (UInt8.ofNat (0x80 + n)) = some n := by
  rw [continuation?_eq_some_iff, toNat_byte (by omega)]
  omega

/-- Bits put behind others add a number to a multiple. -/
lemma shiftLeft_or {n : Nat} (i a : Nat) (h : n < 2 ^ i) : a <<< i ||| n = a * 2 ^ i + n := by
  rw [← Nat.shiftLeft_add_eq_or_of_lt h, Nat.shiftLeft_eq]

lemma units?_oneByte {b : UInt8} (rest : Bytes) (h₁ : 0x01 ≤ b.toNat) (h₂ : b.toNat ≤ 0x7F) :
    units? (b :: rest) = (units? rest).map (b.toNat :: ·) := by
  rw [units?.eq_def]
  simp [h₁, h₂]

lemma units?_twoBytes {b b₂ : UInt8} {x : Nat} (rest : Bytes) (h₁ : 0xC0 ≤ b.toNat)
    (h₂ : b.toNat ≤ 0xDF) (hx : continuation? b₂ = some x) :
    units? (b :: b₂ :: rest) = (units? rest).map (((b.toNat - 0xC0) * 64 + x) :: ·) := by
  have hne : ¬b.toNat ≤ 0x7F := by omega
  have hbits : b.toNat &&& 0x1F = b.toNat % 32 := Nat.and_two_pow_sub_one_eq_mod b.toNat 5
  have hlow := continuation?_eq_some_iff.1 hx
  have hvalue : (b.toNat &&& 0x1F) <<< 6 ||| x = (b.toNat - 0xC0) * 64 + x := by
    rw [hbits, shiftLeft_or 6 _ (by omega)]
    omega
  simp [units?, h₁, h₂, hne, hx, hvalue]

lemma units?_threeBytes {b b₂ b₃ : UInt8} {x y : Nat} (rest : Bytes) (h₁ : 0xE0 ≤ b.toNat)
    (h₂ : b.toNat ≤ 0xEF) (hx : continuation? b₂ = some x) (hy : continuation? b₃ = some y) :
    units? (b :: b₂ :: b₃ :: rest) =
      (units? rest).map (((b.toNat - 0xE0) * 4096 + x * 64 + y) :: ·) := by
  have hne : ¬b.toNat ≤ 0x7F := by omega
  have hne' : ¬b.toNat ≤ 0xDF := by omega
  have hbits : b.toNat &&& 0x0F = b.toNat % 16 := Nat.and_two_pow_sub_one_eq_mod b.toNat 4
  have hmiddle := continuation?_eq_some_iff.1 hx
  have hlow := continuation?_eq_some_iff.1 hy
  have hvalue : (b.toNat &&& 0x0F) <<< 12 ||| x <<< 6 ||| y =
      (b.toNat - 0xE0) * 4096 + x * 64 + y := by
    have hshift : x <<< 6 = x * 64 := Nat.shiftLeft_eq x 6
    rw [Nat.or_assoc, shiftLeft_or 6 x (by omega), shiftLeft_or 12 _ (by omega), hbits]
    omega
  simp [units?, h₁, h₂, hne, hne', hx, hy, hvalue]

/-! ### Reading what was written -/

lemma units?_encodeUnit (u : UInt16) (rest : Bytes) :
    units? (encodeUnit u ++ rest) = (units? rest).map (u.toNat :: ·) := by
  have hu := u.toNat_lt
  rw [encodeUnit]
  split_ifs with hone htwo
  · have hb : (UInt8.ofNat u.toNat).toNat = u.toNat := toNat_byte (by omega)
    have hread := units?_oneByte (b := UInt8.ofNat u.toNat) rest (by omega) (by omega)
    rwa [hb] at hread
  · have hb : (UInt8.ofNat (0xC0 + u.toNat / 64)).toNat = 0xC0 + u.toNat / 64 :=
      toNat_byte (by omega)
    have hvalue : (0xC0 + u.toNat / 64 - 0xC0) * 64 + u.toNat % 64 = u.toNat := by omega
    have hread := units?_twoBytes (b := UInt8.ofNat (0xC0 + u.toNat / 64)) rest
      (by omega) (by omega) (continuation?_ofNat (n := u.toNat % 64) (by omega))
    rwa [hb, hvalue] at hread
  · have hb : (UInt8.ofNat (0xE0 + u.toNat / 4096)).toNat = 0xE0 + u.toNat / 4096 :=
      toNat_byte (by omega)
    have hvalue : (0xE0 + u.toNat / 4096 - 0xE0) * 4096 + u.toNat / 64 % 64 * 64 + u.toNat % 64 =
        u.toNat := by omega
    have hread := units?_threeBytes (b := UInt8.ofNat (0xE0 + u.toNat / 4096)) rest
      (by omega) (by omega) (continuation?_ofNat (n := u.toNat / 64 % 64) (by omega))
      (continuation?_ofNat (n := u.toNat % 64) (by omega))
    rwa [hb, hvalue] at hread

lemma units?_encode (units : List UInt16) :
    units? (encode units) = some (units.map UInt16.toNat) := by
  induction units with
  | nil => rfl
  | cons u units ih =>
    have h : encode (u :: units) = encodeUnit u ++ encode units := rfl
    rw [h, units?_encodeUnit, ih]
    rfl

/-! ### ASCII -/

lemma isAscii_iff {bytes : Bytes} :
    isAscii bytes = true ↔ ∀ b ∈ bytes, 0x01 ≤ b.toNat ∧ b.toNat ≤ 0x7F := by
  have hbyte : ∀ b : UInt8, (b != 0 && decide (b < 0x80)) = true ↔
      0x01 ≤ b.toNat ∧ b.toNat ≤ 0x7F := by
    intro b
    rw [Bool.and_eq_true, bne_iff_ne, ne_eq, ← UInt8.toNat_inj, decide_eq_true_iff,
      UInt8.lt_iff_toNat_lt]
    show ¬b.toNat = 0 ∧ b.toNat < 0x80 ↔ _
    omega
  simp only [isAscii, List.all_eq_true, hbyte]

lemma units?_of_forall {bytes : Bytes} (h : ∀ b ∈ bytes, 0x01 ≤ b.toNat ∧ b.toNat ≤ 0x7F) :
    units? bytes = some (bytes.map UInt8.toNat) := by
  induction bytes with
  | nil => rfl
  | cons b bytes ih =>
    obtain ⟨hlow, hhigh⟩ := h b List.mem_cons_self
    rw [units?_oneByte bytes hlow hhigh, ih fun x hx => h x (List.mem_cons_of_mem b hx)]
    rfl

lemma ofUnits_of_forall {units : List Nat} (h : ∀ u ∈ units, u < 0xD800) :
    ofUnits units = units.map Char.ofNat := by
  have hsmall : ∀ u < 0xD800, isHigh u = false ∧ isLow u = false := by
    intro u hu
    simp [isHigh, isLow]
    omega
  induction units with
  | nil => rfl
  | cons u units ih =>
    obtain ⟨hhigh, hlow⟩ := hsmall u (h u List.mem_cons_self)
    have hrest := ih fun x hx => h x (List.mem_cons_of_mem u hx)
    cases units with
    | nil => simp [ofUnits, hhigh, hlow]
    | cons v units => simp [ofUnits, hhigh, hlow, hrest]

lemma pieces_of_forall {bytes : Bytes} {budget : Nat} (hbudget : bytes.length ≤ budget)
    (h : ∀ b ∈ bytes, 0x01 ≤ b.toNat ∧ b.toNat ≤ 0x7F) :
    Utf8.pieces budget bytes = bytes.map fun b => some (Char.ofNat b.toNat) := by
  induction bytes generalizing budget with
  | nil => cases budget <;> rfl
  | cons b bytes ih =>
    obtain _ | budget := budget
    · cases hbudget
    · have hascii : b.toNat < 0x80 := by
        have := h b List.mem_cons_self
        omega
      have hrest := ih (Nat.le_of_succ_le_succ hbudget) fun x hx => h x (List.mem_cons_of_mem b hx)
      simp [Utf8.pieces, Utf8.after, hascii, hrest]

/-- ASCII characters other than zero are spelled in one way in UTF-8 and unit by unit. -/
lemma decode?_of_forall {bytes : Bytes} (h : ∀ b ∈ bytes, 0x01 ≤ b.toNat ∧ b.toNat ≤ 0x7F) :
    Utf8.decode? bytes = decodeUnits? bytes := by
  have hunits : ∀ u ∈ bytes.map UInt8.toNat, u < 0xD800 := by
    intro u hu
    obtain ⟨b, hb, rfl⟩ := List.mem_map.1 hu
    have := h b hb
    omega
  have hpieces : (bytes.map fun b => some (Char.ofNat b.toNat)).mapM id =
      some (bytes.map fun b => Char.ofNat b.toNat) := by
    rw [List.mapM_map]
    exact List.mapM_pure
  rw [Utf8.decode?, decodeUnits?, pieces_of_forall (Nat.le_refl _) h, units?_of_forall h,
    Option.map_some, ofUnits_of_forall hunits, hpieces, List.map_map]
  rfl

/-- Reading bytes as ASCII gives what reading them unit by unit gives. -/
lemma decode?_eq (bytes : Bytes) : decode? bytes = decodeUnits? bytes := by
  rw [decode?]
  split
  · rename_i hascii
    exact decode?_of_forall (isAscii_iff.1 hascii)
  · rfl

lemma decode?_encode (units : List UInt16) : decode? (encode units) = some (textOf units) := by
  rw [decode?_eq, decodeUnits?, units?_encode]
  rfl

end ModifiedUtf8
end ClassFile
end ClasspathAudit
