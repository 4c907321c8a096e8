import Mathlib.Algebra.Group.Nat.Defs
import Mathlib.Tactic.Common
import ClasspathAudit.ClassFile.Decoder

/-
# What decoders read

A decoder *reads* some bytes as a value if, with these bytes at the front of a window, it passes
over exactly them and gives the value, whatever stands behind them. Reading composes along the
composition of decoders, so the decoder of a structure is known once the decoders of its parts are.

The bytes of a structure are written by the functions at the head of this file: numbers with the
most significant byte first, and lists behind the number of their members.
-/
namespace ClasspathAudit
namespace ClassFile

/-! ### Writing numbers and lists -/

/-- The last `width` bytes of a number, the most significant byte first. -/
def bigEndian : Nat → Nat → Bytes
  | 0, _ => []
  | width + 1, n => bigEndian width (n / 256) ++ [UInt8.ofNat n]

/-- A number in two bytes. -/
def twoBytes (n : Nat) : Bytes := bigEndian 2 n

/-- A number in four bytes. -/
def fourBytes (n : Nat) : Bytes := bigEndian 4 n

/-- A list behind the number of its members, which takes two bytes. -/
def table {α : Type} (write : α → Bytes) (items : List α) : Bytes :=
  twoBytes items.length ++ items.flatMap write

@[simp] lemma length_bigEndian (width n : Nat) : (bigEndian width n).length = width := by
  induction width generalizing n with
  | zero => rfl
  | succ width ih => simp [bigEndian, ih]

lemma length_flatMap_of_forall {α : Type} {write : α → Bytes} (size : Nat)
    (h : ∀ x, (write x).length = size) (items : List α) :
    (items.flatMap write).length = items.length * size := by
  induction items with
  | nil => simp
  | cons x items ih =>
    rw [List.flatMap_cons, List.length_append, h, ih, List.length_cons, Nat.succ_mul, Nat.add_comm]

@[simp] lemma length_twoBytes (n : Nat) : (twoBytes n).length = 2 := length_bigEndian 2 n

@[simp] lemma length_fourBytes (n : Nat) : (fourBytes n).length = 4 := length_bigEndian 4 n

namespace Decoder

lemma ofBigEndian_concat (bytes : Bytes) (b : UInt8) :
    ofBigEndian (bytes ++ [b]) = 256 * ofBigEndian bytes + b.toNat := by
  simp [ofBigEndian]

lemma ofBigEndian_bigEndian {width n : Nat} (h : n < 256 ^ width) :
    ofBigEndian (bigEndian width n) = n := by
  induction width generalizing n with
  | zero =>
    have : n = 0 := by simpa using h
    subst this
    rfl
  | succ width ih =>
    have hdiv : n / 256 < 256 ^ width := by
      rw [Nat.div_lt_iff_lt_mul (by omega), ← Nat.pow_succ]
      exact h
    rw [bigEndian, ofBigEndian_concat, ih hdiv, UInt8.toNat_ofNat']
    omega

/-! ### Reading -/

variable {α β : Type}

lemma bind_eq_of_ok {d : Decoder α} {f : α → Decoder β} {w w' : Window} {a : α}
    (h : d w = .ok (a, w')) : (d >>= f) w = f a w' := by
  simp only [bind, StateT.bind, Except.bind, h]

lemma bind_eq_of_error {d : Decoder α} {f : α → Decoder β} {w : Window} {e : Error}
    (h : d w = .error e) : (d >>= f) w = .error e := by
  simp only [bind, StateT.bind, Except.bind, h]

/-- With the given number of bytes of the window behind it, the decoder passes over exactly `bytes`
and gives `a`. -/
def ReadsAt (position : Nat) (d : Decoder α) (bytes : Bytes) (a : α) : Prop :=
  ∀ rest base, d ⟨bytes ++ rest, position, base⟩ = .ok (a, ⟨rest, position + bytes.length, base⟩)

/-- Anywhere in a window, the decoder passes over exactly `bytes` and gives `a`. -/
def Reads (d : Decoder α) (bytes : Bytes) (a : α) : Prop :=
  ∀ position, ReadsAt position d bytes a

/-- Given a window of exactly `bytes`, the decoder gives `a`. It may leave some of them. -/
def Finds (d : Decoder α) (bytes : Bytes) (a : α) : Prop :=
  ∀ base, ∃ w, d ⟨bytes, 0, base⟩ = .ok (a, w)

lemma ReadsAt.finds {d : Decoder α} {bytes : Bytes} {a : α} (h : ReadsAt 0 d bytes a) :
    Finds d bytes a := by
  intro base
  have hd := h [] base
  rw [List.append_nil] at hd
  exact ⟨_, hd⟩

lemma Reads.finds {d : Decoder α} {bytes : Bytes} {a : α} (h : Reads d bytes a) :
    Finds d bytes a :=
  (h 0).finds

/-! ### Composition -/

lemma readsAt_pure (position : Nat) (a : α) : ReadsAt position (pure a) [] a := fun _ _ => rfl

lemma reads_pure (a : α) : Reads (pure a) [] a := fun position => readsAt_pure position a

lemma finds_pure (bytes : Bytes) (a : α) : Finds (pure a) bytes a := fun _ => ⟨_, rfl⟩

lemma ReadsAt.bind {position : Nat} {d : Decoder α} {f : α → Decoder β} {bytes bytes' : Bytes}
    {a : α} {b : β} (hd : ReadsAt position d bytes a)
    (hf : ReadsAt (position + bytes.length) (f a) bytes' b) :
    ReadsAt position (d >>= f) (bytes ++ bytes') b := by
  intro rest base
  rw [List.append_assoc, bind_eq_of_ok (hd (bytes' ++ rest) base), hf rest base,
    List.length_append, Nat.add_assoc]

lemma Reads.bind {d : Decoder α} {f : α → Decoder β} {bytes bytes' : Bytes} {a : α} {b : β}
    (hd : Reads d bytes a) (hf : Reads (f a) bytes' b) : Reads (d >>= f) (bytes ++ bytes') b :=
  fun position => (hd position).bind (hf _)

/-- The last step may be one that passes over nothing. -/
lemma Reads.bindNil {d : Decoder α} {f : α → Decoder β} {bytes : Bytes} {a : α} {b : β}
    (hd : Reads d bytes a) (hf : Reads (f a) [] b) : Reads (d >>= f) bytes b := by
  have h := hd.bind hf
  rwa [List.append_nil] at h

lemma Reads.map {d : Decoder α} {f : α → β} {bytes : Bytes} {a : α} (hd : Reads d bytes a) :
    Reads (do let x ← d; return f x) bytes (f a) :=
  hd.bindNil (reads_pure (f a))

lemma Finds.map {d : Decoder α} {f : α → β} {bytes : Bytes} {a : α} (hd : Finds d bytes a) :
    Finds (do let x ← d; return f x) bytes (f a) := by
  intro base
  obtain ⟨w, hw⟩ := hd base
  exact ⟨w, bind_eq_of_ok hw⟩

/-- The offset serves errors alone, so nothing is known of it. -/
lemma ReadsAt.offset {position : Nat} {f : Nat → Decoder α} {bytes : Bytes} {a : α}
    (h : ∀ o, ReadsAt position (f o) bytes a) : ReadsAt position (Decoder.offset >>= f) bytes a :=
  fun rest base => h (base + position) rest base

lemma Reads.offset {f : Nat → Decoder α} {bytes : Bytes} {a : α}
    (h : ∀ o, Reads (f o) bytes a) : Reads (Decoder.offset >>= f) bytes a :=
  fun position => .offset fun o => h o position

lemma ReadsAt.position {position : Nat} {f : Nat → Decoder α} {bytes : Bytes} {a : α}
    (h : ReadsAt position (f position) bytes a) :
    ReadsAt position (Decoder.position >>= f) bytes a :=
  fun rest base => h rest base

lemma reads_liftM {x : Except Error α} {a : α} (h : x = .ok a) :
    Reads (liftM x : Decoder α) [] a := by
  subst h
  exact fun _ _ _ => rfl

/-! ### Bytes and numbers -/

lemma reads_take (bytes : Bytes) : Reads (take bytes.length) bytes bytes := by
  intro position rest base
  have h : hasAtLeast bytes.length (bytes ++ rest) = true := by simp [hasAtLeast_iff]
  simp [take, h]

lemma reads_skip {count : Nat} {bytes : Bytes} (h : bytes.length = count) :
    Reads (skip count) bytes () := by
  subst h
  exact (reads_take bytes).map (f := fun _ => ())

/-- The last step may be one that passes over bytes of no account. -/
lemma reads_skipReturn {count : Nat} {bytes : Bytes} (h : bytes.length = count) (a : α) :
    Reads (do skip count; return a) bytes a :=
  (reads_skip h).map (f := fun _ => a)

lemma reads_number {width n : Nat} (h : n < 256 ^ width) :
    Reads (do return ofBigEndian (← take width)) (bigEndian width n) n := by
  have hr := (reads_take (bigEndian width n)).map (f := ofBigEndian)
  rwa [length_bigEndian, ofBigEndian_bigEndian h] at hr

lemma reads_u1 (b : UInt8) : Reads u1 [b] b.toNat := by
  have hr := (reads_take [b]).map (f := ofBigEndian)
  have hb : ofBigEndian [b] = b.toNat := by simp [ofBigEndian]
  rwa [hb] at hr

lemma reads_u2 {n : Nat} (h : n < 2 ^ 16) : Reads u2 (twoBytes n) n :=
  reads_number (by omega)

lemma reads_u4 {n : Nat} (h : n < 2 ^ 32) : Reads u4 (fourBytes n) n :=
  reads_number (by omega)

lemma reads_i4 (n : Int32) : Reads i4 (fourBytes n.toUInt32.toNat) n.toInt := by
  have hr := (reads_u4 n.toUInt32.toNat_lt).map (f := signed32)
  have hn : signed32 n.toUInt32.toNat = n.toInt := by
    have hlt := n.toUInt32.toNat_lt
    have hn : n.toBitVec.toNat = n.toUInt32.toNat := rfl
    rw [Int32.toInt, BitVec.toInt_eq_toNat_cond, hn, signed32]
    split <;> split <;> omega
  rwa [hn] at hr

/-! ### Windows and lists -/

/-- A window behind its length is handed to a decoder, which need not use it up. -/
lemma Finds.prefixed {d : Decoder α} {bytes : Bytes} {a : α} (h : Finds d bytes a)
    (hlt : bytes.length < 2 ^ 32) :
    Reads (do let w ← prefixedWindow; within w d) (fourBytes bytes.length ++ bytes) a := by
  intro position rest base
  obtain ⟨w, hw⟩ := h (base + (position + 4))
  have hwindow : window bytes.length ⟨bytes ++ rest, position + 4, base⟩ =
      .ok (⟨bytes, 0, base + (position + 4)⟩, ⟨rest, position + 4 + bytes.length, base⟩) := by
    have hoffset : Decoder.offset ⟨bytes ++ rest, position + 4, base⟩ =
        .ok (base + (position + 4), ⟨bytes ++ rest, position + 4, base⟩) := rfl
    rw [window, bind_eq_of_ok hoffset, bind_eq_of_ok (reads_take bytes (position + 4) rest base)]
    rfl
  have hprefixed : prefixedWindow ⟨fourBytes bytes.length ++ (bytes ++ rest), position, base⟩ =
      .ok (⟨bytes, 0, base + (position + 4)⟩, ⟨rest, position + 4 + bytes.length, base⟩) := by
    have hcount := reads_u4 hlt position (bytes ++ rest) base
    rw [length_fourBytes] at hcount
    exact (bind_eq_of_ok hcount).trans hwindow
  rw [List.append_assoc, bind_eq_of_ok hprefixed, within, hw, List.length_append,
    length_fourBytes, Nat.add_assoc]

lemma reads_repeated {γ : Type} {d : Decoder (List β)} {write : γ → Bytes} {found : γ → List β}
    {items : List γ} (h : ∀ x ∈ items, Reads d (write x) (found x)) :
    Reads (repeated items.length d) (items.flatMap write) (items.flatMap found) := by
  induction items with
  | nil => exact reads_pure []
  | cons x items ih =>
    have hx : Reads d (write x) (found x) := h x (by simp)
    have hrest := ih fun y hy => h y (by simp [hy])
    exact hx.bind (hrest.map (f := fun more => found x ++ more))

lemma reads_counted {γ : Type} {d : Decoder (List β)} {write : γ → Bytes} {found : γ → List β}
    {items : List γ} (hlt : items.length < 2 ^ 16) (h : ∀ x ∈ items, Reads d (write x) (found x)) :
    Reads (counted d) (table write items) (items.flatMap found) :=
  (reads_u2 hlt).bind (reads_repeated h)

end Decoder
end ClassFile
end ClasspathAudit
