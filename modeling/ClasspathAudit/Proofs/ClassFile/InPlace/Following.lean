import ClasspathAudit.ClassFile.InPlace.Reader
import ClasspathAudit.Proofs.ClassFile.Inversion

/-
# Readings follow decoders

A reading follows a decoder if it comes to what the decoder comes to on the bytes that are left:
to a value and a reader farther on in the same stretch, or to a refusal. So it neither overflows a
word nor asks for bytes that are not there, and as decoders do, it always ends.

What carries this through is that every reader holds a stretch of the file and has its place in it,
or at its end. Hence offsets are at most the length of the file, which is a word.
-/
namespace ClasspathAudit
namespace ClassFile
namespace InPlace
open Decoder (Gives)

variable {α β γ δ : Type} {file : Bytes} {r r' : Reader}

/-! ### Readers in a file -/

/-- What a reader has left of its stretch. -/
def Reader.rest (r : Reader) : Window :=
  ⟨r.bytes.drop r.position.toNat, r.position.toNat, r.base.toNat⟩

/-- Whether a reader has its place in a stretch of a file that memory can hold. -/
structure Reader.In (r : Reader) (file : Bytes) : Prop where
  fits : file.length < 2 ^ 64
  stretch : (file.drop r.base.toNat).take r.bytes.length = r.bytes
  end_le : r.base.toNat + r.bytes.length ≤ file.length
  position_le : r.position.toNat ≤ r.bytes.length

/-- Whether a reader is in the stretch of another, and not before it. -/
structure Reader.Before (r r' : Reader) : Prop where
  bytes : r'.bytes = r.bytes
  base : r'.base = r.base
  position_le : r.position.toNat ≤ r'.position.toNat

namespace Reader

lemma Before.refl (r : Reader) : r.Before r := ⟨rfl, rfl, Nat.le_refl _⟩

lemma Before.trans {r₁ r₂ r₃ : Reader} (h : r₁.Before r₂) (h' : r₂.Before r₃) : r₁.Before r₃ :=
  ⟨h'.bytes.trans h.bytes, h'.base.trans h.base, Nat.le_trans h.position_le h'.position_le⟩

lemma in_ofBytes (h : file.length < 2 ^ 64) : (ofBytes file).In file where
  fits := h
  stretch := List.take_length
  end_le := by simp [ofBytes]
  position_le := Nat.zero_le _

lemma length_rest_le : r.rest.rest.length ≤ r.bytes.length := by
  rw [rest, List.length_drop]
  exact Nat.sub_le _ _

lemma length_rest : r.rest.rest.length = r.bytes.length - r.position.toNat := List.length_drop

namespace In

variable (hr : r.In file)

include hr

lemma offset_le : r.rest.offset ≤ file.length := by
  have hend := hr.end_le
  have hposition := hr.position_le
  show r.base.toNat + r.position.toNat ≤ _
  omega

lemma toNat_size : r.size.toNat = r.bytes.length := by
  have hend := hr.end_le
  have hfits := hr.fits
  rw [size, UInt64.toNat_ofNat', Nat.mod_eq_of_lt (by omega)]

/-- A reader that has moved on within its stretch. -/
lemma advance {position : UInt64} (hle : position.toNat ≤ r.bytes.length) :
    In { r with position := position } file :=
  ⟨hr.fits, hr.stretch, hr.end_le, hle⟩

/-- A reader of the front of what is left. -/
lemma front {bytes behind : Bytes} {base : UInt64} (hbase : base.toNat = r.rest.offset)
    (hrest : r.rest.rest = bytes ++ behind) : In ⟨bytes, 0, base⟩ file where
  fits := hr.fits
  stretch := by
    have hle : bytes.length ≤ r.bytes.length - r.position.toNat := by
      rw [← length_rest, hrest, List.length_append]
      exact Nat.le_add_right _ _
    have hfront : r.rest.rest.take bytes.length = bytes := by rw [hrest, List.take_left]
    have hsum : base.toNat = r.base.toNat + r.position.toNat := hbase
    have hdrop : r.rest.rest = (file.drop base.toNat).take (r.bytes.length - r.position.toNat) := by
      rw [hsum, ← List.drop_drop, ← List.drop_take, hr.stretch]
      rfl
    rwa [hdrop, List.take_take, Nat.min_eq_left hle] at hfront
  end_le := by
    have hend := hr.end_le
    have hposition := hr.position_le
    have hlength := r.length_rest
    rw [hrest, List.length_append] at hlength
    have hsum : base.toNat = r.base.toNat + r.position.toNat := hbase
    show base.toNat + bytes.length ≤ _
    omega
  position_le := Nat.zero_le _

end In
end Reader

/-! ### Refusals -/

/-- Whether a refusal points into the file and, if it says that bytes are missing, says how many:
the reader that fails has as many bytes fewer than it was asked for. -/
structure Refusal.Sound (refusal : Refusal) (file : Bytes) : Prop where
  offset_le : refusal.error.offset ≤ file.length
  truncated : ∀ needed, refusal.error.fault = .truncated needed → ∃ r count,
    refusal.read = some (r, count) ∧ r.In file ∧ refusal.error.offset = r.rest.offset ∧
    1 ≤ needed ∧ r.rest.rest.length + needed = count.toNat

/-- Whether a fault is that bytes are missing. -/
def isShortage : Fault → Bool
  | .truncated _ => true
  | _ => false

lemma sound_of_not_isShortage {e : Error} (hle : e.offset ≤ file.length)
    (hfault : isShortage e.fault = false) : Refusal.Sound ⟨e, none⟩ file where
  offset_le := hle
  truncated needed h := by
    rw [h] at hfault
    cases hfault

/-! ### Following -/

/-- Whether a reading does what a decoder does on the bytes that a reader has left, where `f` tells
which value of the decoder a value of the reading is. -/
structure Follows (file : Bytes) (r : Reader) (f : α → β) (m : Reading α) (d : Decoder β) :
    Prop where
  yields : ∀ {b w}, Gives d r.rest b w →
    ∃ a r', m r = .ok (a, r') ∧ f a = b ∧ r'.rest = w ∧ r'.In file ∧ r.Before r'
  refuses : ∀ {e}, d r.rest = .error e →
    ∃ refusal, m r = .error (.refused refusal) ∧ refusal.error = e ∧ refusal.Sound file

lemma follows_of_ok {f : α → β} {m : Reading α} {d : Decoder β} {a : α}
    (hm : m r = .ok (a, r')) (hd : d r.rest = .ok (f a, r'.rest)) (hr' : r'.In file)
    (hbefore : r.Before r') : Follows file r f m d where
  yields h := by
    rw [Gives, hd] at h
    cases h
    exact ⟨a, r', hm, rfl, rfl, hr', hbefore⟩
  refuses h := by
    rw [hd] at h
    cases h

lemma follows_of_error {f : α → β} {m : Reading α} {d : Decoder β} {refusal : Refusal}
    (hm : m r = .error (.refused refusal)) (hd : d r.rest = .error refusal.error)
    (hsound : refusal.Sound file) : Follows file r f m d where
  yields h := by
    rw [Gives, hd] at h
    cases h
  refuses h := by
    rw [hd] at h
    cases h
    exact ⟨refusal, hm, rfl, hsound⟩

lemma bind_of_ok {m : Reading α} {next : α → Reading γ} {a : α} (h : m r = .ok (a, r')) :
    (m >>= next) r = next a r' := by
  show (m r >>= fun x => next x.1 x.2) = _
  rw [h]
  rfl

lemma bind_of_error {m : Reading α} {next : α → Reading γ} {reason : Halt}
    (h : m r = .error reason) : (m >>= next) r = .error reason := by
  show (m r >>= fun x => next x.1 x.2) = _
  rw [h]
  rfl

lemma Follows.bind {f : α → β} {g : γ → δ} {m : Reading α} {d : Decoder β}
    {next' : α → Reading γ} {next : β → Decoder δ} (h : Follows file r f m d)
    (hnext : ∀ {a r'}, Gives d r.rest (f a) r'.rest → r'.In file → r.Before r' →
      Follows file r' g (next' a) (next (f a))) :
    Follows file r g (m >>= next') (d >>= next) where
  yields hb := by
    obtain ⟨b, w, hd, hb⟩ := hb.bind
    obtain ⟨a, r', hm, rfl, rfl, hr', hbefore⟩ := h.yields hd
    obtain ⟨c, r'', hc, hgc, hrest, hr'', hbefore'⟩ := (hnext hd hr' hbefore).yields hb
    exact ⟨c, r'', (bind_of_ok hm).trans hc, hgc, hrest, hr'', hbefore.trans hbefore'⟩
  refuses {e} he := by
    cases hd : d r.rest with
    | error e' =>
      rw [Decoder.bind_eq_of_error hd] at he
      cases he
      obtain ⟨refusal, hm, he, hsound⟩ := h.refuses hd
      exact ⟨refusal, bind_of_error hm, he, hsound⟩
    | ok x =>
      obtain ⟨b, w⟩ := x
      obtain ⟨a, r', hm, rfl, rfl, hr', hbefore⟩ := h.yields hd
      rw [Decoder.bind_eq_of_ok hd] at he
      obtain ⟨refusal, hnext, he, hsound⟩ := (hnext hd hr' hbefore).refuses he
      exact ⟨refusal, (bind_of_ok hm).trans hnext, he, hsound⟩

lemma Follows.congr {f : α → β} {m m' : Reading α} {d d' : Decoder β} (h : Follows file r f m d)
    (hm : m' r = m r) (hd : d' r.rest = d r.rest) : Follows file r f m' d' where
  yields hb := by
    rw [hm]
    exact h.yields (hd.symm.trans hb)
  refuses he := by
    rw [hm]
    exact h.refuses (hd.symm.trans he)

lemma follows_pure {f : α → β} {a : α} {b : β} (hr : r.In file) (h : f a = b) :
    Follows file r f (pure a) (pure b) :=
  follows_of_ok rfl (by rw [h]; rfl) hr (.refl r)

lemma Follows.map {f : α → β} {g : γ → δ} {m : Reading α} {d : Decoder β} {make' : α → γ}
    {make : β → δ} (h : Follows file r f m d) (hmake : ∀ a, g (make' a) = make (f a)) :
    Follows file r g (do let a ← m; return make' a) (do let b ← d; return make b) :=
  h.bind fun {a _} _ hr _ => follows_pure hr (hmake a)

lemma follows_failAt {f : α → β} {o : UInt64} {n : Nat} {fault : Fault} (ho : o.toNat = n)
    (hle : n ≤ file.length) (hfault : isShortage fault = false) :
    Follows file r f (failAt o fault) (Decoder.failAt n fault) := by
  subst ho
  exact follows_of_error rfl rfl (sound_of_not_isShortage hle hfault)

lemma follows_lift {x : Except Error α}
    (h : ∀ e, x = .error e → e.offset ≤ file.length ∧ isShortage e.fault = false) (hr : r.In file) :
    Follows file r id (lift x) (liftM x) := by
  cases x with
  | ok a => exact follows_pure hr rfl
  | error e =>
    obtain ⟨hle, hfault⟩ := h e rfl
    exact follows_of_error rfl rfl (sound_of_not_isShortage hle hfault)

/-! ### Places -/

lemma add_eq {a b : UInt64} (h : a.toNat + b.toNat < 2 ^ 64) : add a b = pure (a + b) :=
  if_pos h

lemma sub_eq {a b : UInt64} (h : b.toNat ≤ a.toNat) : sub a b = pure (a - b) :=
  if_pos h

lemma mul_eq {a b : UInt64} (h : a.toNat * b.toNat < 2 ^ 64) : mul a b = pure (a * b) :=
  if_pos h

lemma toNat_add {a b : UInt64} (h : a.toNat + b.toNat < 2 ^ 64) :
    (a + b).toNat = a.toNat + b.toNat := by
  rw [UInt64.toNat_add, Nat.mod_eq_of_lt h]

lemma toNat_mul {a b : UInt64} (h : a.toNat * b.toNat < 2 ^ 64) :
    (a * b).toNat = a.toNat * b.toNat := by
  rw [UInt64.toNat_mul, Nat.mod_eq_of_lt h]

lemma toNat_sub {a b : UInt64} (h : b.toNat ≤ a.toNat) : (a - b).toNat = a.toNat - b.toNat :=
  UInt64.toNat_sub_of_le _ _ (UInt64.le_iff_toNat_le.2 h)

lemma exists_offset (hr : r.In file) :
    ∃ o, offset r = .ok (o, r) ∧ o.toNat = r.rest.offset := by
  have hle := hr.offset_le
  have hfits := hr.fits
  have hsum : r.base.toNat + r.position.toNat < 2 ^ 64 := Nat.lt_of_le_of_lt hle hfits
  refine ⟨r.base + r.position, ?_, toNat_add hsum⟩
  show add r.base r.position r = _
  rw [add_eq hsum]
  rfl

lemma exists_remaining (hr : r.In file) :
    ∃ left, remaining r = .ok (left, r) ∧ left.toNat = r.rest.rest.length := by
  have hle : r.position.toNat ≤ r.size.toNat := by
    rw [hr.toNat_size]
    exact hr.position_le
  refine ⟨r.size - r.position, ?_, ?_⟩
  · show sub r.size r.position r = _
    rw [sub_eq hle]
    rfl
  · rw [toNat_sub hle, hr.toNat_size, r.length_rest]

lemma follows_offsetThen {f : γ → δ} {next' : UInt64 → Reading γ} {next : Nat → Decoder δ}
    (hr : r.In file)
    (h : ∀ o : UInt64, o.toNat = r.rest.offset → Follows file r f (next' o) (next r.rest.offset)) :
    Follows file r f (offset >>= next') (Decoder.offset >>= next) := by
  obtain ⟨o, hoffset, ho⟩ := exists_offset hr
  exact (h o ho).congr (bind_of_ok hoffset) rfl

/-- The offset is of no account to a reading that does not use it. -/
lemma Follows.offsetLeft {f : α → β} {m : Reading α} {next : Nat → Decoder β}
    (h : Follows file r f m (next r.rest.offset)) :
    Follows file r f m (Decoder.offset >>= next) :=
  h.congr rfl rfl

lemma follows_fail {f : α → β} {fault : Fault} (hr : r.In file)
    (hfault : isShortage fault = false) :
    Follows file r f (fail fault) (Decoder.fail fault) := by
  show Follows file r f _ (Decoder.offset >>= fun o => Decoder.failAt o fault)
  exact follows_offsetThen hr fun _ ho => follows_failAt ho hr.offset_le hfault

/-! ### Bytes -/

lemma take_of_le (hr : r.In file) {count : UInt64} (hle : count.toNat ≤ r.rest.rest.length) :
    ∃ r', take count r = .ok (r.rest.rest.take count.toNat, r') ∧
      r'.rest = ⟨r.rest.rest.drop count.toNat, r.rest.position + count.toNat, r.rest.base⟩ ∧
      r'.In file ∧ r.Before r' := by
  obtain ⟨left, hremaining, hleft⟩ := exists_remaining hr
  have hend := hr.end_le
  have hfits := hr.fits
  have hposition := hr.position_le
  have hlength := r.length_rest
  have hsum : r.position.toNat + count.toNat < 2 ^ 64 := by omega
  have hstop := toNat_add hsum
  have hnot : ¬left < count := by
    rw [UInt64.lt_iff_toNat_lt]
    omega
  have hslice : slice r.position (r.position + count) r =
      .ok (r.rest.rest.take count.toNat, r) := by
    have hbounds : r.position.toNat ≤ (r.position + count).toNat ∧
        (r.position + count).toNat ≤ r.bytes.length := by omega
    have hcount : (r.position + count).toNat - r.position.toNat = count.toNat := by omega
    have hrun : slice r.position (r.position + count) r =
        (pure ((r.bytes.drop r.position.toNat).take
          ((r.position + count).toNat - r.position.toNat)) : Reading Bytes) r := by
      show (ite _ _ _ : Reading Bytes) r = _
      rw [if_pos hbounds]
    rw [hrun, hcount]
    rfl
  refine ⟨{ r with position := r.position + count }, ?_, ?_, hr.advance (by omega),
    ⟨rfl, rfl, by show _ ≤ (r.position + count).toNat; omega⟩⟩
  · rw [take, bind_of_ok hremaining, if_neg hnot, bind_of_ok (show position r = .ok _ from rfl),
      add_eq hsum, pure_bind, bind_of_ok hslice]
    rfl
  · simp only [Reader.rest, hstop, List.drop_drop]

lemma take_of_lt (hr : r.In file) {count : UInt64} (hlt : r.rest.rest.length < count.toNat) :
    ∃ refusal, take count r = .error (.refused refusal) ∧
      refusal.error = ⟨r.rest.offset, .truncated (count.toNat - r.rest.rest.length)⟩ ∧
      refusal.Sound file := by
  obtain ⟨left, hremaining, hleft⟩ := exists_remaining hr
  obtain ⟨o, hoffset, ho⟩ := exists_offset hr
  have hless : left < count := by
    rw [UInt64.lt_iff_toNat_lt]
    omega
  have hneeded : (count - left).toNat = count.toNat - r.rest.rest.length := by
    rw [toNat_sub (by omega), hleft]
  refine ⟨⟨⟨o.toNat, .truncated (count - left).toNat⟩, some (r, count)⟩, ?_, ?_, ?_⟩
  · rw [take, bind_of_ok hremaining, if_pos hless, sub_eq (by omega), pure_bind, short,
      bind_of_ok hoffset]
    rfl
  · rw [ho, hneeded]
  · refine ⟨ho ▸ hr.offset_le, fun needed hfault => ⟨r, count, rfl, hr, ho, ?_⟩⟩
    cases hfault
    omega

lemma follows_take (hr : r.In file) (count : UInt64) :
    Follows file r id (take count) (Decoder.take count.toNat) := by
  rcases Nat.lt_or_ge r.rest.rest.length count.toNat with hlt | hle
  · obtain ⟨refusal, htake, herror, hsound⟩ := take_of_lt hr hlt
    refine follows_of_error htake ?_ hsound
    rw [herror]
    exact if_neg fun h => absurd ((Decoder.hasAtLeast_iff _ _).1 h) (Nat.not_le.2 hlt)
  · obtain ⟨r', htake, hrest, hr', hbefore⟩ := take_of_le hr hle
    refine follows_of_ok htake ?_ hr' hbefore
    rw [hrest]
    exact if_pos ((Decoder.hasAtLeast_iff _ _).2 hle)

lemma follows_skip (hr : r.In file) {count : UInt64} {n : Nat} (hn : count.toNat = n) :
    Follows file r id (skip count) (Decoder.skip n) := by
  subst hn
  exact (follows_take hr count).map fun _ => rfl

lemma byteAt_eq {bytes : Bytes} {i : UInt64} {b : UInt8} (h : bytes[i.toNat]? = some b) :
    byteAt bytes i = pure b := by
  rw [byteAt, h]

/-! ### Numbers -/

lemma follows_u1 (hr : r.In file) : Follows file r UInt8.toNat u1 Decoder.u1 := by
  refine (follows_take hr 1).bind fun {bytes r'} htake hr' _ => ?_
  obtain ⟨b, rfl⟩ := List.length_eq_one_iff.1 htake.take.1
  rw [byteAt_eq (b := b) rfl]
  exact follows_pure hr' (by simp [Decoder.ofBigEndian])

lemma offset_of_u1 {w w' : Window} {n : Nat} (h : Gives Decoder.u1 w n w') :
    w.offset + 1 = w'.offset := by
  obtain ⟨b, -, hover⟩ := h.u1
  rw [Window.offset, Window.offset, hover.position, hover.base]
  rfl

lemma follows_u2 (hr : r.In file) : Follows file r UInt16.toNat u2 Decoder.u2 := by
  refine (follows_take hr 2).bind fun {bytes r'} htake hr' _ => ?_
  obtain ⟨b₀, b₁, rfl⟩ := List.length_eq_two.1 htake.take.1
  rw [byteAt_eq (b := b₀) rfl, pure_bind, byteAt_eq (b := b₁) rfl, pure_bind]
  have hlt : Decoder.ofBigEndian [b₀, b₁] < 256 ^ 2 := Decoder.ofBigEndian_lt [b₀, b₁]
  exact follows_pure hr' (UInt16.toNat_ofNat'.trans (Nat.mod_eq_of_lt (by omega)))

lemma follows_u4 (hr : r.In file) : Follows file r UInt32.toNat u4 Decoder.u4 := by
  refine (follows_take hr 4).bind fun {bytes r'} htake hr' _ => ?_
  obtain ⟨b₀, b₁, b₂, b₃, rfl⟩ : ∃ b₀ b₁ b₂ b₃, bytes = [b₀, b₁, b₂, b₃] :=
    List.length_eq_four.1 htake.take.1
  rw [byteAt_eq (b := b₀) rfl, pure_bind, byteAt_eq (b := b₁) rfl, pure_bind,
    byteAt_eq (b := b₂) rfl, pure_bind, byteAt_eq (b := b₃) rfl, pure_bind]
  have hlt : Decoder.ofBigEndian [b₀, b₁, b₂, b₃] < 256 ^ 4 :=
    Decoder.ofBigEndian_lt [b₀, b₁, b₂, b₃]
  exact follows_pure hr' (UInt32.toNat_ofNat'.trans (Nat.mod_eq_of_lt (by omega)))

lemma follows_i4 (hr : r.In file) : Follows file r Int32.toInt i4 Decoder.i4 :=
  (follows_u4 hr).map fun n => by
    have hlt := n.toNat_lt
    have hbits : n.toInt32.toBitVec.toNat = n.toNat := rfl
    rw [Int32.toInt, BitVec.toInt_eq_toNat_cond, hbits, Decoder.signed32]
    split <;> split <;> omega

/-! ### Stretches and lists -/

lemma follows_windowThen {f : γ → δ} {next' : Reader → Reading γ} {next : Window → Decoder δ}
    (hr : r.In file) (count : UInt64)
    (h : ∀ {inner r'}, inner.In file → r'.In file → r.Before r' →
      Follows file r' f (next' inner) (next inner.rest)) :
    Follows file r f (window count >>= next') (Decoder.window count.toNat >>= next) := by
  simp only [window, Decoder.window, bind_assoc, pure_bind]
  refine follows_offsetThen hr fun o ho => ?_
  refine (follows_take hr count).bind fun {bytes r'} htake hr' hbefore => ?_
  have hinner : Reader.In ⟨bytes, 0, o⟩ file := hr.front ho htake.take.2.rest
  have hrest : Reader.rest ⟨bytes, 0, o⟩ = ⟨bytes, 0, r.rest.offset⟩ := by
    rw [← ho]
    rfl
  have hfollows := h hinner hr' hbefore
  rwa [hrest] at hfollows

lemma follows_prefixedThen {f : γ → δ} {next' : Reader → Reading γ} {next : Window → Decoder δ}
    (hr : r.In file)
    (h : ∀ {inner r'}, inner.In file → r'.In file → r.Before r' →
      Follows file r' f (next' inner) (next inner.rest)) :
    Follows file r f (prefixedWindow >>= next') (Decoder.prefixedWindow >>= next) := by
  simp only [prefixedWindow, Decoder.prefixedWindow, bind_assoc]
  refine (follows_u4 hr).bind fun {count r'} _ hr' hbefore => ?_
  have hcount : count.toUInt64.toNat = count.toNat := UInt32.toNat_toUInt64 count
  rw [← hcount]
  exact follows_windowThen hr' _ fun hinner hr'' hbefore' =>
    h hinner hr'' (hbefore.trans hbefore')

lemma follows_within {f : α → β} {inner : Reader} {m : Reading α} {d : Decoder β}
    (h : Follows file inner f m d) (hr : r.In file) :
    Follows file r f (within inner m) (Decoder.within inner.rest d) where
  yields {b w} hb := by
    rw [Gives, Decoder.within] at hb
    cases hd : d inner.rest with
    | error e =>
      rw [hd] at hb
      cases hb
    | ok x =>
      rw [hd] at hb
      cases hb
      obtain ⟨a, r', hm, hab, -⟩ := h.yields hd
      exact ⟨a, r, by rw [within, hm], hab, rfl, hr, .refl r⟩
  refuses {e} he := by
    rw [Decoder.within] at he
    cases hd : d inner.rest with
    | error e' =>
      rw [hd] at he
      cases he
      obtain ⟨refusal, hm, herror, hsound⟩ := h.refuses hd
      exact ⟨refusal, by rw [within, hm], herror, hsound⟩
    | ok x =>
      rw [hd] at he
      cases he

lemma follows_repeated {m : Reading (List α)} {d : Decoder (List α)} (hr : r.In file)
    (count : Nat) (h : ∀ {r'}, r'.In file → r.Before r' → Follows file r' id m d) :
    Follows file r id (repeated count m) (Decoder.repeated count d) := by
  induction count generalizing r with
  | zero => exact follows_pure hr rfl
  | succ count ih =>
    refine (h hr (.refl r)).bind fun {found r'} _ hr' hbefore => ?_
    have hmore := ih hr' fun hr'' hbefore' => h hr'' (hbefore.trans hbefore')
    exact hmore.map fun _ => rfl

lemma follows_counted {m : Reading (List α)} {d : Decoder (List α)} (hr : r.In file)
    (h : ∀ {r'}, r'.In file → r.Before r' → Follows file r' id m d) :
    Follows file r id (counted m) (Decoder.counted d) :=
  (follows_u2 hr).bind fun _ hr' hbefore =>
    follows_repeated hr' _ fun hr'' hbefore' => h hr'' (hbefore.trans hbefore')

lemma Follows.withBudget {f : α → β} {reading : Nat → Reading α} {d : Decoder β}
    (h : Follows file r f (reading (r.bytes.length + 1)) d) :
    Follows file r f (withBudget reading) d :=
  h.congr rfl rfl

end InPlace
end ClassFile
end ClasspathAudit
