import Mathlib.Data.List.Induction
import ClasspathAudit.Proofs.ClassFile.PoolFormat
import ClasspathAudit.Proofs.Steps

/-
# What a decoder has passed over

Where a decoder gives a value, the bytes that it has passed over can be told from the value: numbers
are passed over in their written form, and a look-up that succeeds is one that the slots of the pool
bear out. This is the converse of reading, and goes through the composition of decoders from the
front.
-/
namespace ClasspathAudit
namespace ClassFile

/-! ### Written numbers -/

namespace Decoder

lemma ofBigEndian_lt (bytes : Bytes) : ofBigEndian bytes < 256 ^ bytes.length := by
  induction bytes using List.reverseRecOn with
  | nil => decide
  | append_singleton bytes b ih =>
    rw [ofBigEndian_concat, List.length_append, List.length_singleton, Nat.pow_succ]
    have hb := b.toNat_lt
    omega

lemma bigEndian_ofBigEndian (bytes : Bytes) :
    bigEndian bytes.length (ofBigEndian bytes) = bytes := by
  induction bytes using List.reverseRecOn with
  | nil => rfl
  | append_singleton bytes b ih =>
    have hb := b.toNat_lt
    have hdiv : (256 * ofBigEndian bytes + b.toNat) / 256 = ofBigEndian bytes := by omega
    have hlast : UInt8.ofNat (256 * ofBigEndian bytes + b.toNat) = b := by
      rw [← UInt8.toNat_inj, UInt8.toNat_ofNat']
      omega
    rw [ofBigEndian_concat, List.length_append, List.length_singleton, bigEndian, hdiv, hlast, ih]

end Decoder

lemma exists_twoBytes {bytes : Bytes} (h : bytes.length = 2) :
    ∃ n : UInt16, Decoder.ofBigEndian bytes = n.toNat ∧ bytes = twoBytes n.toNat := by
  have hlt := Decoder.ofBigEndian_lt bytes
  have hback := Decoder.bigEndian_ofBigEndian bytes
  rw [h] at hlt hback
  refine ⟨.ofNatLT (Decoder.ofBigEndian bytes) hlt, ?_, ?_⟩ <;> rw [UInt16.toNat_ofNatLT]
  exact hback.symm

lemma exists_twoBytes_append {bytes : Bytes} (h : bytes.length = 4) :
    ∃ m n : UInt16, bytes = twoBytes m.toNat ++ twoBytes n.toNat := by
  have htake : (bytes.take 2).length = 2 := by simp [h]
  have hdrop : (bytes.drop 2).length = 2 := by simp [h]
  obtain ⟨m, -, hm⟩ := exists_twoBytes htake
  obtain ⟨n, -, hn⟩ := exists_twoBytes hdrop
  exact ⟨m, n, by rw [← hm, ← hn, List.take_append_drop]⟩

lemma exists_fourBytes {bytes : Bytes} (h : bytes.length = 4) :
    ∃ n : UInt32, Decoder.ofBigEndian bytes = n.toNat ∧ bytes = fourBytes n.toNat := by
  have hlt := Decoder.ofBigEndian_lt bytes
  have hback := Decoder.bigEndian_ofBigEndian bytes
  rw [h] at hlt hback
  refine ⟨.ofNatLT (Decoder.ofBigEndian bytes) hlt, ?_, ?_⟩ <;> rw [UInt32.toNat_ofNatLT]
  exact hback.symm

/-- Bytes enough for a number of items of one size are the written form of as many items. -/
lemma exists_flatMap_of_length {α : Type} {write : α → Bytes} {size : Nat}
    (hwrite : ∀ bytes : Bytes, bytes.length = size → ∃ x, write x = bytes) :
    ∀ (count : Nat) {bytes : Bytes}, bytes.length = count * size →
      ∃ items : List α, items.length = count ∧ items.flatMap write = bytes
  | 0, bytes, h => by
    rw [Nat.zero_mul, List.length_eq_zero_iff] at h
    exact ⟨[], rfl, h.symm⟩
  | count + 1, bytes, h => by
    have hle : size ≤ bytes.length := by
      rw [h, Nat.succ_mul]
      omega
    obtain ⟨x, hx⟩ := hwrite (bytes.take size) (List.length_take_of_le hle)
    have hrest : (bytes.drop size).length = count * size := by
      rw [List.length_drop, h, Nat.succ_mul]
      omega
    obtain ⟨items, hcount, hitems⟩ := exists_flatMap_of_length hwrite count hrest
    exact ⟨x :: items, by rw [List.length_cons, hcount], by
      rw [List.flatMap_cons, hx, hitems, List.take_append_drop]⟩

/-! ### Windows -/

/-- Whether what is left of one window is what is left of another behind some bytes. -/
structure Window.Over (w : Window) (front : Bytes) (w' : Window) : Prop where
  rest : w.rest = front ++ w'.rest
  position : w'.position = w.position + front.length
  base : w'.base = w.base

lemma Window.Over.trans {w m w' : Window} {front front' : Bytes} (h : w.Over front m)
    (h' : m.Over front' w') : w.Over (front ++ front') w' where
  rest := by rw [h.rest, h'.rest, List.append_assoc]
  position := by rw [h'.position, h.position, List.length_append, Nat.add_assoc]
  base := h'.base.trans h.base

namespace Decoder

variable {α β : Type} {w w' : Window} {n : Nat}

/-- Whether a decoder gives `a` for a window and leaves another. -/
def Gives (d : Decoder α) (w : Window) (a : α) (w' : Window) : Prop :=
  d w = .ok (a, w')

/-! ### Composition -/

lemma Gives.bind {d : Decoder α} {f : α → Decoder β} {b : β} (h : Gives (d >>= f) w b w') :
    ∃ a m, Gives d w a m ∧ Gives (f a) m b w' := by
  change (d w >>= fun x => f x.1 x.2) = _ at h
  cases hd : d w with
  | error e =>
    rw [hd] at h
    cases h
  | ok x =>
    rw [hd] at h
    exact ⟨x.1, x.2, hd, h⟩

lemma Gives.andThen {d : Decoder α} {f : α → Decoder β} {a : α} {b : β} {m : Window}
    (h : Gives d w a m) (h' : Gives (f a) m b w') : Gives (d >>= f) w b w' :=
  (bind_eq_of_ok h).trans h'

lemma Gives.pure {a b : α} (h : Gives (pure a : Decoder α) w b w') : a = b ∧ w = w' := by
  cases h
  exact ⟨rfl, rfl⟩

lemma Gives.map {d : Decoder α} {f : α → β} {b : β}
    (h : Gives (do let a ← d; return f a) w b w') : ∃ a, Gives d w a w' ∧ f a = b := by
  obtain ⟨a, m, hd, hpure⟩ := h.bind
  obtain ⟨hb, rfl⟩ := hpure.pure
  exact ⟨a, hd, hb⟩

lemma Gives.lift {x : Except Error α} {a : α} (h : Gives (liftM x : Decoder α) w a w') :
    x = .ok a ∧ w = w' := by
  cases x with
  | error e => cases h
  | ok b =>
    cases h
    exact ⟨rfl, rfl⟩

/-- The offset serves errors alone. -/
lemma Gives.offset {f : Nat → Decoder α} {a : α} (h : Gives (Decoder.offset >>= f) w a w') :
    Gives (f w.offset) w a w' :=
  h

lemma Gives.position {f : Nat → Decoder α} {a : α} (h : Gives (Decoder.position >>= f) w a w') :
    Gives (f w.position) w a w' :=
  h

lemma not_gives_fail {fault : Fault} {a : α} : ¬Gives (fail fault) w a w' := by
  rintro ⟨⟩

lemma not_gives_failAt {o : Nat} {fault : Fault} {a : α} : ¬Gives (failAt o fault) w a w' := by
  rintro ⟨⟩

/-! ### Bytes and numbers -/

lemma Gives.take {bytes : Bytes} (h : Gives (take n) w bytes w') :
    bytes.length = n ∧ w.Over bytes w' := by
  simp only [Gives, Decoder.take] at h
  split at h
  · rename_i hcount
    rw [hasAtLeast_iff] at hcount
    cases h
    have hlength := List.length_take_of_le hcount
    exact ⟨hlength, (List.take_append_drop n w.rest).symm, by rw [hlength], rfl⟩
  · cases h

lemma Gives.skip (h : Gives (skip n) w () w') :
    ∃ bytes : Bytes, bytes.length = n ∧ w.Over bytes w' := by
  obtain ⟨bytes, htake, -⟩ := h.map
  exact ⟨bytes, htake.take⟩

lemma Gives.skipReturn {a b : α} (h : Gives (do Decoder.skip n; return a) w b w') :
    a = b ∧ ∃ bytes : Bytes, bytes.length = n ∧ w.Over bytes w' := by
  obtain ⟨_, hskip, rfl⟩ := h.map
  exact ⟨rfl, hskip.skip⟩

lemma skipReturn_eq_ok {a : α} (h : n ≤ w.rest.length) :
    (do skip n; return a) w = .ok (a, ⟨w.rest.drop n, w.position + n, w.base⟩) := by
  have htake : take n w = .ok (w.rest.take n, ⟨w.rest.drop n, w.position + n, w.base⟩) :=
    if_pos ((hasAtLeast_iff n w.rest).2 h)
  have hskip : skip n w = .ok ((), ⟨w.rest.drop n, w.position + n, w.base⟩) := bind_eq_of_ok htake
  exact bind_eq_of_ok hskip

lemma skipReturn_eq_error {a : α} (h : w.rest.length < n) :
    (do skip n; return a) w = .error ⟨w.offset, .truncated (n - w.rest.length)⟩ := by
  have htake : take n w = .error ⟨w.offset, .truncated (n - w.rest.length)⟩ :=
    if_neg fun hcount => absurd ((hasAtLeast_iff n w.rest).1 hcount) (Nat.not_le.2 h)
  simp only [skip, bind, StateT.bind, Except.bind, htake]

lemma Gives.u1 (h : Gives u1 w n w') : ∃ b : UInt8, n = b.toNat ∧ w.Over [b] w' := by
  obtain ⟨bytes, htake, rfl⟩ := h.map
  obtain ⟨hlength, hover⟩ := htake.take
  obtain ⟨b, rfl⟩ := List.length_eq_one_iff.1 hlength
  exact ⟨b, by simp [ofBigEndian], hover⟩

lemma Gives.u2 (h : Gives u2 w n w') :
    ∃ i : UInt16, n = i.toNat ∧ w.Over (twoBytes i.toNat) w' := by
  obtain ⟨bytes, htake, rfl⟩ := h.map
  obtain ⟨hlength, hover⟩ := htake.take
  obtain ⟨i, hi, rfl⟩ := exists_twoBytes hlength
  exact ⟨i, hi, hover⟩

lemma Gives.i4 {n : Int} (h : Gives i4 w n w') :
    ∃ i : Int32, n = i.toInt ∧ w.Over (fourBytes i.toUInt32.toNat) w' := by
  obtain ⟨m, hu4, rfl⟩ := h.map
  obtain ⟨bytes, htake, rfl⟩ := hu4.map
  obtain ⟨hlength, hover⟩ := htake.take
  obtain ⟨x, hx, rfl⟩ := exists_fourBytes hlength
  refine ⟨x.toInt32, ?_, by simpa using hover⟩
  have hlt := x.toNat_lt
  have hbits : x.toInt32.toBitVec.toNat = x.toNat := rfl
  rw [hx, Int32.toInt, BitVec.toInt_eq_toNat_cond, hbits, signed32]
  split <;> split <;> omega

end Decoder

/-! ### Look-ups -/

namespace ConstantPool

variable {pool : ConstantPool} {i o : Nat}

lemma slot_of_get {c : Constant} (h : pool.get i o = .ok c) :
    pool.slots[i]? = some c ∧ c ≠ .unusable := by
  rw [get] at h
  split at h
  · cases h
  · cases h
  · rename_i hne hslot
    obtain rfl := Except.ok.inj h
    exact ⟨hslot, hne⟩

lemma text?_of_utf8 {text : String} (h : pool.utf8 i o = .ok text) : pool.text? i = some text := by
  obtain ⟨c, hget, h⟩ := exists_of_bind_eq_ok h
  obtain ⟨hslot, -⟩ := slot_of_get hget
  cases c with
  | utf8 text' =>
    obtain rfl := Except.ok.inj h
    rw [text?, hslot]
  | _ => cases h

lemma className?_of_className {name : String} (h : pool.className i o = .ok name) :
    pool.className? i = some name := by
  obtain ⟨c, hget, h⟩ := exists_of_bind_eq_ok h
  obtain ⟨hslot, -⟩ := slot_of_get hget
  cases c with
  | classInfo j =>
    rw [className?, hslot]
    exact text?_of_utf8 h
  | _ => cases h

lemma descriptor?_of_nameAndType {name descriptor : String}
    (h : pool.nameAndType i o = .ok (name, descriptor)) : pool.descriptor? i = some descriptor := by
  obtain ⟨c, hget, h⟩ := exists_of_bind_eq_ok h
  obtain ⟨hslot, -⟩ := slot_of_get hget
  cases c with
  | nameAndType j k =>
    obtain ⟨name', hname, h⟩ := exists_of_bind_eq_ok h
    obtain ⟨descriptor', hdescriptor, h⟩ := exists_of_bind_eq_ok h
    cases h
    rw [descriptor?, hslot]
    exact Option.bind_eq_some_iff.2 ⟨_, text?_of_utf8 hname, text?_of_utf8 hdescriptor⟩
  | _ => cases h

lemma member?_of_memberRef {owner descriptor : String}
    (h : pool.memberRef i o = .ok (owner, descriptor)) :
    pool.member? i = some (owner, descriptor) := by
  obtain ⟨c, hget, h⟩ := exists_of_bind_eq_ok h
  obtain ⟨hslot, -⟩ := slot_of_get hget
  cases c with
  | memberRef j k =>
    obtain ⟨owner', howner, h⟩ := exists_of_bind_eq_ok h
    obtain ⟨⟨name, descriptor'⟩, htype, h⟩ := exists_of_bind_eq_ok h
    cases h
    rw [member?, hslot]
    simp [className?_of_className howner, descriptor?_of_nameAndType htype]
  | _ => cases h

lemma dynamic?_of_dynamicDescriptor {descriptor : String}
    (h : pool.dynamicDescriptor i o = .ok descriptor) : pool.dynamic? i = some descriptor := by
  obtain ⟨c, hget, h⟩ := exists_of_bind_eq_ok h
  obtain ⟨hslot, -⟩ := slot_of_get hget
  cases c with
  | dynamic j =>
    obtain ⟨⟨name, descriptor'⟩, htype, h⟩ := exists_of_bind_eq_ok h
    cases h
    rw [dynamic?, hslot]
    exact descriptor?_of_nameAndType htype
  | _ => cases h

end ConstantPool

/-! ### Indices -/

namespace Decoder

variable {pool : ConstantPool} {w w' : Window}

lemma Gives.readIndex {α : Type} {lookUp : Nat → Nat → Except Error α} {a : α}
    (h : Gives (ConstantPool.readIndex lookUp) w a w') :
    ∃ index : Index, lookUp index.toNat w.offset = .ok a ∧ w.Over (twoBytes index.toNat) w' := by
  obtain ⟨n, m, hindex, h⟩ := h.offset.bind
  obtain ⟨index, rfl, hover⟩ := hindex.u2
  obtain ⟨hlookUp, rfl⟩ := h.lift
  exact ⟨index, hlookUp, hover⟩

lemma Gives.className {name : String} (h : Gives pool.readClassName w name w') :
    ∃ index : Index, pool.HasClass index ∧
      (∀ kind, pool.nameUse kind index = [.internalName kind name]) ∧
      w.Over (twoBytes index.toNat) w' := by
  obtain ⟨index, hlookUp, hover⟩ := h.readIndex
  have hname := ConstantPool.className?_of_className hlookUp
  exact ⟨index, Option.isSome_of_eq_some hname, fun kind => by simp [ConstantPool.nameUse, hname],
    hover⟩

end Decoder
end ClassFile
end ClasspathAudit
