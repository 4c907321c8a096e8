import ClasspathAudit.Proofs.ClassFile.WholeFormat

/-
# Class files delimit themselves

A decoder delimits itself if the bytes that it passes over alone decide what it does. If it gives a
value, it gives the same value whatever stands behind these bytes, and with only some of them it
reports that bytes are missing. If it refuses the bytes for another reason, it refuses them whatever
follows. Delimitation is kept by the composition of decoders, and a window that has been split off
is decoded without regard to what stands behind it, so nothing need be known of the decoders of
windows: instructions and annotations look at the length of the window that they are in.

The main result is `scan_delimited`: the scan of a class file depends on the file alone and not on
what follows it, and each file that is cut short is recognised as such.
-/
namespace ClasspathAudit
namespace ClassFile

/-! ### Missing bytes -/

/-- Whether decoding ended because bytes are missing. -/
def IsTruncated {α : Type} (result : Except Error α) : Prop :=
  ∃ offset needed, result = .error ⟨offset, .truncated needed⟩

lemma IsTruncated.bind {α β : Type} {d : Decoder α} {w : Window} (h : IsTruncated (d w))
    (f : α → Decoder β) : IsTruncated ((d >>= f) w) := by
  obtain ⟨offset, needed, hd⟩ := h
  refine ⟨offset, needed, ?_⟩
  show (d w >>= fun x => f x.1 x.2) = _
  rw [hd]
  rfl

namespace Decoder

variable {α β : Type} {position base : Nat}

/-! ### Delimitation -/

/-- At a place of a window, the decoder passes over exactly `bytes` and gives `a`. With fewer of
these bytes it reports that bytes are missing. -/
structure Passes (d : Decoder α) (position base : Nat) (bytes : Bytes) (a : α) : Prop where
  ok : ∀ rest, d ⟨bytes ++ rest, position, base⟩ = .ok (a, ⟨rest, position + bytes.length, base⟩)
  truncated : ∀ n < bytes.length, IsTruncated (d ⟨bytes.take n, position, base⟩)

/-- Whether what a decoder does is decided by the bytes that it passes over: a value that it gives
belongs to bytes at the front of the window, and bytes that it refuses are refused whatever follows
them, unless some are missing. -/
structure Delimits (d : Decoder α) : Prop where
  passes : ∀ {position base bytes a w}, d ⟨bytes, position, base⟩ = .ok (a, w) →
    ∃ front back, bytes = front ++ back ∧ w = ⟨back, position + front.length, base⟩ ∧
      Passes d position base front a
  refuses : ∀ {position base bytes e}, d ⟨bytes, position, base⟩ = .error e →
    ¬IsTruncated (d ⟨bytes, position, base⟩) →
      ∀ rest, d ⟨bytes ++ rest, position, base⟩ = .error e

/-! ### Composition -/

lemma Passes.bind {d : Decoder α} {f : α → Decoder β} {bytes bytes' : Bytes} {a : α} {b : β}
    (hd : Passes d position base bytes a)
    (hf : Passes (f a) (position + bytes.length) base bytes' b) :
    Passes (d >>= f) position base (bytes ++ bytes') b := by
  constructor
  · intro rest
    rw [List.append_assoc, bind_eq_of_ok (hd.ok _), hf.ok, List.length_append, Nat.add_assoc]
  · intro n hn
    rcases Nat.lt_or_ge n bytes.length with hlt | hge
    · -- the bytes end within those of the first decoder
      rw [List.take_append_of_le_length (Nat.le_of_lt hlt)]
      exact (hd.truncated n hlt).bind f
    · obtain ⟨m, rfl⟩ := Nat.exists_eq_add_of_le hge
      rw [List.length_append] at hn
      rw [List.take_length_add_append, bind_eq_of_ok (hd.ok _)]
      exact hf.truncated m (by omega)

lemma delimits_pure (a : α) : Delimits (pure a : Decoder α) where
  passes h := by
    cases h
    exact ⟨[], _, rfl, rfl, fun _ => rfl, fun n hn => absurd hn (Nat.not_lt_zero n)⟩
  refuses h := by cases h

lemma Delimits.bind {d : Decoder α} {f : α → Decoder β} (hd : Delimits d)
    (hf : ∀ a, Delimits (f a)) : Delimits (d >>= f) where
  passes {position base bytes b w} h := by
    cases hdw : d ⟨bytes, position, base⟩ with
    | error e =>
      change (d ⟨bytes, position, base⟩ >>= fun x => f x.1 x.2) = _ at h
      rw [hdw] at h
      cases h
    | ok x =>
      obtain ⟨a, w'⟩ := x
      rw [bind_eq_of_ok hdw] at h
      obtain ⟨front, back, rfl, rfl, hpasses⟩ := hd.passes hdw
      obtain ⟨front', back', rfl, rfl, hpasses'⟩ := (hf a).passes h
      refine ⟨front ++ front', back', ?_, ?_, hpasses.bind hpasses'⟩
      · rw [List.append_assoc]
      · rw [List.length_append, Nat.add_assoc]
  refuses {position base bytes e} h htruncated rest := by
    cases hdw : d ⟨bytes, position, base⟩ with
    | error e' =>
      have hd' : ¬IsTruncated (d ⟨bytes, position, base⟩) := fun ht => htruncated (ht.bind f)
      change (d ⟨bytes, position, base⟩ >>= fun x => f x.1 x.2) = _ at h
      rw [hdw] at h
      show (d ⟨bytes ++ rest, position, base⟩ >>= fun x => f x.1 x.2) = _
      rw [hd.refuses hdw hd' rest]
      exact h
    | ok x =>
      obtain ⟨a, w'⟩ := x
      rw [bind_eq_of_ok hdw] at h htruncated
      obtain ⟨front, back, rfl, rfl, hpasses⟩ := hd.passes hdw
      rw [List.append_assoc, bind_eq_of_ok (hpasses.ok _)]
      exact (hf a).refuses h htruncated rest

lemma Delimits.map {d : Decoder α} (hd : Delimits d) (f : α → β) :
    Delimits (do let a ← d; return f a) :=
  hd.bind fun a => delimits_pure (f a)

/-! ### Steps -/

lemma delimits_take (count : Nat) : Delimits (take count) where
  passes {position base bytes a w} h := by
    rw [take] at h
    split at h
    · rename_i hcount
      rw [hasAtLeast_iff] at hcount
      cases h
      have hlength : (bytes.take count).length = count := List.length_take_of_le hcount
      refine ⟨bytes.take count, bytes.drop count, (List.take_append_drop count bytes).symm,
        by rw [hlength], fun rest => ?_, fun n hn => ?_⟩
      · have hread := reads_take (bytes.take count) position rest base
        rwa [hlength] at hread ⊢
      · -- fewer than `count` bytes are left of these
        rw [hlength] at hn
        have hless : ¬hasAtLeast count ((bytes.take count).take n) = true := by
          rw [hasAtLeast_iff, List.length_take, hlength]
          omega
        exact ⟨_, _, if_neg hless⟩
    · cases h
  refuses {position base bytes e} h htruncated := by
    rw [take] at h htruncated
    split at h
    · cases h
    · rename_i hcount
      exact absurd ⟨_, _, if_neg hcount⟩ htruncated

/-- A step that passes over nothing, and does the same whatever is left of the window. -/
lemma Delimits.of_eq {d : Decoder α} (result : Nat → Nat → Except Error α)
    (h : ∀ w, d w = (result w.position w.base).map fun a => (a, w)) : Delimits d where
  passes {position base bytes a w} hd := by
    rw [h] at hd
    cases hr : result position base with
    | error e =>
      rw [hr] at hd
      cases hd
    | ok b =>
      rw [hr] at hd
      cases hd
      exact ⟨[], bytes, rfl, rfl, fun rest => by rw [h, hr]; rfl,
        fun n hn => absurd hn (Nat.not_lt_zero n)⟩
  refuses {position base bytes e} hd _ rest := by
    rw [h] at hd ⊢
    cases hr : result position base with
    | error e' =>
      rw [hr] at hd
      cases hd
      rfl
    | ok b =>
      rw [hr] at hd
      cases hd

lemma delimits_offset : Delimits offset :=
  .of_eq (fun position base => .ok (base + position)) fun _ => rfl

lemma delimits_failAt (offset : Nat) (fault : Fault) : Delimits (failAt offset fault : Decoder α) :=
  .of_eq (fun _ _ => .error ⟨offset, fault⟩) fun _ => rfl

lemma delimits_fail (fault : Fault) : Delimits (fail fault : Decoder α) :=
  .of_eq (fun position base => .error ⟨base + position, fault⟩) fun _ => rfl

lemma delimits_liftM (x : Except Error α) : Delimits (liftM x : Decoder α) :=
  .of_eq (fun _ _ => x) fun _ => by cases x <;> rfl

/-- A window that has been split off is all that its decoder sees. -/
lemma delimits_within (window : Window) (d : Decoder α) : Delimits (within window d) := by
  refine .of_eq (fun _ _ => (d window).map Prod.fst) fun w => ?_
  rw [within]
  cases d window <;> rfl

lemma delimits_skip (count : Nat) : Delimits (skip count) :=
  (delimits_take count).map fun _ => ()

lemma delimits_u1 : Delimits u1 := (delimits_take 1).map ofBigEndian

lemma delimits_u2 : Delimits u2 := (delimits_take 2).map ofBigEndian

lemma delimits_u4 : Delimits u4 := (delimits_take 4).map ofBigEndian

lemma delimits_prefixedWindow : Delimits prefixedWindow :=
  delimits_u4.bind fun count => delimits_offset.bind fun base =>
    (delimits_take count).map fun bytes => (⟨bytes, 0, base⟩ : Window)

lemma delimits_repeated {d : Decoder (List α)} (hd : Delimits d) (count : Nat) :
    Delimits (repeated count d) := by
  induction count with
  | zero => exact delimits_pure []
  | succ count ih => exact hd.bind fun found => ih.map fun more => found ++ more

lemma delimits_counted {d : Decoder (List α)} (hd : Delimits d) : Delimits (counted d) :=
  delimits_u2.bind fun count => delimits_repeated hd count

end Decoder

open Decoder

/-! ### The constant pool -/

lemma Constant.delimits_decodeTagged (tag tagOffset : Nat) :
    Delimits (decodeTagged tag tagOffset) := by
  unfold decodeTagged
  split
  · refine delimits_u2.bind fun count => delimits_offset.bind fun start =>
      (delimits_take count).bind fun bytes => ?_
    split
    · exact delimits_pure _
    · exact delimits_failAt _ _
  · exact (delimits_skip 4).map _
  · exact (delimits_skip 4).map _
  · exact (delimits_skip 8).map _
  · exact (delimits_skip 8).map _
  · exact delimits_u2.map _
  · exact (delimits_skip 2).map _
  · exact delimits_u2.bind fun owner => delimits_u2.map _
  · exact delimits_u2.bind fun owner => delimits_u2.map _
  · exact delimits_u2.bind fun owner => delimits_u2.map _
  · exact delimits_u2.bind fun name => delimits_u2.map _
  · exact (delimits_skip 1).bind fun _ => delimits_u2.map _
  · exact delimits_u2.map _
  · exact (delimits_skip 2).bind fun _ => delimits_u2.map _
  · exact (delimits_skip 2).bind fun _ => delimits_u2.map _
  · exact (delimits_skip 2).map _
  · exact (delimits_skip 2).map _
  · exact delimits_failAt _ _

lemma Constant.delimits_decode : Delimits Constant.decode :=
  delimits_offset.bind fun _ => delimits_u1.bind fun _ => delimits_decodeTagged _ _

namespace ConstantPool

lemma delimits_decodeSlots (count free : Nat) : Delimits (decodeSlots count free) := by
  induction free using Nat.strongRecOn with
  | ind free ih =>
    cases free with
    | zero =>
      rw [decodeSlots]
      exact delimits_pure []
    | succ free =>
      rw [decodeSlots]
      refine Constant.delimits_decode.bind fun entry => ?_
      obtain ⟨constant, isWide⟩ := entry
      cases isWide with
      | false => exact (ih free (Nat.lt_succ_self _)).map _
      | true =>
        cases free with
        | zero => exact delimits_fail _
        | succ free => exact (ih free (by omega)).map _

lemma delimits_decode : Delimits ConstantPool.decode :=
  delimits_u2.bind fun count => (delimits_decodeSlots count _).map _

lemma delimits_readIndex {α : Type} (lookUp : Nat → Nat → Except Error α) :
    Delimits (readIndex lookUp) :=
  delimits_offset.bind fun _ => delimits_u2.bind fun _ => delimits_liftM _

end ConstantPool

/-! ### Classes -/

variable (pool : ConstantPool)

lemma delimits_decodeAttributes {α : Type} (body : String → Decoder (List α)) :
    Delimits (decodeAttributes pool body) :=
  delimits_counted <| (ConstantPool.delimits_readIndex _).bind fun _ =>
    delimits_prefixedWindow.bind fun _ => delimits_within _ _

/-- Of fields and methods alike, only the attributes are read in windows. -/
lemma delimits_member (kind : ReferenceKind) (body : String → Decoder (List TypeUse)) :
    Delimits (do
      skip 4
      let descriptor ← pool.readUtf8
      decodeDetails pool kind descriptor body) :=
  (delimits_skip 4).bind fun _ => (ConstantPool.delimits_readIndex _).bind fun _ =>
    (delimits_decodeAttributes pool _).map _

lemma delimits_decodeSuperclass : Delimits (decodeSuperclass pool) := by
  refine (ConstantPool.delimits_readIndex _).bind fun name => ?_
  cases name <;> exact delimits_pure _

lemma delimits_decodeBody : Delimits (decodeBody pool) :=
  (delimits_skip 2).bind fun _ => (ConstantPool.delimits_readIndex _).bind fun _ =>
    (delimits_decodeSuperclass pool).bind fun _ =>
    (delimits_counted ((ConstantPool.delimits_readIndex _).map _)).bind fun _ =>
    (delimits_counted (delimits_member pool _ _)).bind fun _ =>
    (delimits_counted (delimits_member pool _ _)).bind fun _ =>
    (delimits_decodeAttributes pool _).map _

lemma delimits_decodeMagic : Delimits decodeMagic := by
  refine delimits_u4.bind fun magic => ?_
  split
  · exact delimits_pure ()
  · exact delimits_failAt _ _

lemma delimits_decodeVersion : Delimits decodeVersion := by
  refine delimits_u2.bind fun minor => delimits_u2.bind fun major => ?_
  split
  · exact delimits_pure ()
  · exact delimits_failAt _ _

lemma delimits_decode : Delimits ClassFile.decode :=
  delimits_decodeMagic.bind fun _ => delimits_decodeVersion.bind fun _ =>
    ConstantPool.delimits_decode.bind fun pool => delimits_decodeBody pool

/-! ### Whole files -/

lemma isTruncated_scan_iff {bytes : Bytes} :
    IsTruncated (scan bytes) ↔ IsTruncated (ClassFile.decode (Window.ofBytes bytes)) := by
  rw [scan, StateT.run]
  cases ClassFile.decode (Window.ofBytes bytes) with
  | error e => simp [IsTruncated, Except.map]
  | ok x => simp [IsTruncated, Except.map]

/-- What follows a class file makes no difference to its scan, nor to the reason why bytes are
refused, unless some are missing. Of the bytes of a class file, some number decides the scan: with
fewer of them bytes are reported as missing, and the others are of no account. -/
theorem scan_delimited (bytes : Bytes) :
    (¬IsTruncated (scan bytes) → ∀ rest, scan (bytes ++ rest) = scan bytes) ∧
    ∀ c, scan bytes = .ok c → ∃ n ≤ bytes.length,
      (∀ k < n, IsTruncated (scan (bytes.take k))) ∧
      ∀ k, n ≤ k → k ≤ bytes.length → scan (bytes.take k) = scan bytes := by
  have hscan : ∀ {bytes x}, ClassFile.decode (Window.ofBytes bytes) = .ok x →
      scan bytes = .ok x.1 := fun h => by rw [scan, StateT.run, h]; rfl
  cases hdecode : ClassFile.decode (Window.ofBytes bytes) with
  | error e =>
    have herror : ∀ {bytes}, ClassFile.decode (Window.ofBytes bytes) = .error e →
        scan bytes = .error e := fun h => by rw [scan, StateT.run, h]; rfl
    refine ⟨fun htruncated rest => ?_, fun c hc => ?_⟩
    · rw [isTruncated_scan_iff] at htruncated
      rw [herror hdecode, herror (delimits_decode.refuses hdecode htruncated rest)]
    · rw [herror hdecode] at hc
      cases hc
  | ok x =>
    obtain ⟨c, w⟩ := x
    obtain ⟨front, back, rfl, -, hpasses⟩ := delimits_decode.passes hdecode
    have hfront : ∀ rest, scan (front ++ rest) = .ok c := fun rest => hscan (hpasses.ok rest)
    refine ⟨fun _ rest => ?_, fun _ _ => ⟨front.length, by simp, fun k hk => ?_, fun k hk _ => ?_⟩⟩
    · rw [List.append_assoc, hfront, hfront]
    · rw [isTruncated_scan_iff, List.take_append_of_le_length (Nat.le_of_lt hk)]
      exact hpasses.truncated k hk
    · obtain ⟨m, rfl⟩ := Nat.exists_eq_add_of_le hk
      rw [List.take_length_add_append, hfront, hfront]

theorem scan_delimited_sampleClass :
    ¬IsTruncated (scan sampleClass.encode) ∧
    (∃ c, scan sampleClass.encode = .ok c) ∧
    (∀ rest, scan (sampleClass.encode ++ rest) = scan sampleClass.encode) ∧
    ∃ n ≤ sampleClass.encode.length,
      (∀ k < n, IsTruncated (scan (sampleClass.encode.take k))) ∧
      ∀ k, n ≤ k → k ≤ sampleClass.encode.length →
        scan (sampleClass.encode.take k) = scan sampleClass.encode := by
  have hok : (scan sampleClass.encode).isOk = true := by decide +kernel
  cases hscan : scan sampleClass.encode with
  | error e =>
    rw [hscan] at hok
    cases hok
  | ok c =>
    have hwhole : ¬IsTruncated (scan sampleClass.encode) := by simp [IsTruncated, hscan]
    obtain ⟨happend, hprefix⟩ := scan_delimited sampleClass.encode
    rw [← hscan]
    exact ⟨hwhole, ⟨c, hscan⟩, happend hwhole, hprefix c hscan⟩

end ClassFile
end ClasspathAudit
