import ClasspathAudit.ClassFile.InPlace.Scan
import ClasspathAudit.Proofs.ClassFile.InPlace.Code
import ClasspathAudit.Proofs.ClassFile.WholeFormat

/-
# Reading in place is safe

Reading a class file in place comes to what decoding it comes to, whatever its bytes: to the class,
or to a refusal at an offset in the file. Along the way no word overflows and nothing is asked for
that is not there; in particular no reader looks beyond the stretch that its length gives it.
Annotations and values hold each other, but each begins with a byte of its own, so they nest no
deeper than there are bytes. The room that a machine has for the nesting itself is not modelled.

The main result is `scan_safe`.
-/
namespace ClasspathAudit
namespace ClassFile
namespace InPlace
open Decoder (Gives)

variable {α β γ δ : Type} {file : Bytes} {r r' : Reader} {pool : ConstantPool}

/-! ### Progress -/

/-- Whether a reading comes to a value and a reader farther on in the file, or to a refusal. -/
def Advances (file : Bytes) (r : Reader) (m : Reading α) : Prop :=
  (∃ a r', m r = .ok (a, r') ∧ r'.In file ∧ r.position.toNat < r'.position.toNat) ∨
  ∃ refusal, m r = .error (.refused refusal) ∧ refusal.Sound file

lemma Advances.congr {m m' : Reading α} (h : Advances file r m) (hm : m' r = m r) :
    Advances file r m' := by
  rwa [Advances, hm]

/-- The first step may be what takes the reader farther. -/
lemma Follows.bindAdvances {f : α → β} {g : γ → δ} {m : Reading α} {d : Decoder β}
    {next : α → Reading γ} (h : Follows file r f m d)
    (hfirst : ∀ {b w}, Gives d r.rest b w → r.rest.position < w.position)
    (hnext : ∀ {a r'}, Gives d r.rest (f a) r'.rest → r'.In file → r.Before r' →
      ∃ d', Follows file r' g (next a) d') :
    Advances file r (m >>= next) := by
  cases hd : d r.rest with
  | error e =>
    obtain ⟨refusal, hm, -, hsound⟩ := h.refuses hd
    exact .inr ⟨refusal, bind_of_error hm, hsound⟩
  | ok x =>
    obtain ⟨a, r', hm, hf, hrest, hr', hbefore⟩ := h.yields hd
    have hgives : Gives d r.rest (f a) r'.rest := by rw [Gives, hd, hf, hrest]
    have hlt : r.position.toNat < r'.position.toNat := hfirst hgives
    obtain ⟨d', hfollows⟩ := hnext hgives hr' hbefore
    cases hd' : d' r'.rest with
    | error e =>
      obtain ⟨refusal, hm', -, hsound⟩ := hfollows.refuses hd'
      exact .inr ⟨refusal, (bind_of_ok hm).trans hm', hsound⟩
    | ok x' =>
      obtain ⟨c, r'', hm', -, -, hr'', hbefore'⟩ := hfollows.yields hd'
      exact .inl ⟨c, r'', (bind_of_ok hm).trans hm', hr'',
        Nat.lt_of_lt_of_le hlt hbefore'.position_le⟩

lemma position_lt_of_over {w w' : Window} {front : Bytes} (h : w.Over front w')
    (hne : front ≠ []) : w.position < w'.position := by
  rw [h.position]
  exact Nat.lt_add_of_pos_right (List.length_pos_of_ne_nil hne)

/-! ### Annotations -/

lemma Reader.Before.length_le (h : r.Before r') : r'.rest.rest.length ≤ r.rest.rest.length := by
  have hle := h.position_le
  rw [length_rest, length_rest, h.bytes]
  omega

section Annotation

variable {m : Reading (List TypeUse)} {d : Decoder (List TypeUse)}

lemma follows_members (hr : r.In file)
    (h : ∀ {r'}, r'.In file → r.Before r' → Follows file r' id m d) (type : String) :
    Follows file r id
      (do let values ← counted do { skip 2; m }
          return .signature .annotationType type :: values)
      (do let values ← Decoder.counted do { Decoder.skip 2; d }
          return .signature .annotationType type :: values) := by
  have hmember : ∀ {r'}, r'.In file → r.Before r' →
      Follows file r' id (do skip 2; m) (do Decoder.skip 2; d) := fun hr' hbefore =>
    (follows_skip hr' rfl).bind fun _ hr'' hbefore' => h hr'' (hbefore.trans hbefore')
  exact (follows_counted hr hmember).map fun _ => rfl

lemma follows_annotationWith (hr : r.In file)
    (h : ∀ {r'}, r'.In file → r.Before r' → Follows file r' id m d) :
    Follows file r id (annotationWith pool m) (Annotations.decodeWith pool d) :=
  (follows_readUtf8 pool hr).bind fun _ hr' hbefore =>
    follows_members hr' (fun hr'' hbefore' => h hr'' (hbefore.trans hbefore')) _

lemma advances_annotationWith (hr : r.In file)
    (h : ∀ {r'}, r'.In file → r.Before r' → Follows file r' id m d) :
    Advances file r (annotationWith pool m) := by
  refine (follows_readUtf8 pool hr).bindAdvances ?_ fun {type _} _ hr' hbefore =>
    ⟨_, follows_members hr' (fun hr'' hbefore' => h hr'' (hbefore.trans hbefore')) type⟩
  intro text w htext
  obtain ⟨index, -, hover⟩ := htext.readIndex
  exact position_lt_of_over hover (by simp [twoBytes, bigEndian])

/-- What the decoder of a value does behind its tag, which is the code of `letter`. -/
def decodeTaggedValue (pool : ConstantPool) (value : Decoder (List TypeUse)) (letter : Char)
    (tag tagOffset : Nat) : Decoder (List TypeUse) := do
  match letter with
  | 'B' | 'C' | 'D' | 'F' | 'I' | 'J' | 'S' | 'Z' | 's' => do
    Decoder.skip 2
    return []
  | 'e' => do
    let type ← pool.readUtf8
    Decoder.skip 2
    return [.signature .annotationValue type]
  | 'c' => do
    let type ← pool.readUtf8
    return if type = "V" then [] else [.signature .annotationValue type]
  | '@' => Annotations.decodeWith pool value
  | '[' => Decoder.counted value
  | _ => Decoder.failAt tagOffset (.badElementTag tag)

/-- With no byte left, a value has no tag. -/
lemma decodeValue_zero {w : Window} (h : w.rest = []) :
    Annotations.decodeValue pool 0 w = Annotations.decodeValue pool 1 w := by
  obtain ⟨rest, position, base⟩ := w
  subst h
  rfl

lemma follows_taggedValue {tag : UInt8} {o : UInt64} {n : Nat} (hr : r.In file) (ho : o.toNat = n)
    (hle : n ≤ file.length) (h : ∀ {r'}, r'.In file → r.Before r' → Follows file r' id m d) :
    Follows file r id (taggedValue pool m tag o)
      (decodeTaggedValue pool d (Char.ofNat tag.toNat) tag.toNat n) := by
  unfold taggedValue
  generalize Char.ofNat tag.toNat = letter
  split
  -- behind the letters of constants stands an index that is passed over
  any_goals exact follows_skipReturn hr rfl []
  · exact (follows_readUtf8 pool hr).bind fun _ hr' _ => follows_skipReturn hr' rfl _
  · exact (follows_readUtf8 pool hr).map fun _ => rfl
  · exact follows_annotationWith hr h
  · exact follows_counted hr h
  · -- the decoder knows no other tag either
    rw [decodeTaggedValue]
    · exact follows_failAt ho hle rfl
    all_goals assumption

end Annotation

/-- The values in a value have fewer bytes, for its tag is one. -/
lemma follows_valueFrom_succ {budget budget' : Nat} (hr : r.In file)
    (h : ∀ {r'}, r'.In file → r'.rest.rest.length < r.rest.rest.length →
      Follows file r' id (valueFrom pool budget) (Annotations.decodeValue pool budget')) :
    Follows file r id (valueFrom pool (budget + 1)) (Annotations.decodeValue pool (budget' + 1)) ∧
      Advances file r (valueFrom pool (budget + 1)) := by
  obtain ⟨o, hoffset, ho⟩ := exists_offset hr
  have htagged : ∀ {tag : UInt8} {r' : Reader}, Gives Decoder.u1 r.rest tag.toNat r'.rest →
      r'.In file → r.Before r' →
        Follows file r' id (taggedValue pool (valueFrom pool budget) tag o)
          (decodeTaggedValue pool (Annotations.decodeValue pool budget') (Char.ofNat tag.toNat)
            tag.toNat r.rest.offset) := by
    intro tag r' htag hr' _
    refine follows_taggedValue hr' ho hr.offset_le fun {r''} hr'' hbefore => h hr'' ?_
    obtain ⟨b, -, hover⟩ := htag.u1
    have hle := hbefore.length_le
    rw [hover.rest, List.length_append, List.length_singleton]
    omega
  have hfollows : Follows file r id
      (u1 >>= fun tag => taggedValue pool (valueFrom pool budget) tag o)
      (Decoder.u1 >>= fun tag => decodeTaggedValue pool (Annotations.decodeValue pool budget')
        (Char.ofNat tag) tag r.rest.offset) :=
    (follows_u1 hr).bind htagged
  have hadvances : Advances file r
      (u1 >>= fun tag => taggedValue pool (valueFrom pool budget) tag o) := by
    refine (follows_u1 hr).bindAdvances ?_ fun htag hr' hbefore => ⟨_, htagged htag hr' hbefore⟩
    intro tag w htag
    obtain ⟨b, -, hover⟩ := htag.u1
    exact position_lt_of_over hover (List.cons_ne_nil b [])
  exact ⟨hfollows.congr (bind_of_ok hoffset) rfl, hadvances.congr (bind_of_ok hoffset)⟩

lemma follows_valueFrom : ∀ {budget budget' : Nat} {r : Reader}, r.In file →
    r.rest.rest.length < budget → r.rest.rest.length ≤ budget' →
      Follows file r id (valueFrom pool budget) (Annotations.decodeValue pool budget')
  | budget + 1, 0, r, hr, hbudget, hbudget' => by
    have hnil := List.length_eq_zero_iff.1 (Nat.le_zero.1 hbudget')
    refine Follows.congr ?_ rfl (decodeValue_zero hnil)
    refine (follows_valueFrom_succ hr fun _ hlt => ?_).1
    rw [hnil] at hlt
    exact absurd hlt (Nat.not_lt_zero _)
  | budget + 1, budget' + 1, r, hr, hbudget, hbudget' =>
    (follows_valueFrom_succ hr fun hr' hlt => follows_valueFrom hr' (by omega) (by omega)).1

/-- With a budget of more than the bytes that are left, reading a value or an annotation ends, and
either has passed over a byte or refuses the file. -/
lemma advances_of_lt {budget : Nat} (hr : r.In file) (hbudget : r.rest.rest.length < budget) :
    Advances file r (valueFrom pool budget) ∧
      Advances file r (annotationWith pool (valueFrom pool budget)) := by
  have hvalue : ∀ {r'}, r'.In file → r.Before r' → Follows file r' id (valueFrom pool budget)
      (Annotations.decodeValue pool budget) := fun hr' hbefore =>
    follows_valueFrom hr' (Nat.lt_of_le_of_lt hbefore.length_le hbudget)
      (Nat.le_of_lt (Nat.lt_of_le_of_lt hbefore.length_le hbudget))
  refine ⟨?_, advances_annotationWith hr hvalue⟩
  obtain ⟨k, rfl⟩ := Nat.exists_eq_succ_of_ne_zero (Nat.ne_zero_of_lt hbudget)
  have hnested : ∀ {r'}, r'.In file → r'.rest.rest.length < r.rest.rest.length →
      Follows file r' id (valueFrom pool k) (Annotations.decodeValue pool k) := fun hr' hlt =>
    follows_valueFrom hr' (by omega) (by omega)
  exact (follows_valueFrom_succ hr hnested).2

lemma follows_value (hr : r.In file) :
    Follows file r id (value pool) (Annotations.value pool) := by
  have hless := Nat.lt_succ_of_le r.length_rest_le
  exact .withBudget ((follows_valueFrom hr hless (Nat.le_refl _)).congr rfl rfl)

lemma follows_annotationOf (hr : r.In file) :
    Follows file r id (annotationOf pool) (Annotations.decode pool) :=
  follows_annotationWith hr fun hr' _ => follows_value hr'

lemma follows_annotationList (hr : r.In file) :
    Follows file r id (annotationList pool) (Annotations.list pool) :=
  follows_counted hr fun hr' _ => follows_annotationOf hr'

lemma follows_skipTarget (hr : r.In file) :
    Follows file r id skipTarget Annotations.skipTarget := by
  refine follows_offsetThen hr fun o ho => ?_
  refine (follows_u1 hr).bind fun {tag r'} _ hr' _ => ?_
  dsimp only
  split_ifs
  · exact follows_skip hr' rfl
  · exact follows_skip hr' rfl
  · exact follows_skip hr' rfl
  · exact follows_skip hr' rfl
  · exact follows_skip hr' rfl
  · refine (follows_u2 hr').bind fun {ranges _} _ hr'' _ => ?_
    have hranges : ranges.toUInt64.toNat = ranges.toNat := UInt16.toNat_toUInt64 ranges
    have hroom : ranges.toUInt64.toNat * (6 : UInt64).toNat = ranges.toNat * 6 := by
      rw [hranges]
      rfl
    have hlt := ranges.toNat_lt
    rw [mul_eq (by omega), pure_bind]
    exact follows_skip hr'' (by rw [toNat_mul (by omega), hroom])
  · exact follows_skip hr' rfl
  · exact follows_skip hr' rfl
  · exact follows_failAt ho hr.offset_le rfl

lemma follows_typeAnnotationList (hr : r.In file) :
    Follows file r id (typeAnnotationList pool) (Annotations.typeList pool) := by
  refine follows_counted hr fun hr' _ => ?_
  refine (follows_skipTarget hr').bind fun _ hr'' _ => ?_
  refine (follows_u1 hr'').bind fun {steps _} _ hr _ => ?_
  have hsteps : steps.toUInt64.toNat = steps.toNat := UInt8.toNat_toUInt64 steps
  have hroom : steps.toUInt64.toNat * (2 : UInt64).toNat = steps.toNat * 2 := by rw [hsteps]; rfl
  have hlt := steps.toNat_lt
  rw [mul_eq (by omega), pure_bind]
  refine (follows_skip hr ?_).bind fun _ hr _ => follows_annotationOf hr
  rw [toNat_mul (by omega), hroom]

lemma follows_ofAttribute (name : String) (hr : r.In file) :
    Follows file r id (ofAttribute pool name) (Annotations.ofAttribute pool name) := by
  unfold ofAttribute Annotations.ofAttribute
  split_ifs
  · exact follows_annotationList hr
  · exact follows_typeAnnotationList hr
  · exact follows_pure hr rfl

/-! ### Members -/

lemma follows_attributes {m : String → Reading (List α)} {d : String → Decoder (List α)}
    (hr : r.In file)
    (h : ∀ name {inner : Reader}, inner.In file → Follows file inner id (m name) (d name)) :
    Follows file r id (attributes pool m) (decodeAttributes pool d) := by
  refine follows_counted hr fun hr _ => ?_
  refine (follows_readUtf8 pool hr).bind fun {name _} _ hr _ => ?_
  exact follows_prefixedThen hr fun hinner hr _ => follows_within (h name hinner) hr

lemma follows_memberDetails {m : String → Reading (List TypeUse)}
    {d : String → Decoder (List TypeUse)} (kind : ReferenceKind) (descriptor : String)
    (hr : r.In file)
    (h : ∀ name {inner : Reader}, inner.In file → Follows file inner id (m name) (d name)) :
    Follows file r id (memberDetails pool kind descriptor m)
      (decodeDetails pool kind descriptor d) := by
  have hdetails : Follows file r id
      (attributes pool fun name => if name = "Signature" then signatureDetail pool
        else do return (← m name).map .mention)
      (decodeAttributes pool fun name => if name = "Signature" then MemberDetail.ofSignature pool
        else MemberDetail.ofMentions (d name)) := by
    refine follows_attributes hr fun name inner hinner => ?_
    split_ifs
    · exact (follows_readUtf8 pool hinner).map fun _ => rfl
    · exact (h name hinner).map fun _ => rfl
  exact hdetails.map fun _ => rfl

lemma follows_recordComponent (hr : r.In file) :
    Follows file r id (recordComponent pool) (decodeRecordComponent pool) := by
  refine (follows_skip hr rfl).bind fun _ hr _ => ?_
  refine (follows_readUtf8 pool hr).bind fun _ hr _ => ?_
  exact follows_memberDetails _ _ hr fun name _ hinner => follows_ofAttribute name hinner

lemma follows_field (hr : r.In file) : Follows file r id (field pool) (decodeField pool) := by
  refine (follows_skip hr rfl).bind fun _ hr _ => ?_
  refine (follows_readUtf8 pool hr).bind fun _ hr _ => ?_
  refine follows_memberDetails _ _ hr fun name inner hinner => ?_
  split_ifs
  · exact follows_readIndex (fun i _ => .fieldConstant pool i) hinner
  · exact follows_ofAttribute name hinner

lemma follows_localVariables (hr : r.In file) :
    Follows file r id (localVariables pool) (LocalVariable.decodeList pool) := by
  refine follows_counted hr fun hr _ => ?_
  refine (follows_u2 hr).bind fun _ hr _ => ?_
  refine (follows_skip hr rfl).bind fun _ hr _ => ?_
  refine (follows_readUtf8 pool hr).bind fun _ hr _ => ?_
  refine (follows_readUtf8 pool hr).bind fun _ hr _ => ?_
  exact (follows_u2 hr).map fun _ => rfl

lemma follows_codeDetail (name : String) (hr : r.In file) :
    Follows file r id (codeDetail pool name) (CodeDetail.decode pool name) := by
  unfold codeDetail CodeDetail.decode
  split_ifs
  · exact (follows_localVariables hr).map fun _ => rfl
  · exact (follows_localVariables hr).map fun _ => rfl
  · exact (follows_ofAttribute name hr).map fun _ => rfl

lemma follows_catchEntry (hr : r.In file) :
    Follows file r id (catchEntry pool) (decodeCatch pool) := by
  refine (follows_skip hr rfl).bind fun _ hr _ => ?_
  refine (follows_readClassName? pool hr).bind fun {name _} _ hr _ => ?_
  cases name <;> exact follows_pure hr rfl

lemma follows_code (hr : r.In file) : Follows file r id (code pool) (decodeCode pool) := by
  refine (follows_skip hr rfl).bind fun _ hr _ => ?_
  refine follows_prefixedThen hr fun hinner hr _ => ?_
  refine (follows_within (follows_sequence hinner) hr).bind fun _ hr _ => ?_
  refine (follows_counted hr fun hr _ => follows_catchEntry hr).bind fun _ hr _ => ?_
  exact (follows_attributes hr fun name _ hinner => follows_codeDetail name hinner).map fun _ => rfl

lemma follows_methodAttribute (name : String) (hr : r.In file) :
    Follows file r id (methodAttribute pool name) (decodeMethodAttribute pool name) := by
  unfold methodAttribute decodeMethodAttribute
  split_ifs
  · exact follows_counted hr fun hr _ => (follows_readClassName pool hr).map fun _ => rfl
  · exact follows_code hr
  · exact (follows_u1 hr).bind fun _ hr _ => follows_repeated hr _ fun hr _ =>
      follows_annotationList hr
  · exact follows_value hr
  · exact follows_ofAttribute name hr

lemma follows_method (hr : r.In file) : Follows file r id (method pool) (decodeMethod pool) := by
  refine (follows_skip hr rfl).bind fun _ hr _ => ?_
  refine (follows_readUtf8 pool hr).bind fun _ hr _ => ?_
  exact follows_memberDetails _ _ hr fun name _ hinner => follows_methodAttribute name hinner

/-! ### Classes -/

lemma follows_classAttribute (name : String) (hr : r.In file) :
    Follows file r id (classAttribute pool name) (decodeClassAttribute pool name) := by
  unfold classAttribute decodeClassAttribute
  split_ifs
  · exact (follows_readUtf8 pool hr).map fun _ => rfl
  · exact follows_counted hr fun hr _ => follows_recordComponent hr
  · exact follows_ofAttribute name hr

lemma follows_superclass (hr : r.In file) :
    Follows file r id (superclass pool) (decodeSuperclass pool) := by
  refine (follows_readClassName? pool hr).bind fun {name _} _ hr _ => ?_
  cases name <;> exact follows_pure hr rfl

lemma follows_body (hr : r.In file) : Follows file r id (body pool) (decodeBody pool) := by
  refine (follows_skip hr rfl).bind fun _ hr _ => ?_
  refine (follows_readClassName pool hr).bind fun _ hr _ => ?_
  refine (follows_superclass hr).bind fun _ hr _ => ?_
  refine (follows_counted hr fun hr _ => (follows_readClassName pool hr).map
    fun _ => rfl).bind fun _ hr _ => ?_
  refine (follows_counted hr fun hr _ => follows_field hr).bind fun _ hr _ => ?_
  refine (follows_counted hr fun hr _ => follows_method hr).bind fun _ hr _ => ?_
  exact (follows_attributes hr fun name _ hinner => follows_classAttribute name hinner).map
    fun _ => rfl

lemma follows_magic (hr : r.In file) : Follows file r id magic decodeMagic := by
  refine (follows_u4 hr).bind fun {number _} _ hr _ => ?_
  split_ifs
  · exact follows_pure hr rfl
  · exact follows_failAt rfl (Nat.zero_le _) rfl

/-- The major number is the last to be read, and ends at offset 8. -/
lemma follows_version (hr : r.In file) (hposition : 4 ≤ r.position.toNat) :
    Follows file r id version decodeVersion := by
  refine (follows_u2 hr).bind fun hminor hr' _ => ?_
  refine (follows_u2 hr').bind fun {major r''} hmajor hr'' _ => ?_
  split_ifs
  · exact follows_pure hr'' rfl
  · obtain ⟨minor, -, hover⟩ := hminor.u2
    obtain ⟨major, -, hover'⟩ := hmajor.u2
    have hread : r''.position.toNat = r.position.toNat + 2 + 2 := by
      have hpositions := (hover.trans hover').position
      rwa [List.length_append, length_twoBytes, length_twoBytes, ← Nat.add_assoc] at hpositions
    have hend := hr''.end_le
    have hle := hr''.position_le
    exact follows_failAt rfl (by omega) rfl

lemma position_of_decodeMagic {w w' : Window} (h : Gives decodeMagic w () w') :
    w'.position = w.position + 4 := by
  obtain ⟨number, m, hnumber, h⟩ := h.bind
  obtain ⟨bytes, htake, -⟩ := hnumber.map
  obtain ⟨hlength, hover⟩ := htake.take
  split_ifs at h
  · obtain ⟨-, rfl⟩ := h.pure
    rw [hover.position, hlength]
  · exact absurd h Decoder.not_gives_failAt

lemma follows_file (hr : r.In file) : Follows file r id InPlace.file decode := by
  refine (follows_magic hr).bind fun hmagic hr _ => ?_
  have hposition := Nat.le_of_eq (position_of_decodeMagic hmagic).symm
  refine (follows_version hr (Nat.le_trans (Nat.le_add_left _ _) hposition)).bind fun _ hr _ => ?_
  exact (follows_constantPool hr).bind fun _ hr _ => follows_body hr

/-! ### Safety -/

/-- Whatever the bytes of a file that memory can hold, reading it in place comes to a class or to a
refusal, the same as decoding it. So no word overflows, no bytes are asked for that are not there,
and each loop ends. A refusal is at an offset in the file, or at its end; if bytes are missing, the
reader that fails has as many fewer left than it was asked for. Values and annotations nest no
deeper than there are bytes left, for each that is read has passed over at least one. -/
theorem scan_safe (h : file.length < 2 ^ 64) :
    ((∃ c, InPlace.scan file = .ok c ∧ ClassFile.scan file = .ok c) ∨
      ∃ refusal, InPlace.scan file = .error (.refused refusal) ∧
        ClassFile.scan file = .error refusal.error ∧ refusal.Sound file) ∧
    ∀ (pool : ConstantPool) (r : Reader) (budget : Nat), r.In file →
      r.rest.rest.length < budget →
        Advances file r (valueFrom pool budget) ∧
        Advances file r (annotationWith pool (valueFrom pool budget)) := by
  refine ⟨?_, fun pool r budget hr hbudget => advances_of_lt hr hbudget⟩
  have hfollows := follows_file (Reader.in_ofBytes h)
  cases hd : decode (Window.ofBytes file) with
  | ok x =>
    obtain ⟨c, w⟩ := x
    obtain ⟨c', r', hm, hc, -⟩ := hfollows.yields hd
    obtain rfl : c' = c := hc
    exact .inl ⟨c', by rw [InPlace.scan, StateT.run, hm]; rfl, by
      rw [ClassFile.scan, StateT.run, hd]; rfl⟩
  | error e =>
    obtain ⟨refusal, hm, rfl, hsound⟩ := hfollows.refuses hd
    exact .inr ⟨refusal, by rw [InPlace.scan, StateT.run, hm]; rfl, by
      rw [ClassFile.scan, StateT.run, hd]; rfl, hsound⟩

/-- Without its last byte, the sample class lacks a byte of its last attribute. -/
theorem scan_safe_cutSample :
    (sampleClass.encode.take 355).length < 2 ^ 64 ∧
    (∃ refusal, InPlace.scan (sampleClass.encode.take 355) = .error (.refused refusal) ∧
      refusal.error = ⟨337, .truncated 1⟩ ∧ refusal.Sound (sampleClass.encode.take 355)) ∧
    (Reader.ofBytes (sampleClass.encode.take 355)).In (sampleClass.encode.take 355) ∧
    (Reader.ofBytes (sampleClass.encode.take 355)).rest.rest.length < 356 ∧
    Advances (sampleClass.encode.take 355) (.ofBytes (sampleClass.encode.take 355))
      (valueFrom sampleClass.pool 356) := by
  have hlength : (sampleClass.encode.take 355).length < 2 ^ 64 := by decide +kernel
  have hcut : ClassFile.scan (sampleClass.encode.take 355) = .error ⟨337, .truncated 1⟩ := by
    decide +kernel
  have hstart := Reader.in_ofBytes hlength
  have hbudget : (Reader.ofBytes (sampleClass.encode.take 355)).rest.rest.length < 356 := by
    decide +kernel
  obtain ⟨hscan, hadvances⟩ := scan_safe hlength
  refine ⟨hlength, ?_, hstart, hbudget, (hadvances sampleClass.pool _ 356 hstart hbudget).1⟩
  rcases hscan with ⟨c, -, hok⟩ | ⟨refusal, hrefused, herror, hsound⟩
  · rw [hcut] at hok
    cases hok
  · rw [hcut] at herror
    exact ⟨refusal, hrefused, (Except.error.inj herror).symm, hsound⟩

end InPlace
end ClassFile
end ClasspathAudit
