import Mathlib.Algebra.GroupWithZero.Nat
import ClasspathAudit.Proofs.ClassFile.Inversion
import ClasspathAudit.Proofs.ClassFile.TextDecoding

/-
# The slots of a constant pool

Bytes are a constant pool if they are a count and then entries that fill one slot less than the
count, slot 0 being nobody's. A long or double fills two slots, any other entry one. A pool is read
to the end of its last entry; then an index leads to the entry whose first slot it is, and the
indices that lead nowhere are 0, those from the count on, and the second slots of longs and doubles.

The main result is `decode_slots`. The entries that it speaks of are read from their bytes alone: a
text may be stored in any form that spells one, not only in the form in which it is written.
-/
namespace ClasspathAudit
namespace ClassFile

open Decoder

/-! ### Entries as they are stored -/

/-- An entry of the constant pool as it is stored: a text as bytes that spell it, any other entry as
it is written. -/
inductive StoredEntry
  | text (bytes : Bytes) (hlength : bytes.length < 2 ^ 16)
    (hforms : ModifiedUtf8.AreUnitForms bytes)
  | other (e : PoolEntry) (h : ∀ units, e ≠ .utf8 units)

namespace StoredEntry

/-- The bytes of an entry with its tag. -/
def bytes : StoredEntry → Bytes
  | text bytes _ _ => 1 :: (twoBytes bytes.length ++ bytes)
  | other e _ => e.encode

/-- What the first slot of an entry holds. -/
def constant : StoredEntry → Constant
  | text _ _ hforms => .utf8 hforms.text
  | other e _ => e.constant

/-- Whether an entry is a long or double. -/
def isWide : StoredEntry → Bool
  | text .. => false
  | other e _ => e.isWide

/-- The number of slots that an entry takes. -/
def width (e : StoredEntry) : Nat :=
  if e.isWide then 2 else 1

/-- The slots of an entry. -/
def slots (e : StoredEntry) : List Constant :=
  if e.isWide then [e.constant, .unusable] else [e.constant]

/-- The number of slots that entries take. -/
def slotCount (entries : List StoredEntry) : Nat :=
  (entries.map width).sum

lemma length_slots (e : StoredEntry) : e.slots.length = e.width := by
  rw [slots, width]
  split <;> rfl

lemma length_flatMap_slots (entries : List StoredEntry) :
    (entries.flatMap slots).length = slotCount entries := by
  rw [List.length_flatMap, slotCount]
  congr 1
  exact List.map_congr_left fun e _ => length_slots e

@[simp] lemma slotCount_nil : slotCount [] = 0 := rfl

@[simp] lemma slotCount_cons (e : StoredEntry) (entries : List StoredEntry) :
    slotCount (e :: entries) = e.width + slotCount entries := rfl

lemma constant_ne_unusable (e : StoredEntry) : e.constant ≠ .unusable := by
  cases e with
  | text => exact Constant.noConfusion
  | other e h => cases e <;> exact Constant.noConfusion

/-! ### Reading an entry -/

lemma reads (e : StoredEntry) : Reads Constant.decode e.bytes (e.constant, e.isWide) := by
  cases e with
  | text bytes hlength hforms =>
    refine Reads.offset fun o => (reads_u1 1).bind ?_
    refine (reads_u2 hlength).bind (Reads.offset fun start => ?_)
    refine (reads_take bytes).bindNil ?_
    rw [hforms.decode?_eq_some]
    exact reads_pure _
  | other e h =>
    have hfits : e.Fits := by
      cases e with
      | utf8 units => exact absurd rfl (h units)
      | _ => trivial
    exact e.reads_encode hfits

/-! ### What was read is an entry -/

variable {w w' : Window} {tag : UInt8} {found : Constant × Bool}

/-- Whether what stands behind a tag was read as an entry with that tag. -/
def IsRead (tag : UInt8) (w : Window) (found : Constant × Bool) (w' : Window) : Prop :=
  ∃ (s : StoredEntry) (body : Bytes), s.bytes = tag :: body ∧ w.Over body w' ∧
    (s.constant, s.isWide) = found

/-- Whether an entry is no text and has the given tag, body and content. -/
structure Is (e : PoolEntry) (tag : Nat) (body : Bytes) (found : Constant × Bool) : Prop where
  tag : e.tag.toNat = tag
  body : e.body = body
  content : (e.constant, e.isWide) = found
  notText : ∀ units, e ≠ .utf8 units

lemma Is.isRead {e : PoolEntry} {body : Bytes} (h : Is e tag.toNat body found)
    (hover : w.Over body w') : IsRead tag w found w' := by
  refine ⟨.other e h.notText, body, ?_, hover, h.content⟩
  rw [bytes, PoolEntry.encode, h.body, UInt8.toNat_inj.1 h.tag]

lemma isRead_text (htag : tag.toNat = 1)
    (h : Gives (do
      let count ← u2
      let start ← offset
      let bytes ← take count
      match ModifiedUtf8.decode? bytes with
      | some spelled => return (Constant.utf8 spelled, false)
      | none => failAt start .badUtf8) w found w') : IsRead tag w found w' := by
  obtain ⟨_, m, hcount, h⟩ := h.bind
  obtain ⟨count, rfl, hover⟩ := hcount.u2
  obtain ⟨bytes, m', htake, h⟩ := h.offset.bind
  obtain ⟨hlength, hover'⟩ := htake.take
  have hlt : bytes.length < 2 ^ 16 := hlength ▸ count.toNat_lt
  split at h
  · rename_i spelled hdecode
    obtain ⟨rfl, rfl⟩ := h.pure
    have hforms : ModifiedUtf8.AreUnitForms bytes :=
      ModifiedUtf8.isSome_decode?_iff.1 (by rw [hdecode]; rfl)
    have htext : hforms.text = spelled :=
      Option.some.inj (hforms.decode?_eq_some.symm.trans hdecode)
    have hone : (1 : UInt8) = tag := UInt8.toNat_inj.1 htag.symm
    refine ⟨.text bytes hlt hforms, twoBytes bytes.length ++ bytes, ?_, ?_, ?_⟩
    · rw [StoredEntry.bytes, hone]
    · rw [hlength]
      exact hover.trans hover'
    · rw [constant, htext, isWide]
  · exact absurd h not_gives_failAt

/-- Bytes of no account are the body of one of the entries whose body they may be. -/
lemma isRead_skipped {count : Nat} {content : Constant × Bool}
    (hmake : ∀ bytes : Bytes, bytes.length = count → ∃ e, Is e tag.toNat bytes content)
    (h : Gives (do skip count; return content) w found w') : IsRead tag w found w' := by
  obtain ⟨rfl, bytes, hlength, hover⟩ := h.skipReturn
  obtain ⟨e, he⟩ := hmake bytes hlength
  exact he.isRead hover

lemma isRead_index (make : Index → PoolEntry) {content : Nat → Constant × Bool}
    (hmake : ∀ i, Is (make i) tag.toNat (twoBytes i.toNat) (content i.toNat))
    (h : Gives (do let n ← u2; return content n) w found w') : IsRead tag w found w' := by
  obtain ⟨_, hindex, rfl⟩ := h.map
  obtain ⟨i, rfl, hover⟩ := hindex.u2
  exact (hmake i).isRead hover

lemma isRead_indices (make : Index → Index → PoolEntry) {content : Nat → Nat → Constant × Bool}
    (hmake : ∀ i j,
      Is (make i j) tag.toNat (twoBytes i.toNat ++ twoBytes j.toNat) (content i.toNat j.toNat))
    (h : Gives (do let m ← u2; let n ← u2; return content m n) w found w') :
    IsRead tag w found w' := by
  obtain ⟨_, m, hfirst, h⟩ := h.bind
  obtain ⟨i, rfl, hover⟩ := hfirst.u2
  obtain ⟨_, hsecond, rfl⟩ := h.map
  obtain ⟨j, rfl, hover'⟩ := hsecond.u2
  exact (hmake i j).isRead (hover.trans hover')

lemma isRead_skippedIndex {count : Nat} {content : Nat → Constant × Bool}
    (hmake : ∀ (bytes : Bytes) (i : Index), bytes.length = count →
      ∃ e, Is e tag.toNat (bytes ++ twoBytes i.toNat) (content i.toNat))
    (h : Gives (do skip count; let n ← u2; return content n) w found w') :
    IsRead tag w found w' := by
  obtain ⟨_, m, hskip, h⟩ := h.bind
  obtain ⟨bytes, hlength, hover⟩ := hskip.skip
  obtain ⟨_, hindex, rfl⟩ := h.map
  obtain ⟨i, rfl, hover'⟩ := hindex.u2
  obtain ⟨e, he⟩ := hmake bytes i hlength
  exact he.isRead (hover.trans hover')

lemma exists_eightBytes {bytes : Bytes} (h : bytes.length = 8) :
    ∃ n : UInt64, bytes = bigEndian 8 n.toNat := by
  have hlt := ofBigEndian_lt bytes
  have hback := bigEndian_ofBigEndian bytes
  rw [h] at hlt hback
  exact ⟨.ofNatLT (ofBigEndian bytes) hlt, by rw [UInt64.toNat_ofNatLT, hback]⟩

lemma isRead_of_decodeTagged {o : Nat}
    (h : Gives (Constant.decodeTagged tag.toNat o) w found w') : IsRead tag w found w' := by
  -- entries with one layout differ in the tag and in what is kept of them
  have hfour : ∀ (make : UInt32 → PoolEntry) (content : Constant × Bool),
      (∀ n, Is (make n) tag.toNat (fourBytes n.toNat) content) →
      ∀ bytes : Bytes, bytes.length = 4 → ∃ e, Is e tag.toNat bytes content := by
    intro make content hmake bytes hlength
    obtain ⟨n, -, rfl⟩ := exists_fourBytes hlength
    exact ⟨make n, hmake n⟩
  have height : ∀ (make : UInt64 → PoolEntry) (content : Constant × Bool),
      (∀ n, Is (make n) tag.toNat (bigEndian 8 n.toNat) content) →
      ∀ bytes : Bytes, bytes.length = 8 → ∃ e, Is e tag.toNat bytes content := by
    intro make content hmake bytes hlength
    obtain ⟨n, rfl⟩ := exists_eightBytes hlength
    exact ⟨make n, hmake n⟩
  have htwo : ∀ (make : Index → PoolEntry) (content : Constant × Bool),
      (∀ n, Is (make n) tag.toNat (twoBytes n.toNat) content) →
      ∀ bytes : Bytes, bytes.length = 2 → ∃ e, Is e tag.toNat bytes content := by
    intro make content hmake bytes hlength
    obtain ⟨n, -, rfl⟩ := exists_twoBytes hlength
    exact ⟨make n, hmake n⟩
  have hdynamic : ∀ (make : UInt16 → Index → PoolEntry) (content : Nat → Constant × Bool),
      (∀ n i, Is (make n i) tag.toNat (twoBytes n.toNat ++ twoBytes i.toNat) (content i.toNat)) →
      ∀ (bytes : Bytes) (i : Index), bytes.length = 2 →
        ∃ e, Is e tag.toNat (bytes ++ twoBytes i.toNat) (content i.toNat) := by
    intro make content hmake bytes i hlength
    obtain ⟨n, -, rfl⟩ := exists_twoBytes hlength
    exact ⟨make n i, hmake n i⟩
  rw [Constant.decodeTagged.eq_def] at h
  split at h <;> rename_i htag
  · exact isRead_text htag h
  · exact isRead_skipped (hfour .integer _ fun n => ⟨htag.symm, rfl, rfl, nofun⟩) h
  · exact isRead_skipped (hfour .float _ fun n => ⟨htag.symm, rfl, rfl, nofun⟩) h
  · exact isRead_skipped (height .long _ fun n => ⟨htag.symm, rfl, rfl, nofun⟩) h
  · exact isRead_skipped (height .double _ fun n => ⟨htag.symm, rfl, rfl, nofun⟩) h
  · exact isRead_index .classInfo (fun i => ⟨htag.symm, rfl, rfl, nofun⟩) h
  · exact isRead_skipped (htwo .string _ fun n => ⟨htag.symm, rfl, rfl, nofun⟩) h
  · exact isRead_indices .fieldRef (fun i j => ⟨htag.symm, rfl, rfl, nofun⟩) h
  · exact isRead_indices .methodRef (fun i j => ⟨htag.symm, rfl, rfl, nofun⟩) h
  · exact isRead_indices .interfaceMethodRef (fun i j => ⟨htag.symm, rfl, rfl, nofun⟩) h
  · exact isRead_indices .nameAndType (fun i j => ⟨htag.symm, rfl, rfl, nofun⟩) h
  · refine isRead_skippedIndex (fun bytes i hlength => ?_) h
    obtain ⟨kind, rfl⟩ := List.length_eq_one_iff.1 hlength
    exact ⟨.methodHandle kind i, htag.symm, rfl, rfl, nofun⟩
  · exact isRead_index .methodType (fun i => ⟨htag.symm, rfl, rfl, nofun⟩) h
  · exact isRead_skippedIndex (hdynamic .dynamic _ fun n i => ⟨htag.symm, rfl, rfl, nofun⟩) h
  · exact isRead_skippedIndex (hdynamic .invokeDynamic _ fun n i => ⟨htag.symm, rfl, rfl, nofun⟩) h
  · exact isRead_skipped (htwo .moduleInfo _ fun n => ⟨htag.symm, rfl, rfl, nofun⟩) h
  · exact isRead_skipped (htwo .packageInfo _ fun n => ⟨htag.symm, rfl, rfl, nofun⟩) h
  · exact absurd h not_gives_failAt

/-- What was read is an entry, up to its end. -/
lemma exists_of_decode (h : Gives Constant.decode w found w') :
    ∃ s : StoredEntry, w.Over s.bytes w' ∧ (s.constant, s.isWide) = found := by
  obtain ⟨_, m, htag, h⟩ := h.offset.bind
  obtain ⟨tag, rfl, hover⟩ := htag.u1
  obtain ⟨s, body, hbytes, hover', hfound⟩ := isRead_of_decodeTagged h
  exact ⟨s, hbytes ▸ hover.trans hover', hfound⟩

end StoredEntry

/-! ### Slots -/

namespace StoredEntry

variable {entries : List StoredEntry} {e : StoredEntry} {i slot : Nat}

/-- Whether `e` is one of `entries`, with `slot` slots filled before it. -/
def IsBehind (slot : Nat) (e : StoredEntry) (entries : List StoredEntry) : Prop :=
  ∃ front back, entries = front ++ e :: back ∧ slotCount front = slot

lemma not_isBehind_nil : ¬IsBehind slot e [] := by
  rintro ⟨front, back, h, -⟩
  exact absurd h.symm (by simp)

lemma isBehind_cons {x : StoredEntry} :
    IsBehind slot e (x :: entries) ↔
      slot = 0 ∧ e = x ∨ ∃ behind, slot = x.width + behind ∧ IsBehind behind e entries := by
  constructor
  · rintro ⟨_ | ⟨y, front⟩, back, h, rfl⟩
    · exact .inl ⟨rfl, (List.cons.inj h).1.symm⟩
    · obtain ⟨rfl, rfl⟩ := List.cons.inj h
      exact .inr ⟨slotCount front, slotCount_cons x front, front, back, rfl, rfl⟩
  · rintro (⟨rfl, rfl⟩ | ⟨_, rfl, front, back, rfl, rfl⟩)
    · exact ⟨[], entries, rfl, rfl⟩
    · exact ⟨x :: front, back, rfl, slotCount_cons x front⟩

lemma getElem?_slots_eq_some_iff {c : Constant} :
    e.slots[i]? = some c ↔
      i = 0 ∧ c = e.constant ∨ e.isWide = true ∧ i = 1 ∧ c = .unusable := by
  cases hwide : e.isWide <;> rw [slots, hwide]
  · cases i with
    | zero => simp [eq_comm]
    | succ i => simp
  · rcases i with _ | _ | i
    · simp [eq_comm]
    · simp [eq_comm]
    · simp

/-- A slot holds what the entry there has in its first slot, or is the second slot of a wide
entry. -/
lemma getElem?_flatMap_slots_eq_some_iff {c : Constant} :
    (entries.flatMap slots)[i]? = some c ↔
      (∃ e, IsBehind i e entries ∧ c = e.constant) ∨
        ∃ slot e, i = slot + 1 ∧ e.isWide = true ∧ IsBehind slot e entries ∧ c = .unusable := by
  induction entries generalizing i with
  | nil => simp [not_isBehind_nil]
  | cons x entries ih =>
    rw [List.flatMap_cons]
    rcases Nat.lt_or_ge i x.slots.length with hlt | hge
    · -- the slot is one of the first entry, and what stands behind it starts further on
      rw [List.getElem?_append_left hlt, getElem?_slots_eq_some_iff]
      rw [length_slots] at hlt
      constructor
      · rintro (⟨rfl, rfl⟩ | ⟨hwide, rfl, rfl⟩)
        · exact .inl ⟨x, isBehind_cons.2 (.inl ⟨rfl, rfl⟩), rfl⟩
        · exact .inr ⟨0, x, rfl, hwide, isBehind_cons.2 (.inl ⟨rfl, rfl⟩), rfl⟩
      · rintro (⟨e, hbehind, rfl⟩ | ⟨slot, e, rfl, hwide, hbehind, rfl⟩)
        · obtain ⟨rfl, rfl⟩ | ⟨behind, rfl, -⟩ := isBehind_cons.1 hbehind
          · exact .inl ⟨rfl, rfl⟩
          · omega
        · obtain ⟨rfl, rfl⟩ | ⟨behind, rfl, -⟩ := isBehind_cons.1 hbehind
          · exact .inr ⟨hwide, rfl, rfl⟩
          · omega
    · obtain ⟨j, rfl⟩ := Nat.exists_eq_add_of_le hge
      rw [List.getElem?_append_right hge, Nat.add_sub_cancel_left, ih, length_slots]
      have hpos : 0 < x.width := by
        rw [width]
        split <;> omega
      constructor
      · rintro (⟨e, hbehind, rfl⟩ | ⟨slot, e, rfl, hwide, hbehind, rfl⟩)
        · exact .inl ⟨e, isBehind_cons.2 (.inr ⟨j, rfl, hbehind⟩), rfl⟩
        · exact .inr ⟨x.width + slot, e, rfl, hwide,
            isBehind_cons.2 (.inr ⟨slot, rfl, hbehind⟩), rfl⟩
      · rintro (⟨e, hbehind, rfl⟩ | ⟨slot, e, hslot, hwide, hbehind, rfl⟩)
        · obtain ⟨hzero, -⟩ | ⟨behind, hsum, hbehind⟩ := isBehind_cons.1 hbehind
          · omega
          · obtain rfl : j = behind := by omega
            exact .inl ⟨e, hbehind, rfl⟩
        · obtain ⟨rfl, rfl⟩ | ⟨behind, rfl, hrest⟩ := isBehind_cons.1 hbehind
          · -- the second slot of the first entry would be one of its own
            rw [width, if_pos hwide] at hslot
            omega
          · exact .inr ⟨behind, e, by omega, hwide, hrest, rfl⟩

lemma getElem?_flatMap_slots_eq_none_iff :
    (entries.flatMap slots)[i]? = none ↔ slotCount entries ≤ i := by
  rw [List.getElem?_eq_none_iff, length_flatMap_slots]

end StoredEntry

namespace ConstantPool

open StoredEntry

variable {w w' : Window} {entries : List StoredEntry} {pool : ConstantPool} {i o : Nat}

/-! ### Look-up -/

lemma get_eq_ok_iff {c : Constant} :
    pool.get i o = .ok c ↔ pool.slots[i]? = some c ∧ c ≠ .unusable := by
  constructor
  · intro h
    rw [get.eq_def] at h
    split at h
    · cases h
    · cases h
    · rename_i c' hne hslot
      obtain rfl : c' = c := Except.ok.inj h
      exact ⟨hslot, hne⟩
  · rintro ⟨hslot, hne⟩
    exact get_eq_ok hslot hne

lemma get_eq_error_iff :
    pool.get i o = .error ⟨o, .badConstantIndex i⟩ ↔
      pool.slots[i]? = none ∨ pool.slots[i]? = some .unusable := by
  rw [get.eq_def]
  split
  · rename_i hslot
    simp [hslot]
  · rename_i hslot
    simp [hslot]
  · rename_i c hne hslot
    simp only [hslot, reduceCtorEq, false_or, Option.some.injEq, false_iff]
    exact hne

/-- The pool that holds some entries. -/
def ofStored (entries : List StoredEntry) : ConstantPool :=
  ⟨(Constant.unusable :: entries.flatMap StoredEntry.slots).toArray⟩

lemma getElem?_slots_ofStored_succ :
    (ofStored entries).slots[i + 1]? = (entries.flatMap StoredEntry.slots)[i]? := by
  simp [ofStored]

lemma getElem?_slots_ofStored_zero : (ofStored entries).slots[0]? = some .unusable := by
  simp [ofStored]

lemma get_ofStored_eq_ok_iff {c : Constant} :
    (ofStored entries).get i o = .ok c ↔
      ∃ slot e, i = slot + 1 ∧ IsBehind slot e entries ∧ c = e.constant := by
  rw [get_eq_ok_iff]
  cases i with
  | zero =>
    rw [getElem?_slots_ofStored_zero]
    constructor
    · rintro ⟨hslot, hne⟩
      exact absurd (Option.some.inj hslot).symm hne
    · rintro ⟨slot, e, hslot, -⟩
      omega
  | succ i =>
    rw [getElem?_slots_ofStored_succ, getElem?_flatMap_slots_eq_some_iff]
    constructor
    · rintro ⟨⟨e, hbehind, rfl⟩ | ⟨_, _, _, _, _, rfl⟩, hne⟩
      · exact ⟨i, e, rfl, hbehind, rfl⟩
      · exact absurd rfl hne
    · rintro ⟨slot, e, hslot, hbehind, rfl⟩
      obtain rfl : i = slot := by omega
      exact ⟨.inl ⟨e, hbehind, rfl⟩, e.constant_ne_unusable⟩

lemma get_ofStored_eq_error_iff :
    (ofStored entries).get i o = .error ⟨o, .badConstantIndex i⟩ ↔
      i = 0 ∨ slotCount entries < i ∨
        ∃ slot e, i = slot + 2 ∧ IsBehind slot e entries ∧ e.isWide = true := by
  rw [get_eq_error_iff]
  cases i with
  | zero => simp [getElem?_slots_ofStored_zero]
  | succ i =>
    rw [getElem?_slots_ofStored_succ, getElem?_flatMap_slots_eq_none_iff,
      getElem?_flatMap_slots_eq_some_iff]
    constructor
    · rintro (hle | ⟨e, -, hunusable⟩ | ⟨slot, e, rfl, hwide, hbehind, -⟩)
      · exact .inr (.inl (by omega))
      · exact absurd hunusable.symm e.constant_ne_unusable
      · exact .inr (.inr ⟨slot, e, rfl, hbehind, hwide⟩)
    · rintro (hzero | hlt | ⟨slot, e, hslot, hbehind, hwide⟩)
      · omega
      · exact .inl (by omega)
      · exact .inr (.inr ⟨slot, e, by omega, hwide, hbehind, rfl⟩)

/-! ### Reading a pool -/

lemma reads_stored (count : Nat) (entries : List StoredEntry) :
    Reads (decodeSlots count (slotCount entries)) (entries.flatMap StoredEntry.bytes)
      (entries.flatMap StoredEntry.slots) := by
  rw [← length_flatMap_slots]
  exact reads_slotsOf (fun _ => rfl) count fun e _ => e.reads

/-- Slots that were read are those of entries, and as many as were asked for. -/
lemma exists_of_decodeSlots (count : Nat) : ∀ (free : Nat) {w w' : Window}
    {constants : List Constant}, Gives (decodeSlots count free) w constants w' →
      ∃ entries : List StoredEntry, w.Over (entries.flatMap StoredEntry.bytes) w' ∧
        slotCount entries = free ∧ entries.flatMap StoredEntry.slots = constants
  | 0, w, w', constants, h => by
    obtain ⟨rfl, rfl⟩ := h.pure
    exact ⟨[], ⟨rfl, rfl, rfl⟩, rfl, rfl⟩
  | free + 1, w, w', constants, h => by
    rw [decodeSlots] at h
    obtain ⟨_, m, hentry, h⟩ := h.bind
    obtain ⟨s, hover, rfl⟩ := exists_of_decode hentry
    simp only at h
    split at h
    · rename_i hwide
      cases free with
      | zero => exact absurd h not_gives_fail
      | succ free =>
        obtain ⟨more, hmore, rfl⟩ := Gives.map h
        obtain ⟨entries, hover', hcount, rfl⟩ := exists_of_decodeSlots count free hmore
        refine ⟨s :: entries, hover.trans hover', ?_, ?_⟩
        · rw [slotCount_cons, hcount, width, if_pos hwide]
          omega
        · rw [List.flatMap_cons, StoredEntry.slots, if_pos hwide]
          rfl
    · rename_i hnarrow
      obtain ⟨more, hmore, rfl⟩ := Gives.map h
      obtain ⟨entries, hover', hcount, rfl⟩ := exists_of_decodeSlots count free hmore
      refine ⟨s :: entries, hover.trans hover', ?_, ?_⟩
      · rw [slotCount_cons, hcount, width, if_neg hnarrow]
        omega
      · rw [List.flatMap_cons, StoredEntry.slots, if_neg hnarrow]
        rfl

/-- With one slot left when a wide entry comes, the pool is refused behind that entry. -/
lemma decodeSlots_overrun (count : Nat) {e : StoredEntry} (hwide : e.isWide = true) (rest : Bytes)
    (base : Nat) (front : List StoredEntry) (position : Nat) :
    decodeSlots count (slotCount front + 1)
        ⟨front.flatMap StoredEntry.bytes ++ (e.bytes ++ rest), position, base⟩ =
      .error ⟨base + (position + (front.flatMap StoredEntry.bytes ++ e.bytes).length),
        .badConstantIndex count⟩ := by
  induction front generalizing position with
  | nil =>
    rw [slotCount_nil, decodeSlots, List.flatMap_nil, List.nil_append, List.nil_append,
      bind_eq_of_ok (e.reads position rest base)]
    simp only [hwide, if_true]
    rfl
  | cons x front ih =>
    have hx := x.reads position (front.flatMap StoredEntry.bytes ++ (e.bytes ++ rest)) base
    have hlength : ∀ bytes : Bytes,
        position + (x.bytes ++ bytes).length = position + x.bytes.length + bytes.length :=
      fun bytes => by rw [List.length_append, Nat.add_assoc]
    rw [slotCount_cons, List.flatMap_cons, List.append_assoc, List.append_assoc, hlength, width]
    split
    · rename_i hx2
      rw [show 2 + slotCount front + 1 = slotCount front + 1 + 1 + 1 by omega, decodeSlots,
        bind_eq_of_ok hx]
      simp only [hx2, if_true]
      exact bind_eq_of_error (ih _)
    · rename_i hx1
      rw [show 1 + slotCount front + 1 = slotCount front + 1 + 1 by omega, decodeSlots,
        bind_eq_of_ok hx]
      simp only [hx1]
      exact bind_eq_of_error (ih _)

/-- The bytes of a pool: the count, then the entries. -/
def poolBytes (count : UInt16) (entries : List StoredEntry) : Bytes :=
  twoBytes count.toNat ++ entries.flatMap StoredEntry.bytes

/-- Whether bytes are a pool with the given entries, in front of `rest`. The entries take one slot
less than the count says, or none if it says 0. -/
structure IsPool (bytes : Bytes) (count : UInt16) (entries : List StoredEntry) (rest : Bytes) :
    Prop where
  bytes : bytes = poolBytes count entries ++ rest
  slots : slotCount entries = count.toNat - 1

lemma IsPool.decode_eq {count : UInt16} {rest : Bytes} (h : IsPool w.rest count entries rest) :
    decode w = .ok (ofStored entries,
      ⟨rest, w.position + (poolBytes count entries).length, w.base⟩) := by
  have hread : Reads decode (poolBytes count entries) (ofStored entries) := by
    refine (reads_u2 count.toNat_lt).bind ?_
    rw [← h.slots]
    exact (reads_stored count.toNat entries).map
  obtain ⟨bytes, position, base⟩ := w
  obtain rfl : bytes = poolBytes count entries ++ rest := h.bytes
  exact hread position rest base

lemma exists_isPool_of_decode (h : Gives decode w pool w') :
    ∃ count entries, IsPool w.rest count entries w'.rest := by
  obtain ⟨_, m, hcount, h⟩ := h.bind
  obtain ⟨count, rfl, hover⟩ := hcount.u2
  obtain ⟨constants, hconstants, -⟩ := h.map
  obtain ⟨entries, hover', hslots, -⟩ := exists_of_decodeSlots count.toNat _ hconstants
  refine ⟨count, entries, ?_, hslots⟩
  rw [hover.rest, hover'.rest, poolBytes, List.append_assoc]

lemma decode_overrun {count : UInt16} {front : List StoredEntry} {e : StoredEntry} {rest : Bytes}
    (hwide : e.isWide = true) (hcount : slotCount front + 2 = count.toNat)
    (hrest : w.rest = poolBytes count (front ++ [e]) ++ rest) :
    decode w = .error ⟨w.offset + (poolBytes count (front ++ [e])).length,
      .badConstantIndex count.toNat⟩ := by
  obtain ⟨bytes, position, base⟩ := w
  have hbytes : poolBytes count (front ++ [e]) =
      twoBytes count.toNat ++ (front.flatMap StoredEntry.bytes ++ e.bytes) := by
    rw [poolBytes, List.flatMap_append, List.flatMap_singleton]
  obtain rfl : bytes = twoBytes count.toNat ++
      (front.flatMap StoredEntry.bytes ++ (e.bytes ++ rest)) := by
    rw [← List.append_assoc (front.flatMap _), ← List.append_assoc, ← hbytes]
    exact hrest
  have hfree : count.toNat - 1 = slotCount front + 1 := by omega
  rw [decode, bind_eq_of_ok (reads_u2 count.toNat_lt position _ base), hfree,
    bind_eq_of_error (decodeSlots_overrun count.toNat hwide rest base front _), Window.offset,
    hbytes, @List.length_append _ (twoBytes count.toNat), ← Nat.add_assoc, ← Nat.add_assoc,
    ← Nat.add_assoc]

/-- A pool is read exactly where the bytes are a count and entries that fill one slot less. Then the
reader stands behind the last entry, an index leads to the entry whose first slot it is, and the
refused indices are 0, those from the count on and the second slots of longs and doubles. A long or
double whose second slot would have the count for its number is refused. -/
theorem decode_slots (w : Window) :
    ((∃ pool w', decode w = .ok (pool, w')) ↔
        ∃ count entries rest, IsPool w.rest count entries rest) ∧
      (∀ count entries rest, IsPool w.rest count entries rest →
        ∃ pool : ConstantPool,
          decode w = .ok (pool,
            ⟨rest, w.position + (poolBytes count entries).length, w.base⟩) ∧
          (∀ index offset c, pool.get index offset = .ok c ↔
            ∃ front e back, entries = front ++ e :: back ∧ index = slotCount front + 1 ∧
              c = e.constant) ∧
          ∀ index offset, pool.get index offset = .error ⟨offset, .badConstantIndex index⟩ ↔
            index = 0 ∨ count.toNat ≤ index ∨
              ∃ front e back, entries = front ++ e :: back ∧ index = slotCount front + 2 ∧
                e.isWide = true) ∧
      ∀ count front e rest, e.isWide = true → slotCount front + 2 = count.toNat →
        w.rest = poolBytes count (front ++ [e]) ++ rest →
          decode w = .error ⟨w.offset + (poolBytes count (front ++ [e])).length,
            .badConstantIndex count.toNat⟩ := by
  refine ⟨⟨?_, ?_⟩, ?_, fun count front e rest => decode_overrun⟩
  · rintro ⟨pool, w', h⟩
    obtain ⟨count, entries, hpool⟩ := exists_isPool_of_decode h
    exact ⟨count, entries, w'.rest, hpool⟩
  · rintro ⟨count, entries, rest, hpool⟩
    exact ⟨_, _, hpool.decode_eq⟩
  · intro count entries rest hpool
    refine ⟨ofStored entries, hpool.decode_eq, fun index offset c => ?_, fun index offset => ?_⟩
    · rw [get_ofStored_eq_ok_iff]
      constructor
      · rintro ⟨_, e, rfl, ⟨front, back, rfl, rfl⟩, rfl⟩
        exact ⟨front, e, back, rfl, rfl, rfl⟩
      · rintro ⟨front, e, back, rfl, rfl, rfl⟩
        exact ⟨_, e, rfl, ⟨front, back, rfl, rfl⟩, rfl⟩
    · -- index 0 is refused in any case, so that a count of 0 is like a count of 1
      have hcount : index = 0 ∨ slotCount entries < index ↔ index = 0 ∨ count.toNat ≤ index := by
        have hslots := hpool.slots
        omega
      rw [get_ofStored_eq_error_iff, ← or_assoc, hcount, or_assoc]
      refine or_congr_right (or_congr_right ⟨?_, ?_⟩)
      · rintro ⟨_, e, rfl, ⟨front, back, rfl, rfl⟩, hwide⟩
        exact ⟨front, e, back, rfl, rfl, hwide⟩
      · rintro ⟨front, e, back, rfl, rfl, hwide⟩
        exact ⟨_, e, rfl, ⟨front, back, rfl, rfl⟩, hwide⟩

/-- A long. -/
def longEntry : StoredEntry := .other (.long 9) fun _ => PoolEntry.noConfusion

/-- A class. -/
def classEntry : StoredEntry := .other (.classInfo 1) fun _ => PoolEntry.noConfusion

/-- A long is in slots 1 and 2 and a class in slot 3, so that their count is 4. With the count 2, the
long has no second slot. -/
theorem decode_slots_longThenClass :
    IsPool [0, 4, 5, 0, 0, 0, 0, 0, 0, 0, 9, 7, 0, 1, 0xFF] 4 [longEntry, classEntry] [0xFF] ∧
    (∃ pool : ConstantPool,
      decode (.ofBytes [0, 4, 5, 0, 0, 0, 0, 0, 0, 0, 9, 7, 0, 1, 0xFF]) =
        .ok (pool, ⟨[0xFF], 14, 0⟩) ∧
      pool.get 1 0 = .ok .literal ∧ pool.get 3 0 = .ok (.classInfo 1) ∧
      ∀ index ∈ [0, 2, 4], pool.get index 0 = .error ⟨0, .badConstantIndex index⟩) ∧
    decode (.ofBytes [0, 2, 5, 0, 0, 0, 0, 0, 0, 0, 9]) = .error ⟨11, .badConstantIndex 2⟩ := by
  have hpool : IsPool [0, 4, 5, 0, 0, 0, 0, 0, 0, 0, 9, 7, 0, 1, 0xFF] 4 [longEntry, classEntry]
      [0xFF] := ⟨by decide, by decide⟩
  obtain ⟨-, hreads, -⟩ :=
    decode_slots (.ofBytes [0, 4, 5, 0, 0, 0, 0, 0, 0, 0, 9, 7, 0, 1, 0xFF])
  obtain ⟨pool, hdecode, hget, hrefused⟩ := hreads 4 [longEntry, classEntry] [0xFF] hpool
  obtain ⟨-, -, hoverrun⟩ := decode_slots (.ofBytes [0, 2, 5, 0, 0, 0, 0, 0, 0, 0, 9])
  refine ⟨hpool, ⟨pool, hdecode, (hget 1 0 _).2 ⟨[], longEntry, [classEntry], rfl, rfl, rfl⟩,
    (hget 3 0 _).2 ⟨[longEntry], classEntry, [], rfl, rfl, rfl⟩, ?_⟩,
    hoverrun 2 [] longEntry [] rfl rfl (by decide)⟩
  simp only [List.forall_mem_cons]
  exact ⟨(hrefused 0 0).2 (.inl rfl),
    (hrefused 2 0).2 (.inr (.inr ⟨[], longEntry, [classEntry], rfl, rfl, rfl⟩)),
    (hrefused 4 0).2 (.inr (.inl (by decide))), List.forall_mem_nil _⟩

end ConstantPool
end ClassFile
end ClasspathAudit
