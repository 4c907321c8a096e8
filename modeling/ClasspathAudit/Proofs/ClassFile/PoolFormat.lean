import ClasspathAudit.ClassFile.ConstantPool
import ClasspathAudit.Proofs.ClassFile.Reading
import ClasspathAudit.Proofs.ClassFile.UnitBytes
import ClasspathAudit.Reference

/-
# The written form of constant pools

A pool is written as the number of its slots and then its entries, each behind a tag. What an entry
is written from is more than what the slots keep of it: the values of numbers, the kinds of member
references and of method handles are written and passed over.

What an index leads to is told by partial functions on the slots, against which the look-ups that
report errors are measured.
-/
namespace ClasspathAudit
namespace ClassFile

open Decoder

/-- An index into the constant pool, as a class file holds it. -/
abbrev Index := UInt16

/-- An entry of the constant pool, as a class file holds it. -/
inductive PoolEntry
  /-- A text, as UTF-16 units. -/
  | utf8 (units : List UInt16)
  | integer (bits : UInt32)
  | float (bits : UInt32)
  | long (bits : UInt64)
  | double (bits : UInt64)
  | classInfo (name : Index)
  | string (text : Index)
  | fieldRef (owner nameAndType : Index)
  | methodRef (owner nameAndType : Index)
  | interfaceMethodRef (owner nameAndType : Index)
  | nameAndType (name descriptor : Index)
  | methodHandle (kind : UInt8) (reference : Index)
  | methodType (descriptor : Index)
  | dynamic (bootstrap : UInt16) (nameAndType : Index)
  | invokeDynamic (bootstrap : UInt16) (nameAndType : Index)
  | moduleInfo (name : Index)
  | packageInfo (name : Index)
deriving DecidableEq

namespace PoolEntry

/-! ### Writing entries -/

/-- The tag that stands before an entry. -/
def tag : PoolEntry → UInt8
  | utf8 .. => 1
  | integer .. => 3
  | float .. => 4
  | long .. => 5
  | double .. => 6
  | classInfo .. => 7
  | string .. => 8
  | fieldRef .. => 9
  | methodRef .. => 10
  | interfaceMethodRef .. => 11
  | nameAndType .. => 12
  | methodHandle .. => 15
  | methodType .. => 16
  | dynamic .. => 17
  | invokeDynamic .. => 18
  | moduleInfo .. => 19
  | packageInfo .. => 20

/-- The bytes of an entry behind its tag. -/
def body : PoolEntry → Bytes
  | utf8 units =>
    let bytes := ModifiedUtf8.encode units
    twoBytes bytes.length ++ bytes
  | integer bits | float bits => fourBytes bits.toNat
  | long bits | double bits => bigEndian 8 bits.toNat
  | classInfo index | string index | methodType index | moduleInfo index | packageInfo index =>
    twoBytes index.toNat
  | fieldRef first second | methodRef first second | interfaceMethodRef first second
  | nameAndType first second | dynamic first second | invokeDynamic first second =>
    twoBytes first.toNat ++ twoBytes second.toNat
  | methodHandle kind reference => kind :: twoBytes reference.toNat

/-- The written form of an entry. -/
def encode (e : PoolEntry) : Bytes :=
  e.tag :: e.body

/-- The length of a text has to fit its field. -/
def Fits : PoolEntry → Prop
  | utf8 units => (ModifiedUtf8.encode units).length < 2 ^ 16
  | _ => True

/-! ### Slots -/

/-- What the slot of an entry holds. -/
def constant : PoolEntry → Constant
  | utf8 units => .utf8 (ModifiedUtf8.textOf units)
  | integer .. | float .. | long .. | double .. | string .. => .literal
  | classInfo name => .classInfo name.toNat
  | fieldRef owner type | methodRef owner type | interfaceMethodRef owner type =>
    .memberRef owner.toNat type.toNat
  | nameAndType name descriptor => .nameAndType name.toNat descriptor.toNat
  | methodHandle _ reference => .methodHandle reference.toNat
  | methodType descriptor => .methodType descriptor.toNat
  | dynamic _ type | invokeDynamic _ type => .dynamic type.toNat
  | moduleInfo .. | packageInfo .. => .named

/-- Whether an entry takes two slots. -/
def isWide : PoolEntry → Bool
  | long .. | double .. => true
  | _ => false

/-- The slots of an entry. -/
def slots (e : PoolEntry) : List Constant :=
  if e.isWide then [e.constant, .unusable] else [e.constant]

/-! ### Reading entries -/

lemma reads_text {units : List UInt16} (h : (utf8 units).Fits) (o : Nat) :
    Reads (Constant.decodeTagged 1 o) (utf8 units).body ((utf8 units).constant, false) := by
  refine (reads_u2 h).bind (Reads.offset fun start => ?_)
  refine (reads_take (ModifiedUtf8.encode units)).bindNil ?_
  rw [ModifiedUtf8.decode?_encode]
  exact reads_pure _

lemma reads_index (f : Nat → Constant × Bool) (i : Index) :
    Reads (do let n ← u2; return f n) (twoBytes i.toNat) (f i.toNat) :=
  (reads_u2 i.toNat_lt).map

lemma reads_indices (f : Nat → Nat → Constant × Bool) (i j : Index) :
    Reads (do let m ← u2; let n ← u2; return f m n) (twoBytes i.toNat ++ twoBytes j.toNat)
      (f i.toNat j.toNat) :=
  (reads_u2 i.toNat_lt).bind (reads_index (f i.toNat) j)

lemma reads_skipThen {d : Decoder (Constant × Bool)} {bytes : Bytes} {count : Nat}
    {a : Constant × Bool} (skipped : Bytes) (h : skipped.length = count) (hd : Reads d bytes a) :
    Reads (do skip count; d) (skipped ++ bytes) a :=
  (reads_skip h).bind hd

lemma reads_body (e : PoolEntry) (h : e.Fits) (o : Nat) :
    Reads (Constant.decodeTagged e.tag.toNat o) e.body (e.constant, e.isWide) := by
  cases e with
  | utf8 units => exact reads_text h o
  | integer bits | float bits => exact reads_skipReturn (by simp [body]) _
  | long bits | double bits => exact reads_skipReturn (by simp [body]) _
  | classInfo name => exact reads_index (fun n => (.classInfo n, false)) name
  | string text => exact reads_skipReturn (by simp [body]) _
  | fieldRef owner type | methodRef owner type | interfaceMethodRef owner type =>
    exact reads_indices (fun m n => (.memberRef m n, false)) owner type
  | nameAndType name descriptor =>
    exact reads_indices (fun m n => (.nameAndType m n, false)) name descriptor
  | methodHandle kind reference =>
    exact reads_skipThen [kind] rfl
      (reads_index (fun n => (.methodHandle n, false)) reference)
  | methodType descriptor => exact reads_index (fun n => (.methodType n, false)) descriptor
  | dynamic bootstrap type | invokeDynamic bootstrap type =>
    exact reads_skipThen _ (length_twoBytes _) (reads_index (fun n => (.dynamic n, false)) type)
  | moduleInfo name | packageInfo name => exact reads_skipReturn (by simp [body]) _

lemma reads_encode (e : PoolEntry) (h : e.Fits) :
    Reads Constant.decode e.encode (e.constant, e.isWide) :=
  Reads.offset fun o => (reads_u1 e.tag).bind (reads_body e h o)

end PoolEntry

namespace ConstantPool

/-! ### Whole pools -/

/-- The slots that entries fill, slot 0 first. -/
def ofEntries (entries : List PoolEntry) : ConstantPool :=
  ⟨(Constant.unusable :: entries.flatMap PoolEntry.slots).toArray⟩

/-- The written form of a pool. -/
def encode (entries : List PoolEntry) : Bytes :=
  twoBytes ((entries.flatMap PoolEntry.slots).length + 1) ++ entries.flatMap PoolEntry.encode

/-- The number of slots has to fit its field, and so has the length of every text. -/
structure EntriesFit (entries : List PoolEntry) : Prop where
  count : (entries.flatMap PoolEntry.slots).length + 1 < 2 ^ 16
  texts : ∀ e ∈ entries, e.Fits

/-- Entries are read into their slots if each of them is read. -/
lemma reads_slotsOf {α : Type} {write : α → Bytes} {constant : α → Constant} {isWide : α → Bool}
    {slots : α → List Constant}
    (hslots : ∀ e, slots e = if isWide e then [constant e, .unusable] else [constant e])
    (count : Nat) {entries : List α}
    (h : ∀ e ∈ entries, Reads Constant.decode (write e) (constant e, isWide e)) :
    Reads (decodeSlots count (entries.flatMap slots).length) (entries.flatMap write)
      (entries.flatMap slots) := by
  induction entries with
  | nil => exact reads_pure []
  | cons e entries ih =>
    have he := h e List.mem_cons_self
    have hrest := ih fun x hx => h x (List.mem_cons_of_mem e hx)
    cases hwide : isWide e with
    | false =>
      have hslots : slots e = [constant e] := by simp [hslots, hwide]
      rw [hwide] at he
      simp only [List.flatMap_cons, hslots, List.singleton_append, List.length_cons, decodeSlots]
      exact he.bind (hrest.map (f := fun more => constant e :: more))
    | true =>
      have hslots : slots e = [constant e, .unusable] := by simp [hslots, hwide]
      rw [hwide] at he
      simp only [List.flatMap_cons, hslots, List.cons_append, List.nil_append, List.length_cons,
        decodeSlots]
      exact he.bind (hrest.map (f := fun more => constant e :: .unusable :: more))

lemma reads_slots (count : Nat) {entries : List PoolEntry} (h : ∀ e ∈ entries, e.Fits) :
    Reads (decodeSlots count (entries.flatMap PoolEntry.slots).length)
      (entries.flatMap PoolEntry.encode) (entries.flatMap PoolEntry.slots) :=
  reads_slotsOf (fun _ => rfl) count fun e he => e.reads_encode (h e he)

lemma reads_encode {entries : List PoolEntry} (h : EntriesFit entries) :
    Reads ConstantPool.decode (encode entries) (ofEntries entries) :=
  (reads_u2 h.count).bind (reads_slots _ h.texts).map

/-! ### What an index leads to -/

/-- The text at an index. -/
def text? (pool : ConstantPool) (i : Nat) : Option String :=
  match pool.slots[i]? with
  | some (.utf8 text) => some text
  | _ => none

/-- The internal name of the class at an index. -/
def className? (pool : ConstantPool) (i : Nat) : Option String :=
  match pool.slots[i]? with
  | some (.classInfo name) => pool.text? name
  | _ => none

/-- The descriptor of the name and type at an index, both of which have to be texts. -/
def descriptor? (pool : ConstantPool) (i : Nat) : Option String :=
  match pool.slots[i]? with
  | some (.nameAndType name descriptor) => do
    let _ ← pool.text? name
    pool.text? descriptor
  | _ => none

/-- The owner and the descriptor of the field or method at an index. -/
def member? (pool : ConstantPool) (i : Nat) : Option (String × String) :=
  match pool.slots[i]? with
  | some (.memberRef owner type) => do
    let owner ← pool.className? owner
    let descriptor ← pool.descriptor? type
    return (owner, descriptor)
  | _ => none

/-- The descriptor of the dynamic constant or call site at an index. -/
def dynamic? (pool : ConstantPool) (i : Nat) : Option String :=
  match pool.slots[i]? with
  | some (.dynamic type) => pool.descriptor? type
  | _ => none

/-- Whether an index leads to a text. -/
def HasText (pool : ConstantPool) (i : Index) : Prop :=
  (pool.text? i.toNat).isSome

/-- Whether an index leads to a class. -/
def HasClass (pool : ConstantPool) (i : Index) : Prop :=
  (pool.className? i.toNat).isSome

/-- The mention of a type by the text at an index. -/
def signatureUse (pool : ConstantPool) (kind : ReferenceKind) (i : Index) : List TypeUse :=
  ((pool.text? i.toNat).map (TypeUse.signature kind)).toList

/-- The mention of a class by its index. -/
def nameUse (pool : ConstantPool) (kind : ReferenceKind) (i : Index) : List TypeUse :=
  ((pool.className? i.toNat).map (TypeUse.internalName kind)).toList

/-- Whether an index leads to a class, or is zero, which stands for none. -/
def HasClassOrNone (pool : ConstantPool) (i : Index) : Prop :=
  i = 0 ∨ pool.HasClass i

/-- The mention of a class by an index that is zero if there is none. -/
def optionalUse (pool : ConstantPool) (kind : ReferenceKind) (i : Index) : List TypeUse :=
  if i = 0 then [] else pool.nameUse kind i

/-! ### Look-ups that succeed -/

variable {pool : ConstantPool} {i o : Nat}

lemma get_eq_ok {c : Constant} (h : pool.slots[i]? = some c) (hc : c ≠ .unusable) :
    pool.get i o = .ok c := by
  rw [get, h]
  cases c <;> first | rfl | exact absurd rfl hc

lemma utf8_eq_ok {text : String} (h : pool.text? i = some text) : pool.utf8 i o = .ok text := by
  rw [text?] at h
  split at h
  · rename_i text' hslot
    obtain rfl : text' = text := Option.some.inj h
    rw [utf8, get_eq_ok hslot (by simp)]
    rfl
  · exact absurd h (by simp)

lemma className_eq_ok {name : String} (h : pool.className? i = some name) :
    pool.className i o = .ok name := by
  rw [className?] at h
  split at h
  · rename_i text hslot
    rw [className, get_eq_ok hslot (by simp)]
    exact utf8_eq_ok h
  · exact absurd h (by simp)

lemma nameAndType_eq_ok {descriptor : String} (h : pool.descriptor? i = some descriptor) :
    ∃ name, pool.nameAndType i o = .ok (name, descriptor) := by
  rw [descriptor?] at h
  split at h
  · rename_i nameIndex descriptorIndex hslot
    obtain ⟨name, hname, hdescriptor⟩ := Option.bind_eq_some_iff.1 h
    refine ⟨name, ?_⟩
    rw [nameAndType, get_eq_ok hslot (by simp)]
    simp only [bind, Except.bind, utf8_eq_ok hname, utf8_eq_ok hdescriptor]
    rfl
  · exact absurd h (by simp)

lemma memberRef_eq_ok {owner descriptor : String} (h : pool.member? i = some (owner, descriptor)) :
    pool.memberRef i o = .ok (owner, descriptor) := by
  rw [member?] at h
  split at h
  · rename_i ownerIndex typeIndex hslot
    obtain ⟨owner', howner, h⟩ := Option.bind_eq_some_iff.1 h
    obtain ⟨descriptor', hdescriptor, h⟩ := Option.bind_eq_some_iff.1 h
    obtain ⟨rfl, rfl⟩ : owner' = owner ∧ descriptor' = descriptor := by simpa using h
    obtain ⟨name, htype⟩ := nameAndType_eq_ok (o := o) hdescriptor
    rw [memberRef, get_eq_ok hslot (by simp)]
    simp only [bind, Except.bind, className_eq_ok howner, htype]
    rfl
  · exact absurd h (by simp)

lemma dynamicDescriptor_eq_ok {descriptor : String} (h : pool.dynamic? i = some descriptor) :
    pool.dynamicDescriptor i o = .ok descriptor := by
  rw [dynamic?] at h
  split at h
  · rename_i typeIndex hslot
    obtain ⟨name, htype⟩ := nameAndType_eq_ok (o := o) h
    rw [dynamicDescriptor, get_eq_ok hslot (by simp)]
    simp only [bind, Except.bind, htype]
    rfl
  · exact absurd h (by simp)

/-! ### Reading indices -/

variable {i : Index}

lemma reads_readIndex {α : Type} {lookUp : Nat → Nat → Except Error α} {a : α}
    (h : ∀ o, lookUp i.toNat o = .ok a) : Reads (readIndex lookUp) (twoBytes i.toNat) a :=
  Reads.offset fun o => (reads_u2 i.toNat_lt).bindNil (reads_liftM (h o))

lemma HasText.reads (h : pool.HasText i) :
    ∃ text, pool.text? i.toNat = some text ∧ Reads pool.readUtf8 (twoBytes i.toNat) text ∧
      ∀ kind, pool.signatureUse kind i = [.signature kind text] := by
  obtain ⟨text, htext⟩ := Option.isSome_iff_exists.1 h
  refine ⟨text, htext, reads_readIndex fun _ => utf8_eq_ok htext, fun kind => ?_⟩
  simp [signatureUse, htext]

lemma HasClass.reads (h : pool.HasClass i) :
    ∃ name, pool.className? i.toNat = some name ∧ Reads pool.readClassName (twoBytes i.toNat) name ∧
      ∀ kind, pool.nameUse kind i = [.internalName kind name] := by
  obtain ⟨name, hname⟩ := Option.isSome_iff_exists.1 h
  refine ⟨name, hname, reads_readIndex fun _ => className_eq_ok hname, fun kind => ?_⟩
  simp [nameUse, hname]

lemma HasClassOrNone.reads (h : pool.HasClassOrNone i) :
    ∃ name, Reads pool.readClassName? (twoBytes i.toNat) name ∧
      ∀ kind, pool.optionalUse kind i = name.toList.map (TypeUse.internalName kind) := by
  rcases h with rfl | h
  · exact ⟨none, reads_readIndex fun _ => rfl, fun _ => rfl⟩
  · by_cases hzero : i = 0
    · subst hzero
      exact ⟨none, reads_readIndex fun _ => rfl, fun _ => rfl⟩
    · obtain ⟨name, hname⟩ := Option.isSome_iff_exists.1 h
      have hnat : i.toNat ≠ 0 := fun hi => hzero (UInt16.toNat_inj.1 hi)
      refine ⟨some name, reads_readIndex fun o => ?_, fun kind => ?_⟩
      · rw [if_neg hnat, className_eq_ok hname]
        rfl
      · rw [optionalUse, if_neg hzero, nameUse, hname]
        rfl

lemma reads_optionalUse (kind : ReferenceKind) (h : pool.HasClassOrNone i) :
    Reads (do
        match ← pool.readClassName? with
        | some name => return [.internalName kind name]
        | none => return [])
      (twoBytes i.toNat) (pool.optionalUse kind i) := by
  obtain ⟨name, hread, huse⟩ := h.reads
  rw [huse]
  cases name <;> exact hread.bindNil (reads_pure _)

end ConstantPool
end ClassFile
end ClasspathAudit
