import ClasspathAudit.ClassFile.InPlace.ConstantPool
import ClasspathAudit.ClassFile.Member
import ClasspathAudit.Proofs.ClassFile.InPlace.Following

/-
# The constant pool is followed

The loop over the bytes of a text stays within them and comes to the units that they spell, and the
loop that fills the slots fills as many as it is to, or one more if the last entry takes two.
-/
namespace ClasspathAudit
namespace ClassFile
namespace InPlace
open Decoder (Gives)

variable {α β : Type} {file : Bytes} {r : Reader}

/-! ### Look-ups -/

/-- Whether a look-up that fails says so at a given offset, and not that bytes are missing. -/
def BlamesAt (offset : Nat) (x : Except Error α) : Prop :=
  ∀ e, x = .error e → e.offset = offset ∧ isShortage e.fault = false

namespace BlamesAt

variable {o : Nat}

lemma ok (a : α) : BlamesAt o (.ok a) := by
  rintro e ⟨⟩

lemma error {fault : Fault} (h : isShortage fault = false) :
    BlamesAt o (.error ⟨o, fault⟩ : Except Error α) := by
  rintro e ⟨⟩
  exact ⟨rfl, h⟩

lemma bind {x : Except Error α} {next : α → Except Error β} (h : BlamesAt o x)
    (hnext : ∀ a, BlamesAt o (next a)) : BlamesAt o (x >>= next) := by
  cases x with
  | ok a => exact hnext a
  | error e =>
    rintro e' ⟨⟩
    exact h e rfl

lemma map {x : Except Error α} (h : BlamesAt o x) (f : α → β) : BlamesAt o (x.map f) := by
  cases x with
  | ok a => exact .ok (f a)
  | error e =>
    rintro e' ⟨⟩
    exact h e rfl

variable (pool : ConstantPool) (i : Nat)

lemma notA (role : EntryRole) : BlamesAt o (ConstantPool.notA role i o : Except Error α) :=
  error rfl

lemma get : BlamesAt o (pool.get i o) := by
  rw [ConstantPool.get]
  split
  · exact error rfl
  · exact error rfl
  · exact ok _

lemma utf8 : BlamesAt o (pool.utf8 i o) :=
  (get pool i).bind fun c => by
    cases c with
    | utf8 text => exact ok text
    | _ => exact notA i .utf8

lemma className : BlamesAt o (pool.className i o) :=
  (get pool i).bind fun c => by
    cases c with
    | classInfo name => exact utf8 pool name
    | _ => exact notA i .classInfo

lemma nameAndType : BlamesAt o (pool.nameAndType i o) :=
  (get pool i).bind fun c => by
    cases c with
    | nameAndType name descriptor =>
      exact (utf8 pool name).bind fun _ => (utf8 pool descriptor).bind fun _ => ok _
    | _ => exact notA i .nameAndType

lemma memberRef : BlamesAt o (pool.memberRef i o) :=
  (get pool i).bind fun c => by
    cases c with
    | memberRef owner type =>
      exact (className pool owner).bind fun _ => (nameAndType pool type).bind fun _ => ok _
    | _ => exact notA i .memberRef

lemma dynamicDescriptor : BlamesAt o (pool.dynamicDescriptor i o) :=
  (get pool i).bind fun c => by
    cases c with
    | dynamic type => exact (nameAndType pool type).bind fun _ => ok _
    | _ => exact notA i .dynamic

lemma constantLoad : BlamesAt o (Instruction.constantLoad pool i o) :=
  (get pool i).bind fun c => by
    cases c with
    | classInfo name => exact (utf8 pool name).bind fun _ => ok _
    | methodType descriptor => exact (utf8 pool descriptor).bind fun _ => ok _
    | methodHandle reference => exact (memberRef pool reference).bind fun _ => ok _
    | dynamic type => exact (dynamicDescriptor pool i).bind fun _ => ok _
    | _ => exact ok _

lemma fieldConstant : BlamesAt o (ClassFile.fieldConstant pool i o) :=
  (get pool i).bind fun c => by
    cases c with
    | classInfo name => exact (className pool i).bind fun _ => ok _
    | _ => exact ok _

end BlamesAt

lemma follows_lookUp {x : Except Error α} {o : Nat} (h : BlamesAt o x) (ho : o ≤ file.length)
    (hr : r.In file) : Follows file r id (lift x) (liftM x) :=
  follows_lift (fun e he => ⟨(h e he).1 ▸ ho, (h e he).2⟩) hr

lemma follows_readIndex {lookUp : Nat → Nat → Except Error α}
    (h : ∀ i o, BlamesAt o (lookUp i o)) (hr : r.In file) :
    Follows file r id (readIndex lookUp) (ConstantPool.readIndex lookUp) := by
  refine follows_offsetThen hr fun o ho => ?_
  refine (follows_u2 hr).bind fun {index r'} _ hr' _ => ?_
  rw [ho]
  exact follows_lookUp (h _ _) hr.offset_le hr'

lemma follows_readUtf8 (pool : ConstantPool) (hr : r.In file) :
    Follows file r id (readUtf8 pool) pool.readUtf8 :=
  follows_readIndex (fun i _ => .utf8 pool i) hr

lemma follows_readClassName (pool : ConstantPool) (hr : r.In file) :
    Follows file r id (readClassName pool) pool.readClassName :=
  follows_readIndex (fun i _ => .className pool i) hr

lemma follows_readClassName? (pool : ConstantPool) (hr : r.In file) :
    Follows file r id (readClassName? pool) pool.readClassName? := by
  refine follows_readIndex (fun i o => ?_) hr
  split
  · exact .ok none
  · exact (BlamesAt.className pool i).map some

/-! ### Texts -/

lemma of_drop_eq_cons {bytes rest : Bytes} {n : Nat} {b : UInt8} (h : bytes.drop n = b :: rest) :
    n < bytes.length ∧ bytes[n]? = some b ∧ bytes.drop (n + 1) = rest := by
  have hget : bytes[n]? = some b := by rw [← List.head?_drop, h, List.head?_cons]
  refine ⟨(List.getElem?_eq_some_iff.1 hget).1, hget, ?_⟩
  rw [← List.tail_drop, h, List.tail_cons]

lemma continuationAt_eq {bytes : Bytes} {i : UInt64} {n : Nat} (h : i.toNat = n) :
    continuationAt bytes i = (bytes.drop n).head?.bind ModifiedUtf8.continuation? := by
  rw [continuationAt, h, List.head?_drop]

/-- Whether what is found at an index is what the units there begin with. -/
def IsUnitAt (bytes : Bytes) (b : UInt8) (rest : Bytes) : Option (Nat × UInt64) → Prop
  | none => ModifiedUtf8.units? (b :: rest) = none
  | some (u, next) => ∃ tail, bytes.drop next.toNat = tail ∧ tail.length ≤ rest.length ∧
    ModifiedUtf8.units? (b :: rest) = (ModifiedUtf8.units? tail).map (u :: ·)

/-- Only places in the bytes or at their end are looked at, which are reached without overflow. -/
lemma exists_unitAt {bytes rest : Bytes} (hfits : bytes.length < 2 ^ 64) {i : UInt64} {b : UInt8}
    (htail : bytes.drop i.toNat = b :: rest) :
    ∃ found, unitAt bytes i = pure found ∧ IsUnitAt bytes b rest found := by
  have hplace : ∀ {k : UInt64} (n : Nat), k.toNat = n → i.toNat + n ≤ bytes.length →
      add i k = pure (i + k) ∧ (i + k).toNat = i.toNat + n := by
    rintro k n rfl hle
    have hlt := Nat.lt_of_le_of_lt hle hfits
    exact ⟨add_eq hlt, toNat_add hlt⟩
  obtain ⟨hlt, hget, hrest⟩ := of_drop_eq_cons htail
  obtain ⟨hadd, hsum⟩ := hplace (k := 1) 1 rfl hlt
  have hunits := ModifiedUtf8.units?.eq_def (b :: rest)
  rw [unitAt, byteAt_eq hget, pure_bind]
  simp only [hadd, pure_bind, continuationAt_eq hsum, hrest] at hunits ⊢
  split_ifs at hunits ⊢ with hone htwo hthree
  · exact ⟨_, rfl, rest, by rw [hsum, hrest], Nat.le_refl _, hunits⟩
  · cases rest with
    | nil => exact ⟨none, rfl, hunits⟩
    | cons b₂ rest =>
      obtain ⟨hlt₂, -, hrest₂⟩ := of_drop_eq_cons hrest
      obtain ⟨hadd₂, hsum₂⟩ := hplace (k := 2) 2 rfl hlt₂
      simp only [List.head?_cons, Option.bind_some, hadd₂, pure_bind]
      cases hx : ModifiedUtf8.continuation? b₂ with
      | none =>
        simp only [hx] at hunits
        exact ⟨none, rfl, hunits⟩
      | some x =>
        simp only [hx] at hunits
        exact ⟨_, rfl, rest, by rw [hsum₂, hrest₂], Nat.le_succ _, hunits⟩
  · cases rest with
    | nil => exact ⟨none, rfl, hunits⟩
    | cons b₂ rest =>
      obtain ⟨hlt₂, -, hrest₂⟩ := of_drop_eq_cons hrest
      obtain ⟨hadd₂, hsum₂⟩ := hplace (k := 2) 2 rfl hlt₂
      simp only [List.head?_cons, Option.bind_some, hadd₂, pure_bind, continuationAt_eq hsum₂,
        hrest₂]
      cases rest with
      | nil =>
        cases ModifiedUtf8.continuation? b₂ <;> exact ⟨none, rfl, hunits⟩
      | cons b₃ rest =>
        obtain ⟨hlt₃, -, hrest₃⟩ := of_drop_eq_cons hrest₂
        obtain ⟨hadd₃, hsum₃⟩ := hplace (k := 3) 3 rfl hlt₃
        simp only [List.head?_cons, Option.bind_some, hadd₃, pure_bind]
        cases hx : ModifiedUtf8.continuation? b₂ with
        | none =>
          simp only [hx] at hunits
          exact ⟨none, rfl, hunits⟩
        | some x =>
          cases hy : ModifiedUtf8.continuation? b₃ with
          | none =>
            simp only [hx, hy] at hunits
            exact ⟨none, rfl, hunits⟩
          | some y =>
            simp only [hx, hy] at hunits
            exact ⟨_, rfl, rest, by rw [hsum₃, hrest₃], Nat.le_add_right _ 2, hunits⟩
  · exact ⟨none, rfl, hunits⟩

/-- The loop stays within the bytes, and each turn passes over at least one of them. -/
lemma unitsFrom_eq {bytes : Bytes} (hfits : bytes.length < 2 ^ 64) :
    ∀ {budget : Nat} {i : UInt64} {tail : Bytes}, bytes.drop i.toNat = tail →
      tail.length < budget → unitsFrom bytes budget i = pure (ModifiedUtf8.units? tail)
  | budget + 1, i, [], htail, _ => by
    rw [unitsFrom, if_neg (Nat.not_lt.2 (List.drop_eq_nil_iff.1 htail))]
    rfl
  | budget + 1, i, b :: rest, htail, hbudget => by
    obtain ⟨found, hunit, hfound⟩ := exists_unitAt hfits htail
    rw [unitsFrom, if_pos (of_drop_eq_cons htail).1, hunit, pure_bind]
    cases found with
    | none => rw [hfound]
    | some found =>
      obtain ⟨tail, htail, hlength, hunits⟩ := hfound
      have hless : tail.length < budget :=
        Nat.lt_of_le_of_lt hlength (Nat.lt_of_succ_lt_succ hbudget)
      simp only [unitsFrom_eq hfits htail hless, pure_bind, hunits]

lemma text?_eq {bytes : Bytes} (hfits : bytes.length < 2 ^ 64) :
    text? bytes = pure (ModifiedUtf8.decode? bytes) := by
  rw [text?, ModifiedUtf8.decode?]
  split
  · rfl
  · rw [unitsFrom_eq hfits (i := 0) List.drop_zero (Nat.lt_succ_self _)]
    rfl

/-! ### Entries -/

lemma follows_twoIndices (make : Nat → Nat → Constant × Bool) (hr : r.In file) :
    Follows file r id
      (do let i ← u2; let j ← u2; return make i.toNat j.toNat)
      (do let i ← Decoder.u2; let j ← Decoder.u2; return make i j) :=
  (follows_u2 hr).bind fun _ hr' _ => (follows_u2 hr').map fun _ => rfl

/-- The byte before the one that is next has an offset, if there is such a byte. -/
lemma follows_failBefore {f : α → β} {fault : Fault} {n : Nat} (hr : r.In file)
    (hn : n + 1 = r.rest.offset) (hfault : isShortage fault = false) :
    Follows file r f (do let behind ← offset; let here ← sub behind 1; failAt here fault)
      (Decoder.failAt n fault) := by
  obtain ⟨o, hoffset, ho⟩ := exists_offset hr
  have hone : (1 : UInt64).toNat ≤ o.toNat := by
    rw [ho, ← hn]
    exact Nat.le_add_left _ _
  have hbefore : (o - 1).toNat = n := by
    rw [toNat_sub hone, ho, ← hn]
    rfl
  have hle : n ≤ file.length := by
    have hoffset := hr.offset_le
    omega
  subst hbefore
  refine follows_of_error ?_ rfl (sound_of_not_isShortage hle hfault)
  rw [bind_of_ok hoffset, sub_eq hone, pure_bind]
  rfl

lemma follows_taggedEntry {tag : UInt8} {tagOffset : Nat} (hr : r.In file)
    (htag : tagOffset + 1 = r.rest.offset) :
    Follows file r id (taggedEntry tag) (Constant.decodeTagged tag.toNat tagOffset) := by
  have hskippedIndex : ∀ {k : UInt64} {n : Nat} (make : Nat → Constant × Bool), k.toNat = n →
      Follows file r id (do skip k; let i ← u2; return make i.toNat)
        (do Decoder.skip n; let i ← Decoder.u2; return make i) := fun _ hk =>
    (follows_skip hr hk).bind fun _ hr' _ => (follows_u2 hr').map fun _ => rfl
  unfold taggedEntry
  generalize tag.toNat = n
  split
  · refine (follows_u2 hr).bind fun {count r'} _ hr' _ => ?_
    refine follows_offsetThen hr' fun start hstart => ?_
    refine (follows_take hr' count.toUInt64).bind fun {bytes r''} htake hr'' _ => ?_
    have hlength : bytes.length = count.toUInt64.toNat := htake.take.1
    have hfits : bytes.length < 2 ^ 64 := hlength ▸ count.toUInt64.toNat_lt
    rw [text?_eq hfits, pure_bind]
    rw [id]
    cases ModifiedUtf8.decode? bytes with
    | some text => exact follows_pure hr'' rfl
    | none => exact follows_failAt hstart hr'.offset_le rfl
  · exact (follows_skip hr rfl).map fun _ => rfl
  · exact (follows_skip hr rfl).map fun _ => rfl
  · exact (follows_skip hr rfl).map fun _ => rfl
  · exact (follows_skip hr rfl).map fun _ => rfl
  · exact (follows_u2 hr).map fun _ => rfl
  · exact (follows_skip hr rfl).map fun _ => rfl
  · exact follows_twoIndices (fun i j => (.memberRef i j, false)) hr
  · exact follows_twoIndices (fun i j => (.memberRef i j, false)) hr
  · exact follows_twoIndices (fun i j => (.memberRef i j, false)) hr
  · exact follows_twoIndices (fun i j => (.nameAndType i j, false)) hr
  · exact hskippedIndex (fun i => (.methodHandle i, false)) rfl
  · exact (follows_u2 hr).map fun _ => rfl
  · exact hskippedIndex (fun i => (.dynamic i, false)) rfl
  · exact hskippedIndex (fun i => (.dynamic i, false)) rfl
  · exact (follows_skip hr rfl).map fun _ => rfl
  · exact (follows_skip hr rfl).map fun _ => rfl
  · -- the decoder knows no other tag either
    rw [Constant.decodeTagged]
    · exact follows_failBefore hr htag rfl
    all_goals assumption

/-! ### Slots -/

/-- The loop fills the slots that are free, and one turn fills one or two of them. -/
lemma follows_poolFrom {count : Nat} : ∀ {budget free : Nat} {slots : List Constant} {r : Reader},
    r.In file → 0 < slots.length → slots.length + free = max 1 count → free < budget →
      Follows file r id (poolFrom count budget slots) (do
        let more ← ConstantPool.decodeSlots count free
        return ⟨(slots ++ more).toArray⟩)
  | budget + 1, 0, slots, r, hr, hpos, hslots, _ => by
    have hfull : ¬slots.length < count := by omega
    have hfits : ¬(count < slots.length ∧ 0 < count) := by omega
    rw [poolFrom, if_neg hfull, if_neg hfits, ConstantPool.decodeSlots, pure_bind, List.append_nil]
    exact follows_pure hr rfl
  | budget + 1, free + 1, slots, r, hr, hpos, hslots, hbudget => by
    have hfree : slots.length < count := by omega
    rw [poolFrom, if_pos hfree, ConstantPool.decodeSlots, Constant.decode]
    simp only [bind_assoc]
    refine Follows.offsetLeft ((follows_u1 hr).bind fun {tag r'} htag hr' _ => ?_)
    refine (follows_taggedEntry hr' (offset_of_u1 htag)).bind fun {entry r''} _ hr'' _ => ?_
    obtain ⟨constant, isWide⟩ := entry
    cases isWide with
    | false =>
      have hlength : (slots ++ [constant]).length + free = max 1 count := by
        rw [List.length_append, List.length_singleton]
        omega
      have hmore := follows_poolFrom hr'' (by simp) hlength (Nat.lt_of_succ_lt_succ hbudget)
      simpa using hmore
    | true =>
      have hlength : (slots ++ [constant, .unusable]).length = slots.length + 2 := by simp
      cases free with
      | zero =>
        -- the last entry takes a slot more than there is
        obtain ⟨k, rfl⟩ := Nat.exists_eq_succ_of_ne_zero (n := budget) (by omega)
        have hfull : ¬(slots ++ [constant, .unusable]).length < count := by omega
        have hover : count < (slots ++ [constant, .unusable]).length ∧ 0 < count := by omega
        rw [if_pos rfl, poolFrom, if_neg hfull, if_pos hover]
        exact follows_fail hr'' rfl
      | succ free =>
        have hslots : (slots ++ [constant, .unusable]).length + free = max 1 count := by omega
        have hbudget : free < budget := by omega
        have hmore := follows_poolFrom hr'' (by omega) hslots hbudget
        simpa using hmore

lemma follows_constantPool (hr : r.In file) :
    Follows file r id constantPool ConstantPool.decode := by
  refine (follows_u2 hr).bind fun {count r'} _ hr' _ => ?_
  have hlength : [Constant.unusable].length + (count.toNat - 1) = max 1 count.toNat := by
    rw [List.length_singleton]
    omega
  exact follows_poolFrom hr' Nat.one_pos hlength (by omega)

end InPlace
end ClassFile
end ClasspathAudit
