import ClasspathAudit.ClassFile.InPlace.Instruction
import ClasspathAudit.Proofs.ClassFile.InstructionFormat
import ClasspathAudit.Proofs.ClassFile.Inversion

/-
# Walking through code

The instructions of a method are told apart by walking over each of them in turn, so one that is
taken for longer or shorter than it is makes nonsense of the rest. Each step of the walk passes over
one well-formed instruction; hence the walk comes to the end of the code if and only if the code is
a sequence of such, and then finds what they mention.

The room of a switch is computed from signed numbers of four bytes, with words of eight. Four times
the widest table fits a word, and so does eight times the greatest number of pairs, so the room
computed is the one meant, and code that ends too early is reported with the number of bytes that it
lacks.

The main result is `sequence_exact`.
-/
namespace ClasspathAudit
namespace ClassFile
open Decoder

variable {pool : ConstantPool} {w w' : Window}

namespace Instruction

/-! ### Opcodes and forms -/

/-- The opcodes whose operands have a given form. -/
def HasForm (opcode : UInt8) : Form → Prop
  | .plain width => plainWidth? opcode.toNat = some width
  | .loadConstant width => opcode = 0x12 ∧ width = 1 ∨ opcode ∈ wideLoadOpcodes ∧ width = 2
  | .member trailing => opcode ∈ memberOpcodes ∧ trailing = 0 ∨ opcode = 0xB9 ∧ trailing = 2
  | .callSite => opcode = 0xBA
  | .classOperand => opcode ∈ classOpcodes
  | .arrayCreation => opcode = 0xC5
  | .tableSwitch => opcode = 0xAA
  | .lookupSwitch => opcode = 0xAB
  | .wide => opcode = 0xC4

instance (opcode : UInt8) : (form : Form) → Decidable (HasForm opcode form)
  | .plain width => inferInstanceAs (Decidable (plainWidth? opcode.toNat = some width))
  | .loadConstant width =>
    inferInstanceAs (Decidable (opcode = 0x12 ∧ width = 1 ∨ opcode ∈ wideLoadOpcodes ∧ width = 2))
  | .member trailing =>
    inferInstanceAs
      (Decidable (opcode ∈ memberOpcodes ∧ trailing = 0 ∨ opcode = 0xB9 ∧ trailing = 2))
  | .callSite => inferInstanceAs (Decidable (opcode = 0xBA))
  | .classOperand => inferInstanceAs (Decidable (opcode ∈ classOpcodes))
  | .arrayCreation => inferInstanceAs (Decidable (opcode = 0xC5))
  | .tableSwitch => inferInstanceAs (Decidable (opcode = 0xAA))
  | .lookupSwitch => inferInstanceAs (Decidable (opcode = 0xAB))
  | .wide => inferInstanceAs (Decidable (opcode = 0xC4))

lemma hasForm_of_form? (opcode : UInt8) {form : Form} (h : form? opcode.toNat = some form) :
    HasForm opcode form := by
  have hall : ∀ n < 256, ∀ form ∈ form? n, HasForm (.ofNat n) form := by decide +kernel
  have hopcode := hall opcode.toNat opcode.toNat_lt form h
  rwa [UInt8.ofNat_toNat] at hopcode

lemma mem_localOpcodes {opcode : UInt8} (h : usesLocal opcode.toNat = true) :
    opcode ∈ localOpcodes := by
  have hall : ∀ n < 256, usesLocal n = true → UInt8.ofNat n ∈ localOpcodes := by decide +kernel
  have hopcode := hall opcode.toNat opcode.toNat_lt h
  rwa [UInt8.ofNat_toNat] at hopcode

/-! ### One instruction -/

lemma loadable_of_constantLoad {i o : Nat} {uses : List TypeUse}
    (h : constantLoad pool i o = .ok uses) : Loadable pool i := by
  obtain ⟨c, hget, h⟩ := exists_of_bind_eq_ok h
  obtain ⟨hslot, hne⟩ := ConstantPool.slot_of_get hget
  rw [Loadable, hslot]
  cases c with
  | unusable => exact absurd rfl hne
  | classInfo name =>
    obtain ⟨text, htext, -⟩ := exists_of_bind_eq_ok h
    exact Option.isSome_of_eq_some (ConstantPool.text?_of_utf8 htext)
  | methodType descriptor =>
    obtain ⟨text, htext, -⟩ := exists_of_bind_eq_ok h
    exact Option.isSome_of_eq_some (ConstantPool.text?_of_utf8 htext)
  | methodHandle reference =>
    obtain ⟨member, hmember, -⟩ := exists_of_bind_eq_ok h
    exact Option.isSome_of_eq_some (ConstantPool.member?_of_memberRef hmember)
  | dynamic type =>
    obtain ⟨descriptor, hdescriptor, -⟩ := exists_of_bind_eq_ok h
    have hdynamic := ConstantPool.dynamic?_of_dynamicDescriptor hdescriptor
    rw [ConstantPool.dynamic?, hslot] at hdynamic
    exact Option.isSome_of_eq_some hdynamic
  | _ => trivial

lemma exists_encodePair {bytes : Bytes} (h : bytes.length = 8) :
    ∃ pair, encodePair pair = bytes := by
  have htake : (bytes.take 4).length = 4 := by simp [h]
  have hdrop : (bytes.drop 4).length = 4 := by simp [h]
  obtain ⟨m, -, hm⟩ := exists_fourBytes htake
  obtain ⟨n, -, hn⟩ := exists_fourBytes hdrop
  exact ⟨(m, n), by rw [encodePair, ← hm, ← hn, List.take_append_drop]⟩

lemma toNat_toUInt32 {n : Int32} (h : 0 ≤ n.toInt) : n.toUInt32.toNat = n.toInt.toNat :=
  Int32.toNat_toUInt32_of_le (Int32.le_iff_toInt_le.2 h)

end Instruction

namespace Decoder

lemma Gives.constantLoad {d : Decoder Nat} {o : Nat} {found : List TypeUse}
    (h : Gives (do let index ← d; liftM (Instruction.constantLoad pool index o)) w found w') :
    ∃ index, Gives d w index w' ∧ Instruction.Loadable pool index ∧
      Instruction.usesOfLoad pool index = found := by
  obtain ⟨index, m, hindex, h⟩ := h.bind
  obtain ⟨hload, rfl⟩ := h.lift
  have hloadable := Instruction.loadable_of_constantLoad hload
  exact ⟨index, hindex, hloadable,
    Except.ok.inj ((Instruction.constantLoad_eq_ok hloadable).symm.trans hload)⟩

lemma Gives.memberRef {member : String × String}
    (h : Gives (ConstantPool.readIndex pool.memberRef) w member w') :
    ∃ index : Index, (pool.member? index.toNat).isSome ∧
      Instruction.usesOfMember (pool.member? index.toNat) =
        [.internalName .memberOwner member.1, .signature .memberType member.2] ∧
      w.Over (twoBytes index.toNat) w' := by
  obtain ⟨index, hlookUp, hover⟩ := h.readIndex
  have hmember := ConstantPool.member?_of_memberRef hlookUp
  exact ⟨index, Option.isSome_of_eq_some hmember, by rw [hmember]; rfl, hover⟩

/-- What the operands of both kinds of switch begin with. -/
lemma Gives.switch {α : Type} {d : Decoder α} {a : α}
    (h : Gives (do Instruction.skipPadding; Decoder.skip 4; d) w a w') :
    ∃ (padding : Bytes) (otherwise : UInt32) (m : Window),
      padding.length = (4 - w.position % 4) % 4 ∧ Gives d m a w' ∧
      ∀ {front : Bytes}, m.Over front w' →
        w.Over (padding ++ (fourBytes otherwise.toNat ++ front)) w' := by
  obtain ⟨_, k, hpadding, h⟩ := h.bind
  obtain ⟨padding, hlength, hpadding⟩ := hpadding.position.skip
  obtain ⟨_, m, hotherwise, h⟩ := h.bind
  obtain ⟨bytes, hfour, hotherwise⟩ := hotherwise.skip
  obtain ⟨otherwise, -, rfl⟩ := exists_fourBytes hfour
  exact ⟨padding, otherwise, m, hlength, h, fun hfront => hpadding.trans (hotherwise.trans hfront)⟩

end Decoder

namespace Instruction

/-- Whether the operands that are passed over behind an opcode make a well-formed instruction of it,
one that mentions what has been found. -/
def Completes (pool : ConstantPool) (opcode : UInt8) (position : Nat) (w w' : Window)
    (found : List TypeUse) : Prop :=
  ∃ i : Instruction, i.WellFormedAt pool position ∧ i.opcode = opcode ∧ w.Over i.operands w' ∧
    i.uses pool = found

section Operands

variable {opcode : UInt8} {start position width trailing : Nat} {found : List TypeUse}

lemma completes_loadConstant (hform : HasForm opcode (.loadConstant width))
    (h : Gives (decodeOperands pool start (.loadConstant width)) w found w') :
    Completes pool opcode position w w' found := by
  rcases hform with ⟨rfl, rfl⟩ | ⟨hmem, rfl⟩
  · obtain ⟨_, hindex, hloadable, huses⟩ := Gives.constantLoad (d := u1) h.offset
    obtain ⟨index, rfl, hoperands⟩ := hindex.u1
    exact ⟨.load index, hloadable, rfl, hoperands, huses⟩
  · obtain ⟨_, hindex, hloadable, huses⟩ := Gives.constantLoad (d := u2) h.offset
    obtain ⟨index, rfl, hoperands⟩ := hindex.u2
    exact ⟨.wideLoad opcode index, ⟨hmem, hloadable⟩, rfl, hoperands, huses⟩

lemma completes_member (hform : HasForm opcode (.member trailing))
    (h : Gives (decodeOperands pool start (.member trailing)) w found w') :
    Completes pool opcode position w w' found := by
  obtain ⟨member, m, hmember, h⟩ := h.bind
  obtain ⟨index, hsome, huses, hindex⟩ := hmember.memberRef
  obtain ⟨rfl, behind, hlength, hbehind⟩ := h.skipReturn
  have hoperands := hindex.trans hbehind
  rcases hform with ⟨hmem, rfl⟩ | ⟨rfl, rfl⟩
  · rw [List.length_eq_zero_iff.1 hlength, List.append_nil] at hoperands
    exact ⟨.member opcode index, ⟨hmem, hsome⟩, rfl, hoperands, huses⟩
  · obtain ⟨count, reserved, rfl⟩ := List.length_eq_two.1 hlength
    exact ⟨.interfaceCall index count reserved, hsome, rfl, hoperands, huses⟩

lemma completes_callSite (hform : HasForm opcode .callSite)
    (h : Gives (decodeOperands pool start .callSite) w found w') :
    Completes pool opcode position w w' found := by
  obtain ⟨descriptor, m, hdescriptor, h⟩ := h.bind
  obtain ⟨index, hlookUp, hindex⟩ := hdescriptor.readIndex
  obtain ⟨rfl, behind, hlength, hbehind⟩ := h.skipReturn
  obtain ⟨reserved, -, rfl⟩ := exists_twoBytes hlength
  have hdynamic := ConstantPool.dynamic?_of_dynamicDescriptor hlookUp
  exact ⟨.dynamicCall index reserved, Option.isSome_of_eq_some hdynamic, hform.symm,
    hindex.trans hbehind, by simp [uses, hdynamic]⟩

lemma completes_arrayCreation (hform : HasForm opcode .arrayCreation)
    (h : Gives (decodeOperands pool start .arrayCreation) w found w') :
    Completes pool opcode position w w' found := by
  obtain ⟨name, m, hname, h⟩ := h.bind
  obtain ⟨index, hclass, huse, hindex⟩ := hname.className
  obtain ⟨rfl, behind, hlength, hbehind⟩ := h.skipReturn
  obtain ⟨dimensions, rfl⟩ := List.length_eq_one_iff.1 hlength
  exact ⟨.arrayCreation index dimensions, hclass, hform.symm, hindex.trans hbehind, huse _⟩

lemma completes_tableSwitch (hform : HasForm opcode .tableSwitch)
    (hposition : w.position = position + 1)
    (h : Gives (decodeOperands pool start .tableSwitch) w found w') :
    Completes pool opcode position w w' found := by
  rw [decodeOperands] at h
  obtain ⟨padding, otherwise, m, hpadding, h, hoperands⟩ := h.switch
  rw [hposition] at hpadding
  obtain ⟨_, _, hlow, h⟩ := h.bind
  obtain ⟨low, rfl, hoverLow⟩ := hlow.i4
  obtain ⟨_, _, hhigh, h⟩ := h.bind
  obtain ⟨high, rfl, hoverHigh⟩ := hhigh.i4
  split_ifs at h with hlt
  · exact absurd h not_gives_fail
  · obtain ⟨rfl, bytes, hroom, hbytes⟩ := h.skipReturn
    -- the targets are passed over unread, but any four bytes are a target
    have hfour : ∀ bytes : Bytes, bytes.length = 4 → ∃ n : UInt32, fourBytes n.toNat = bytes :=
      fun _ hlength => (exists_fourBytes hlength).imp fun _ hn => hn.2.symm
    obtain ⟨targets, hcount, rfl⟩ := exists_flatMap_of_length hfour _ hroom
    exact ⟨.tableSwitch padding otherwise low high targets, ⟨hpadding, by omega, by omega⟩,
      hform.symm, hoperands (hoverLow.trans (hoverHigh.trans hbytes)), rfl⟩

lemma completes_lookupSwitch (hform : HasForm opcode .lookupSwitch)
    (hposition : w.position = position + 1)
    (h : Gives (decodeOperands pool start .lookupSwitch) w found w') :
    Completes pool opcode position w w' found := by
  rw [decodeOperands] at h
  obtain ⟨padding, otherwise, m, hpadding, h, hoperands⟩ := h.switch
  rw [hposition] at hpadding
  obtain ⟨_, _, hnumber, h⟩ := h.bind
  obtain ⟨number, rfl, hoverNumber⟩ := hnumber.i4
  split_ifs at h with hlt
  · exact absurd h not_gives_fail
  · obtain ⟨rfl, bytes, hroom, hbytes⟩ := h.skipReturn
    obtain ⟨pairs, hcount, rfl⟩ := exists_flatMap_of_length (fun _ => exists_encodePair) _ hroom
    have hbound := number.toInt_lt
    rw [toNat_toUInt32 (by omega), ← hcount] at hoverNumber
    exact ⟨.lookupSwitch padding otherwise pairs, ⟨hpadding, by omega⟩, hform.symm,
      hoperands (hoverNumber.trans hbytes), rfl⟩

lemma completes_wide (hform : HasForm opcode .wide)
    (h : Gives (decodeOperands pool start .wide) w found w') :
    Completes pool opcode position w w' found := by
  obtain ⟨_, m, hinner, h⟩ := h.bind
  obtain ⟨inner, rfl, hoverInner⟩ := hinner.u1
  split_ifs at h with hincrement hlocal
  · obtain ⟨rfl, bytes, hlength, hbytes⟩ := h.skipReturn
    obtain ⟨index, increment, rfl⟩ := exists_twoBytes_append hlength
    obtain rfl : inner = 0x84 := UInt8.toNat_inj.1 hincrement
    exact ⟨.wideIncrement index increment, trivial, hform.symm, hoverInner.trans hbytes, rfl⟩
  · obtain ⟨rfl, bytes, hlength, hbytes⟩ := h.skipReturn
    obtain ⟨index, -, rfl⟩ := exists_twoBytes hlength
    exact ⟨.wideLocal inner index, mem_localOpcodes hlocal, hform.symm, hoverInner.trans hbytes,
      rfl⟩
  · exact absurd h not_gives_failAt

/-- Whatever form the operands of an opcode have, those that are passed over complete it. -/
lemma completes_of_decodeOperands {form : Form} (hform : HasForm opcode form)
    (hposition : w.position = position + 1)
    (h : Gives (decodeOperands pool start form) w found w') :
    Completes pool opcode position w w' found := by
  cases form with
  | plain width =>
    obtain ⟨rfl, operands, hlength, hoperands⟩ := h.skipReturn
    exact ⟨.plain opcode operands, by rw [WellFormedAt, hform, hlength], rfl, hoperands, rfl⟩
  | loadConstant width => exact completes_loadConstant hform h
  | member trailing => exact completes_member hform h
  | callSite => exact completes_callSite hform h
  | classOperand =>
    obtain ⟨name, hname, rfl⟩ := h.map
    obtain ⟨index, hclass, huse, hindex⟩ := hname.className
    exact ⟨.classOperand opcode index, ⟨hform, hclass⟩, rfl, hindex, huse _⟩
  | arrayCreation => exact completes_arrayCreation hform h
  | tableSwitch => exact completes_tableSwitch hform hposition h
  | lookupSwitch => exact completes_lookupSwitch hform hposition h
  | wide => exact completes_wide hform h

end Operands

/-- A step of the walk that gives anything has passed over a well-formed instruction and found what
it mentions. -/
lemma exists_of_decode {found : List TypeUse} (h : Gives (Instruction.decode pool) w found w') :
    ∃ i : Instruction, i.WellFormedAt pool w.position ∧ w.Over i.encode w' ∧
      i.uses pool = found := by
  obtain ⟨n, m, hopcode, h⟩ := h.offset.bind
  obtain ⟨opcode, rfl, hover⟩ := hopcode.u1
  split at h
  · rename_i form hform
    obtain ⟨i, hwellFormed, rfl, hoperands, huses⟩ :=
      completes_of_decodeOperands (hasForm_of_form? opcode hform) hover.position h
    exact ⟨i, hwellFormed, hover.trans hoperands, huses⟩
  · exact absurd h not_gives_failAt

/-! ### The whole walk -/

/-- The walk ends at the end of the code, having passed over well-formed instructions alone. -/
lemma exists_of_decodeAll : ∀ {budget : Nat} {w w' : Window} {found : List TypeUse},
    w.rest.length ≤ budget → Gives (decodeAll pool budget) w found w' →
      ∃ code : List Instruction, WellFormedFrom pool w.position code ∧
        code.flatMap encode = w.rest ∧ code.flatMap (uses pool) = found
  | 0, w, w', found, hbudget, h => by
    obtain ⟨rfl, rfl⟩ := h.pure
    exact ⟨[], trivial, (List.length_eq_zero_iff.1 (Nat.le_zero.1 hbudget)).symm, rfl⟩
  | budget + 1, w, w', found, hbudget, h => by
    cases hempty : w.rest.isEmpty with
    | true =>
      have hget : (get : Decoder Window) w = .ok (w, w) := rfl
      rw [Gives, decodeAll, bind_eq_of_ok hget, hempty] at h
      obtain ⟨rfl, rfl⟩ := Gives.pure h
      exact ⟨[], trivial, (List.isEmpty_iff.1 hempty).symm, rfl⟩
    | false =>
      rw [Gives, decodeAll_succ budget hempty] at h
      obtain ⟨_, m, hdecode, h⟩ := Gives.bind h
      obtain ⟨more, hmore, rfl⟩ := h.map
      obtain ⟨i, hi, hover, rfl⟩ := exists_of_decode hdecode
      have hlength : w.rest.length = i.encode.length + m.rest.length := by
        rw [hover.rest, List.length_append]
      -- an instruction has at least one byte, so the budget does not run out before the code
      have hpos : 0 < i.encode.length := by simp [encode]
      obtain ⟨code, hcode, hrest, rfl⟩ := exists_of_decodeAll (by omega) hmore
      rw [hover.position] at hcode
      exact ⟨i :: code, ⟨hi, hcode⟩, by rw [List.flatMap_cons, hrest, hover.rest],
        List.flatMap_cons⟩

/-- A step that fails after well-formed instructions ends the walk. -/
lemma decodeAll_eq_error {base : Nat} {rest : Bytes} {e : Error} (hrest : rest ≠ []) :
    ∀ (before : List Instruction) {position budget : Nat},
      WellFormedFrom pool position before →
      Instruction.decode pool ⟨rest, position + (before.flatMap encode).length, base⟩ = .error e →
      (before.flatMap encode ++ rest).length ≤ budget →
      decodeAll pool budget ⟨before.flatMap encode ++ rest, position, base⟩ = .error e
  | _, _, 0, _, _, hbudget => by
    rw [Nat.le_zero, List.length_eq_zero_iff, List.append_eq_nil_iff] at hbudget
    exact absurd hbudget.2 hrest
  | [], position, budget + 1, _, herror, _ => by
    have hempty : rest.isEmpty = false := List.isEmpty_eq_false_iff.2 hrest
    rw [List.flatMap_nil, List.length_nil, Nat.add_zero] at herror
    rw [List.flatMap_nil, List.nil_append, decodeAll_succ budget hempty]
    simp only [bind, StateT.bind, Except.bind, herror]
  | i :: before, position, budget + 1, h, herror, hbudget => by
    obtain ⟨hi, hbefore⟩ := h
    have hpos : 0 < i.encode.length := by simp [encode]
    rw [List.flatMap_cons, List.append_assoc] at hbudget ⊢
    rw [List.flatMap_cons, List.length_append, ← Nat.add_assoc] at herror
    rw [List.length_append] at hbudget
    have hlength : (before.flatMap encode ++ rest).length ≤ budget := by omega
    have hmore := decodeAll_eq_error hrest before hbefore herror hlength
    rw [decodeAll_succ budget (by simp [encode]), bind_eq_of_ok (readsAt_encode hi _ base)]
    simp only [bind, StateT.bind, Except.bind, hmore]

/-! ### The room of a switch -/

lemma toNat_saturatingMul {a b : UInt64} (h : a.toNat * b.toNat < 2 ^ 64) :
    (saturatingMul a b).toNat = a.toNat * b.toNat := by
  rw [saturatingMul, if_pos h, UInt64.toNat_mul, Nat.mod_eq_of_lt h]

lemma toNat_toUInt64 {n : Int64} (h : 0 ≤ n.toInt) : n.toUInt64.toNat = n.toInt.toNat :=
  Int64.toNat_toUInt64_of_le (Int64.le_iff_toInt_le.2 h)

/-- The part of a switch that stands before its targets. -/
inductive SwitchHead
  /-- The head of a jump by a table. -/
  | table (padding : Bytes) (otherwise : UInt32) (low high : Int32)
  /-- The head of a jump by so many pairs. -/
  | lookup (padding : Bytes) (otherwise : UInt32) (pairs : Int32)

namespace SwitchHead

/-- The bytes of the head of a switch. -/
def encode : SwitchHead → Bytes
  | table padding otherwise low high =>
    0xAA :: (padding ++ (fourBytes otherwise.toNat ++ (fourBytes low.toUInt32.toNat ++
      fourBytes high.toUInt32.toNat)))
  | lookup padding otherwise pairs =>
    0xAB :: (padding ++ (fourBytes otherwise.toNat ++ fourBytes pairs.toUInt32.toNat))

/-- Whether a switch may begin so at a position of the code. -/
def MayStandAt (position : Nat) : SwitchHead → Prop
  | table padding _ low high => padding.length = paddingAt position ∧ low.toInt ≤ high.toInt
  | lookup padding _ pairs => padding.length = paddingAt position ∧ 0 ≤ pairs.toInt

/-- The number of bytes that the targets of a switch take. -/
def room : SwitchHead → Int
  | table _ _ low high => 4 * (high.toInt - low.toInt + 1)
  | lookup _ _ pairs => 8 * pairs.toInt

/-- The number of bytes that the targets of a switch take, computed with words of eight bytes. -/
def wordRoom : SwitchHead → UInt64
  | table _ _ low high => saturatingMul (high.toInt64 - low.toInt64 + 1).toUInt64 4
  | lookup _ _ pairs => saturatingMul pairs.toInt64.toUInt64 8

variable {s : SwitchHead} {position base : Nat}

/-- Nothing overflows, whatever the bounds of a table. -/
lemma toInt_count {low high : Int32} :
    (high.toInt64 - low.toInt64 + 1).toInt = high.toInt - low.toInt + 1 := by
  have hlow := low.le_toInt
  have hlow' := low.toInt_lt
  have hhigh := high.le_toInt
  have hhigh' := high.toInt_lt
  have hone : (1 : Int64).toInt = 1 := rfl
  rw [Int64.toInt_add, Int64.toInt_sub, Int32.toInt_toInt64, Int32.toInt_toInt64, hone,
    Int.bmod_eq_of_le (n := high.toInt - low.toInt) (by omega) (by omega),
    Int.bmod_eq_of_le (by omega) (by omega)]

lemma toNat_wordRoom (h : s.MayStandAt position) : (s.wordRoom.toNat : Int) = s.room := by
  cases s with
  | table padding otherwise low high =>
    obtain ⟨-, hle⟩ := h
    -- a table has at most 2³² targets
    have hlow := low.le_toInt
    have hhigh := high.toInt_lt
    have hcount : (high.toInt64 - low.toInt64 + 1).toUInt64.toNat =
        (high.toInt - low.toInt + 1).toNat := by
      rw [toNat_toUInt64 (by rw [toInt_count]; omega), toInt_count]
    have hfour : (4 : UInt64).toNat = 4 := rfl
    rw [wordRoom, toNat_saturatingMul (by rw [hcount, hfour]; omega), hcount, hfour, room]
    omega
  | lookup padding otherwise pairs =>
    obtain ⟨-, hle⟩ := h
    have hpairs := pairs.toInt_lt
    have hcount : pairs.toInt64.toUInt64.toNat = pairs.toInt.toNat := by
      rw [toNat_toUInt64 (by rwa [Int32.toInt_toInt64]), Int32.toInt_toInt64]
    have height : (8 : UInt64).toNat = 8 := rfl
    rw [wordRoom, toNat_saturatingMul (by rw [hcount, height]; omega), hcount, height, room]
    omega

lemma decode_cons {opcode : UInt8} {form : Form} (hform : form? opcode.toNat = some form)
    (bytes : Bytes) :
    Instruction.decode pool ⟨opcode :: bytes, position, base⟩ =
      decodeOperands pool (base + position) form ⟨bytes, position + 1, base⟩ := by
  have hoffset : Decoder.offset ⟨opcode :: bytes, position, base⟩ =
      .ok (base + position, ⟨opcode :: bytes, position, base⟩) := rfl
  have hopcode : u1 ⟨opcode :: bytes, position, base⟩ =
      .ok (opcode.toNat, ⟨bytes, position + 1, base⟩) := reads_u1 opcode position bytes base
  rw [Instruction.decode, bind_eq_of_ok hoffset, bind_eq_of_ok hopcode, hform]

/-- Behind the head of a switch, the walk passes over the room of its targets and nothing else. -/
lemma decode_encode (h : s.MayStandAt position) (rest : Bytes) :
    Instruction.decode pool ⟨s.encode ++ rest, position, base⟩ =
      (do skip s.wordRoom.toNat; return []) ⟨rest, position + s.encode.length, base⟩ := by
  have hroom := toNat_wordRoom h
  cases s with
  | table padding otherwise low high =>
    obtain ⟨hpadding, hle⟩ := h
    have hskip : (high.toInt - low.toInt + 1).toNat * 4 =
        (table padding otherwise low high).wordRoom.toNat := by
      rw [room] at hroom
      omega
    have hlength : position + (table padding otherwise low high).encode.length =
        position + 1 + padding.length + 4 + 4 + 4 := by
      simp only [encode, List.length_cons, List.length_append, length_fourBytes]
      omega
    rw [hlength]
    simp only [encode, List.cons_append, List.append_assoc]
    rw [decode_cons rfl, decodeOperands, bind_eq_of_ok (readsAt_skipPadding hpadding _ base),
      bind_eq_of_ok (reads_skip (length_fourBytes _) _ _ base),
      bind_eq_of_ok (reads_i4 low _ _ base), bind_eq_of_ok (reads_i4 high _ _ base),
      if_neg (by omega), hskip]
    simp only [length_fourBytes]
  | lookup padding otherwise pairs =>
    obtain ⟨hpadding, hle⟩ := h
    have hskip : pairs.toInt.toNat * 8 = (lookup padding otherwise pairs).wordRoom.toNat := by
      rw [room] at hroom
      omega
    have hlength : position + (lookup padding otherwise pairs).encode.length =
        position + 1 + padding.length + 4 + 4 := by
      simp only [encode, List.length_cons, List.length_append, length_fourBytes]
      omega
    rw [hlength]
    simp only [encode, List.cons_append, List.append_assoc]
    rw [decode_cons rfl, decodeOperands, bind_eq_of_ok (readsAt_skipPadding hpadding _ base),
      bind_eq_of_ok (reads_skip (length_fourBytes _) _ _ base),
      bind_eq_of_ok (reads_i4 pairs _ _ base), if_neg (by omega), hskip]
    simp only [length_fourBytes]

end SwitchHead

/-! ### Code and its instructions -/

/-- The walk through code succeeds if and only if the code is a sequence of well-formed
instructions, and then finds what they mention, one after the other. Wherever a switch stands, its
targets take the room that its numbers give them, and words of eight bytes hold it: with at least as
many bytes behind its head, the walk passes over exactly these; with fewer, the number of those that
are missing is reported, and the offset at which they are. -/
theorem sequence_exact (pool : ConstantPool) (base : Nat) :
    (∀ bytes found, (∃ w, sequence pool ⟨bytes, 0, base⟩ = .ok (found, w)) ↔
      ∃ code, WellFormedFrom pool 0 code ∧ code.flatMap encode = bytes ∧
        code.flatMap (uses pool) = found) ∧
    ∀ (before : List Instruction) (s : SwitchHead) (rest : Bytes), WellFormedFrom pool 0 before →
      s.MayStandAt (before.flatMap encode).length →
      (s.wordRoom.toNat : Int) = s.room ∧
      (s.wordRoom.toNat ≤ rest.length →
        Instruction.decode pool ⟨s.encode ++ rest, (before.flatMap encode).length, base⟩ =
          .ok ([], ⟨rest.drop s.wordRoom.toNat,
            (before.flatMap encode).length + s.encode.length + s.wordRoom.toNat, base⟩)) ∧
      (rest.length < s.wordRoom.toNat →
        sequence pool ⟨before.flatMap encode ++ (s.encode ++ rest), 0, base⟩ =
          .error ⟨base + ((before.flatMap encode).length + s.encode.length),
            .truncated (s.wordRoom.toNat - rest.length)⟩) := by
  refine ⟨fun bytes found => ⟨?_, ?_⟩,
    fun before s rest hbefore hs => ⟨s.toNat_wordRoom hs, ?_, ?_⟩⟩
  · rintro ⟨w, h⟩
    exact exists_of_decodeAll (Nat.le_refl _) h
  · rintro ⟨code, hcode, rfl, rfl⟩
    exact finds_sequence hcode base
  · intro hle
    rw [s.decode_encode hs, skipReturn_eq_ok hle]
  · -- the walk comes to the head of the switch, and there a step fails
    intro hlt
    have hdecode : Instruction.decode pool
        ⟨s.encode ++ rest, 0 + (before.flatMap encode).length, base⟩ = .error
          ⟨base + ((before.flatMap encode).length + s.encode.length),
            .truncated (s.wordRoom.toNat - rest.length)⟩ := by
      rw [Nat.zero_add, s.decode_encode hs, skipReturn_eq_error hlt]
      rfl
    have hne : s.encode ++ rest ≠ [] := by cases s <;> simp [SwitchHead.encode]
    exact decodeAll_eq_error hne before hbefore hdecode (Nat.le_refl _)

/-- Code in which a jump by one pair stands between two instructions of one byte. -/
def switchCode : List Instruction :=
  [.plain 0x00 [], .lookupSwitch [0, 0] 9 [(1, 9)], .plain 0xB1 []]

/-- The head of the jump in that code. -/
def onePair : SwitchHead := .lookup [0, 0] 9 1

/-- The head of a jump by the widest table. -/
def widestTable : SwitchHead := .table [0, 0] 0 (-2 ^ 31) (2 ^ 31 - 1)

/-- The walk goes on behind one pair of numbers; behind the head of the widest table all targets are
missing. -/
theorem sequence_exact_switchCode :
    WellFormedFrom ⟨#[]⟩ 0 switchCode ∧
    (∃ w, sequence ⟨#[]⟩ ⟨switchCode.flatMap encode, 0, 100⟩ = .ok ([], w)) ∧
    onePair.MayStandAt 1 ∧
    Instruction.decode ⟨#[]⟩ ⟨onePair.encode ++ [0, 0, 0, 1, 0, 0, 0, 9, 0xB1], 1, 100⟩ =
      .ok ([], ⟨[0xB1], 20, 100⟩) ∧
    widestTable.MayStandAt 1 ∧
    sequence ⟨#[]⟩ ⟨0x00 :: widestTable.encode, 0, 100⟩ =
      .error ⟨116, .truncated (4 * 2 ^ 32)⟩ := by
  have hcode : WellFormedFrom ⟨#[]⟩ 0 switchCode := ⟨rfl, ⟨rfl, by decide⟩, rfl, trivial⟩
  have hbefore : WellFormedFrom ⟨#[]⟩ 0 [.plain 0x00 []] := ⟨rfl, trivial⟩
  have hpair : onePair.MayStandAt 1 := ⟨rfl, by decide⟩
  have htable : widestTable.MayStandAt 1 := ⟨rfl, by decide⟩
  have hpairRoom : onePair.wordRoom.toNat = 8 := by decide +kernel
  have htableRoom : widestTable.wordRoom.toNat = 4 * 2 ^ 32 := by decide +kernel
  obtain ⟨hwalk, hswitch⟩ := sequence_exact ⟨#[]⟩ 100
  obtain ⟨-, hpasses, -⟩ := hswitch [.plain 0x00 []] onePair [0, 0, 0, 1, 0, 0, 0, 9, 0xB1] hbefore
    hpair
  obtain ⟨-, -, hmissing⟩ := hswitch [.plain 0x00 []] widestTable [] hbefore htable
  rw [hpairRoom] at hpasses
  rw [htableRoom] at hmissing
  exact ⟨hcode, (hwalk _ _).2 ⟨switchCode, hcode, rfl, rfl⟩, hpair, hpasses (by decide), htable,
    hmissing (by decide)⟩

end Instruction
end ClassFile
end ClasspathAudit
