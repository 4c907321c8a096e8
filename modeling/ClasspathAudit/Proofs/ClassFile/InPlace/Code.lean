import ClasspathAudit.ClassFile.InPlace.Instruction
import ClasspathAudit.Proofs.ClassFile.InPlace.Pool
import ClasspathAudit.Proofs.ClassFile.InstructionWalk

/-
# Instructions are followed

The number of targets of a switch fits a signed word and their room a word, whatever the bounds of
the switch. The walk through code ends because each instruction has an opcode.
-/
namespace ClasspathAudit
namespace ClassFile
namespace InPlace
open Decoder (Gives)
open Instruction (Form form? usesLocal saturatingMul)

variable {α : Type} {file : Bytes} {r : Reader} {pool : ConstantPool}

/-! ### Switches -/

lemma follows_skipPadding (hr : r.In file) :
    Follows file r id skipPadding Instruction.skipPadding := by
  have hmod : (r.position % 4).toNat = r.position.toNat % 4 := UInt64.toNat_mod _ _
  have hle : (r.position % 4).toNat ≤ (4 : UInt64).toNat := by
    rw [hmod]
    exact Nat.le_of_lt (Nat.mod_lt _ (by decide))
  have hpadding : ((4 - r.position % 4) % 4).toNat = (4 - r.position.toNat % 4) % 4 := by
    rw [UInt64.toNat_mod, toNat_sub hle, hmod]
    rfl
  refine (follows_skip hr hpadding).congr ?_ rfl
  rw [skipPadding, bind_of_ok (show position r = .ok (r.position, r) from rfl), sub_eq hle,
    pure_bind]

section Table

variable {low high : Int32}

lemma toInt_span : (high.toInt64 - low.toInt64).toInt = high.toInt - low.toInt := by
  have hlow := low.le_toInt
  have hlow' := low.toInt_lt
  have hhigh := high.le_toInt
  have hhigh' := high.toInt_lt
  rw [Int64.toInt_sub, Int32.toInt_toInt64, Int32.toInt_toInt64,
    Int.bmod_eq_of_le (by omega) (by omega)]

/-- The bounds of a table are signed numbers of four bytes, so their difference fits eight. -/
lemma subSigned_eq : subSigned high.toInt64 low.toInt64 = pure (high.toInt64 - low.toInt64) := by
  have hlow := low.le_toInt
  have hlow' := low.toInt_lt
  have hhigh := high.le_toInt
  have hhigh' := high.toInt_lt
  refine if_pos ?_
  rw [Int64.toInt_minValue, Int64.toInt_maxValue, Int32.toInt_toInt64, Int32.toInt_toInt64]
  omega

lemma addSigned_eq :
    addSigned (high.toInt64 - low.toInt64) 1 = pure (high.toInt64 - low.toInt64 + 1) := by
  have hlow := low.le_toInt
  have hlow' := low.toInt_lt
  have hhigh := high.le_toInt
  have hhigh' := high.toInt_lt
  have hone : (1 : Int64).toInt = 1 := rfl
  refine if_pos ?_
  rw [Int64.toInt_minValue, Int64.toInt_maxValue, toInt_span, hone]
  omega

lemma toNat_targets (h : low ≤ high) :
    (saturatingMul (high.toInt64 - low.toInt64 + 1).toUInt64 4).toNat =
      (high.toInt - low.toInt + 1).toNat * 4 := by
  have hlow := low.le_toInt
  have hhigh := high.toInt_lt
  have hle := Int32.le_iff_toInt_le.1 h
  have hcount := @Instruction.SwitchHead.toInt_count low high
  have hword : (high.toInt64 - low.toInt64 + 1).toUInt64.toNat =
      (high.toInt - low.toInt + 1).toNat := by
    rw [Instruction.toNat_toUInt64 (by omega), hcount]
  have hfour : (4 : UInt64).toNat = 4 := rfl
  rw [Instruction.toNat_saturatingMul (by rw [hword, hfour]; omega), hword, hfour]

end Table

lemma toNat_pairs {pairs : Int32} (h : 0 ≤ pairs) :
    (saturatingMul pairs.toInt64.toUInt64 8).toNat = pairs.toInt.toNat * 8 := by
  have hlt := pairs.toInt_lt
  have hword : pairs.toInt64.toUInt64.toNat = pairs.toInt.toNat := by
    rw [Instruction.toNat_toUInt64] <;> rw [Int32.toInt_toInt64]
    exact Int32.le_iff_toInt_le.1 h
  have height : (8 : UInt64).toNat = 8 := rfl
  rw [Instruction.toNat_saturatingMul (by rw [hword, height]; omega), hword, height]

/-! ### Operands -/

/-- The number of bytes that are passed over behind what is read of the operands. -/
def passedOver : Form → Nat
  | .plain width => width
  | .member trailing => trailing
  | _ => 0

lemma passedOver_le : ∀ opcode < 256, ∀ form ∈ form? opcode, passedOver form ≤ 4 := by
  decide +kernel

lemma follows_skipPassedOver {opcode : UInt8} {form : Form} (hform : form? opcode.toNat = some form)
    (hr : r.In file) :
    Follows file r id (skip (.ofNat (passedOver form))) (Decoder.skip (passedOver form)) := by
  have hle := passedOver_le opcode.toNat opcode.toNat_lt form hform
  exact follows_skip hr (UInt64.toNat_ofNat'.trans (Nat.mod_eq_of_lt (by omega)))

lemma follows_skipReturn (hr : r.In file) {count : UInt64} {n : Nat} (hn : count.toNat = n)
    (a : α) : Follows file r id (do skip count; return a) (do Decoder.skip n; return a) :=
  (follows_skip hr hn).map fun _ => rfl

lemma follows_tableSwitch (hr : r.In file) (start : UInt64) (n : Nat) :
    Follows file r id (operands pool start .tableSwitch)
      (Instruction.decodeOperands pool n .tableSwitch) := by
  refine (follows_skipPadding hr).bind fun _ hr _ => ?_
  refine (follows_skip hr rfl).bind fun _ hr _ => ?_
  refine (follows_i4 hr).bind fun {low _} _ hr _ => ?_
  refine (follows_i4 hr).bind fun {high _} _ hr _ => ?_
  simp only [Int32.lt_iff_toInt_lt]
  split_ifs with hlt
  · exact follows_fail hr rfl
  · have hle : low ≤ high := Int32.le_iff_toInt_le.2 (Int.not_lt.1 hlt)
    rw [subSigned_eq, pure_bind, addSigned_eq, pure_bind]
    exact follows_skipReturn hr (toNat_targets hle) []

lemma follows_lookupSwitch (hr : r.In file) (start : UInt64) (n : Nat) :
    Follows file r id (operands pool start .lookupSwitch)
      (Instruction.decodeOperands pool n .lookupSwitch) := by
  refine (follows_skipPadding hr).bind fun _ hr _ => ?_
  refine (follows_skip hr rfl).bind fun _ hr _ => ?_
  refine (follows_i4 hr).bind fun {pairs _} _ hr _ => ?_
  have hiff : pairs < 0 ↔ pairs.toInt < 0 := Int32.lt_iff_toInt_lt
  simp only [hiff]
  split_ifs with hlt
  · exact follows_fail hr rfl
  · have hle : 0 ≤ pairs := Int32.le_iff_toInt_le.2 (Int.not_lt.1 hlt)
    exact follows_skipReturn hr (toNat_pairs hle) []

lemma follows_wide (hr : r.In file) {start : UInt64} {n : Nat} (hstart : start.toNat = n)
    (hopcode : n + 1 = r.rest.offset) :
    Follows file r id (operands pool start .wide) (Instruction.decodeOperands pool n .wide) := by
  have hoffset := hr.offset_le
  have hfits := hr.fits
  refine (follows_u1 hr).bind fun {opcode _} _ hr _ => ?_
  have hiff : opcode = 0x84 ↔ opcode.toNat = 0x84 := UInt8.toNat_inj.symm
  simp only [hiff]
  split_ifs
  · exact follows_skipReturn hr rfl []
  · exact follows_skipReturn hr rfl []
  · have hsum : start.toNat + (1 : UInt64).toNat = n + 1 := by rw [hstart]; rfl
    rw [add_eq (by omega), pure_bind]
    exact follows_failAt (by rw [toNat_add (by omega), hsum]) (by omega) rfl

lemma follows_narrowIndex (hr : r.In file) :
    Follows file r UInt16.toNat (do let b ← u1; return b.toUInt16) Decoder.u1 := by
  rw [← bind_pure Decoder.u1]
  exact (follows_u1 hr).bind fun _ hr _ => follows_pure hr (UInt8.toNat_toUInt16 _)

lemma follows_operands {opcode : UInt8} {form : Form} (hform : form? opcode.toNat = some form)
    (hr : r.In file) {start : UInt64} {n : Nat} (hstart : start.toNat = n)
    (hopcode : n + 1 = r.rest.offset) :
    Follows file r id (operands pool start form) (Instruction.decodeOperands pool n form) := by
  cases form with
  | plain width => exact (follows_skipPassedOver hform hr).map fun _ => rfl
  | loadConstant width =>
    refine follows_offsetThen hr fun o ho => ?_
    have hload : ∀ {index : UInt16} {r' : Reader}, r'.In file → Follows file r' id
        (lift (Instruction.constantLoad pool index.toNat o.toNat))
        (liftM (Instruction.constantLoad pool index.toNat r.rest.offset)) := fun hr' => by
      rw [ho]
      exact follows_lookUp (.constantLoad pool _) hr.offset_le hr'
    unfold loadIndex
    split_ifs
    · exact (follows_narrowIndex hr).bind fun _ hr' _ => hload hr'
    · exact (follows_u2 hr).bind fun _ hr' _ => hload hr'
  | member trailing =>
    refine (follows_readIndex (fun i _ => .memberRef pool i) hr).bind fun _ hr _ => ?_
    exact (follows_skipPassedOver hform hr).map fun _ => rfl
  | callSite =>
    refine (follows_readIndex (fun i _ => .dynamicDescriptor pool i) hr).bind fun _ hr _ => ?_
    exact follows_skipReturn hr rfl _
  | classOperand => exact (follows_readClassName pool hr).map fun _ => rfl
  | arrayCreation =>
    refine (follows_readClassName pool hr).bind fun _ hr _ => ?_
    exact follows_skipReturn hr rfl _
  | tableSwitch => exact follows_tableSwitch hr start n
  | lookupSwitch => exact follows_lookupSwitch hr start n
  | wide => exact follows_wide hr hstart hopcode

lemma follows_instruction (hr : r.In file) :
    Follows file r id (instruction pool) (Instruction.decode pool) := by
  refine follows_offsetThen hr fun start hstart => ?_
  refine (follows_u1 hr).bind fun {opcode r'} hopcode hr' _ => ?_
  cases hform : form? opcode.toNat with
  | some form => exact follows_operands hform hr' hstart (offset_of_u1 hopcode)
  | none => exact follows_failAt hstart hr.offset_le rfl

/-! ### The walk -/

lemma decodeAll_of_isEmpty {w : Window} (h : w.rest.isEmpty = true) (budget : Nat) :
    Instruction.decodeAll pool budget w = .ok ([], w) := by
  cases budget with
  | zero => rfl
  | succ budget =>
    have hget : (get : Decoder Window) w = .ok (w, w) := rfl
    rw [Instruction.decodeAll, Decoder.bind_eq_of_ok hget, h]
    rfl

/-- Each turn of the walk passes over an opcode, so it has ended when its budget is used up. -/
lemma follows_instructionsFrom : ∀ {budget budget' : Nat} {r : Reader}, r.In file →
    r.rest.rest.length < budget → r.rest.rest.length ≤ budget' →
      Follows file r id (instructionsFrom pool budget) (Instruction.decodeAll pool budget')
  | budget + 1, budget', r, hr, hbudget, hbudget' => by
    obtain ⟨left, hremaining, hleft⟩ := exists_remaining hr
    cases hempty : r.rest.rest.isEmpty with
    | true =>
      have hzero : left = 0 := by
        rw [← UInt64.toNat_inj, hleft, List.isEmpty_iff.1 hempty]
        rfl
      refine (follows_pure (f := id) hr rfl).congr ?_ (decodeAll_of_isEmpty hempty budget')
      rw [instructionsFrom, bind_of_ok hremaining, if_pos hzero]
    | false =>
      have hpos : 0 < r.rest.rest.length := by
        rw [List.length_pos_iff, ← List.isEmpty_eq_false_iff]
        exact hempty
      have hne : left ≠ 0 := by
        rintro rfl
        exact absurd hleft (Nat.ne_of_lt hpos)
      obtain ⟨k, rfl⟩ := Nat.exists_eq_succ_of_ne_zero (n := budget') (by omega)
      have hstep : Follows file r id
          (do let found ← instruction pool; let more ← instructionsFrom pool budget;
              return found ++ more)
          (do let found ← Instruction.decode pool; let more ← Instruction.decodeAll pool k;
              return found ++ more) := by
        refine (follows_instruction hr).bind fun {found r'} hdecode hr' _ => ?_
        obtain ⟨i, -, hover, -⟩ := Instruction.exists_of_decode hdecode
        have hlength : r.rest.rest.length = i.encode.length + r'.rest.rest.length := by
          rw [hover.rest, List.length_append]
        have hopcode : 0 < i.encode.length := by simp [Instruction.encode]
        have hbudget : r'.rest.rest.length < budget := by omega
        have hk : r'.rest.rest.length ≤ k := by omega
        exact (follows_instructionsFrom hr' hbudget hk).map fun _ => rfl
      refine hstep.congr ?_ (Instruction.decodeAll_succ k hempty)
      rw [instructionsFrom, bind_of_ok hremaining, if_neg hne]

lemma follows_sequence (hr : r.In file) :
    Follows file r id (sequence pool) (Instruction.sequence pool) := by
  have hless := Nat.lt_succ_of_le r.length_rest_le
  exact .withBudget ((follows_instructionsFrom hr hless (Nat.le_refl _)).congr rfl rfl)

end InPlace
end ClassFile
end ClasspathAudit
