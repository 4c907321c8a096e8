import ClasspathAudit.ClassFile.Instruction
import ClasspathAudit.Proofs.ClassFile.PoolFormat

/-
# The written form of instructions

An instruction is an opcode with its operands. The operands of most opcodes take a fixed number of
bytes and name nothing; the opcodes of the virtual machine are listed with that number. The others
are described one by one. The padding of a switch depends on where in the code it stands, so an
instruction is well-formed at a position.
-/
namespace ClasspathAudit
namespace ClassFile

open Decoder

/-! ### Opcodes -/

namespace Instruction

/-- Runs of opcodes whose operands take the same number of bytes and name nothing: first and last
opcode and that number. -/
def plainRuns : List (Nat × Nat × Nat) :=
  [ (0x00, 0x0F, 0), -- constants
    (0x10, 0x10, 1), (0x11, 0x11, 2), -- small constants in the code
    (0x15, 0x19, 1), (0x1A, 0x35, 0), -- loads from local variables and arrays
    (0x36, 0x3A, 1), (0x3B, 0x56, 0), -- stores to local variables and arrays
    (0x57, 0x83, 0), -- the stack and arithmetic
    (0x84, 0x84, 2), -- increments of local variables
    (0x85, 0x98, 0), -- conversions and comparisons
    (0x99, 0xA8, 2), (0xA9, 0xA9, 1), -- branches and the return from a subroutine
    (0xAC, 0xB1, 0), -- returns
    (0xBC, 0xBC, 1), -- arrays of primitive types
    (0xBE, 0xBF, 0), -- array lengths and exceptions
    (0xC2, 0xC3, 0), -- monitors
    (0xC6, 0xC7, 2), (0xC8, 0xC9, 4), -- branches on null and wide branches
    (0xCA, 0xCA, 0), (0xFE, 0xFF, 0) ] -- opcodes kept for debuggers

/-- The number of bytes of the operands of an opcode, if it is the same each time and they name
nothing. -/
def plainWidth? (opcode : Nat) : Option Nat :=
  (plainRuns.find? fun run => run.1 ≤ opcode && opcode ≤ run.2.1).map (·.2.2)

/-- The opcodes that load a constant by an index of two bytes. -/
def wideLoadOpcodes : List UInt8 := [0x13, 0x14]

/-- The opcodes that use a field or call a method, but for calls through interfaces. -/
def memberOpcodes : List UInt8 := [0xB2, 0xB3, 0xB4, 0xB5, 0xB6, 0xB7, 0xB8]

/-- The opcodes that create an object or an array of objects, cast or test a type. -/
def classOpcodes : List UInt8 := [0xBB, 0xBD, 0xC0, 0xC1]

/-- The opcodes that may be widened, but for increments. -/
def localOpcodes : List UInt8 :=
  [0x15, 0x16, 0x17, 0x18, 0x19, 0x36, 0x37, 0x38, 0x39, 0x3A, 0xA9]

end Instruction

/-! ### Instructions -/

/-- An instruction, as the code of a method holds it. -/
inductive Instruction
  /-- An opcode with operands of a fixed size that name nothing. -/
  | plain (opcode : UInt8) (operands : Bytes)
  /-- The load of a constant by an index of one byte. -/
  | load (index : UInt8)
  /-- The load of a constant by an index of two bytes. -/
  | wideLoad (opcode : UInt8) (index : Index)
  /-- The use of a field or the call of a method. -/
  | member (opcode : UInt8) (index : Index)
  /-- The call of a method through an interface. -/
  | interfaceCall (index : Index) (count reserved : UInt8)
  /-- The call at a call site that is made at run time. -/
  | dynamicCall (index : Index) (reserved : UInt16)
  /-- The use of a class. -/
  | classOperand (opcode : UInt8) (index : Index)
  /-- The creation of an array of several dimensions. -/
  | arrayCreation (index : Index) (dimensions : UInt8)
  /-- A jump by a table, with one target for each number from `low` to `high`. -/
  | tableSwitch (padding : Bytes) (otherwise : UInt32) (low high : Int32) (targets : List UInt32)
  /-- A jump by pairs of numbers and targets. -/
  | lookupSwitch (padding : Bytes) (otherwise : UInt32) (pairs : List (UInt32 × UInt32))
  /-- The use of a local variable by an index of two bytes. -/
  | wideLocal (opcode : UInt8) (index : UInt16)
  /-- The increment of a local variable by an index and a number of two bytes. -/
  | wideIncrement (index increment : UInt16)

namespace Instruction

/-- The opcode of an instruction. -/
def opcode : Instruction → UInt8
  | plain opcode _ | wideLoad opcode _ | member opcode _ | classOperand opcode _ => opcode
  | load .. => 0x12
  | interfaceCall .. => 0xB9
  | dynamicCall .. => 0xBA
  | arrayCreation .. => 0xC5
  | tableSwitch .. => 0xAA
  | lookupSwitch .. => 0xAB
  | wideLocal .. | wideIncrement .. => 0xC4

/-- A pair of a switch in bytes. -/
def encodePair (pair : UInt32 × UInt32) : Bytes :=
  fourBytes pair.1.toNat ++ fourBytes pair.2.toNat

/-- The bytes of an instruction behind its opcode. -/
def operands : Instruction → Bytes
  | plain _ operands => operands
  | load index => [index]
  | wideLoad _ index | member _ index | classOperand _ index => twoBytes index.toNat
  | interfaceCall index count reserved => twoBytes index.toNat ++ [count, reserved]
  | dynamicCall index reserved => twoBytes index.toNat ++ twoBytes reserved.toNat
  | arrayCreation index dimensions => twoBytes index.toNat ++ [dimensions]
  | tableSwitch padding otherwise low high targets =>
    padding ++ (fourBytes otherwise.toNat ++ (fourBytes low.toUInt32.toNat ++
      (fourBytes high.toUInt32.toNat ++ targets.flatMap fun target => fourBytes target.toNat)))
  | lookupSwitch padding otherwise pairs =>
    padding ++ (fourBytes otherwise.toNat ++ (fourBytes pairs.length ++ pairs.flatMap encodePair))
  | wideLocal opcode index => opcode :: twoBytes index.toNat
  | wideIncrement index increment =>
    0x84 :: (twoBytes index.toNat ++ twoBytes increment.toNat)

/-- The written form of an instruction. -/
def encode (i : Instruction) : Bytes :=
  i.opcode :: i.operands

/-! ### Constants that are loaded -/

/-- Whether there is a constant at an index, and all that loading it leads to. -/
def Loadable (pool : ConstantPool) (i : Nat) : Prop :=
  match pool.slots[i]? with
  | none | some .unusable => False
  | some (.classInfo name) => (pool.text? name).isSome
  | some (.methodType descriptor) => (pool.text? descriptor).isSome
  | some (.methodHandle reference) => (pool.member? reference).isSome
  | some (.dynamic type) => (pool.descriptor? type).isSome
  | some _ => True

/-- The types that the use of a field or method mentions. -/
def usesOfMember (member : Option (String × String)) : List TypeUse :=
  match member with
  | some (owner, descriptor) =>
    [.internalName .memberOwner owner, .signature .memberType descriptor]
  | none => []

/-- The types that loading a constant mentions. -/
def usesOfLoad (pool : ConstantPool) (i : Nat) : List TypeUse :=
  match pool.slots[i]? with
  | some (.classInfo name) => (pool.text? name).toList.map (.internalName .constantLoad)
  | some (.methodType descriptor) => (pool.text? descriptor).toList.map (.signature .constantLoad)
  | some (.methodHandle reference) => usesOfMember (pool.member? reference)
  | some (.dynamic type) => (pool.descriptor? type).toList.map (.signature .constantLoad)
  | _ => []

/-! ### Well-formed instructions -/

/-- The number of bytes between an opcode at a position and a multiple of four. -/
def paddingAt (position : Nat) : Nat :=
  (4 - (position + 1) % 4) % 4

/-- Whether an instruction may stand at a position of the code: its opcode is one of those described
so, its indices lead where they have to, and a switch has its padding and one target for each
number. -/
def WellFormedAt (pool : ConstantPool) (position : Nat) : Instruction → Prop
  | plain opcode operands => plainWidth? opcode.toNat = some operands.length
  | load index => Loadable pool index.toNat
  | wideLoad opcode index => opcode ∈ wideLoadOpcodes ∧ Loadable pool index.toNat
  | member opcode index => opcode ∈ memberOpcodes ∧ (pool.member? index.toNat).isSome
  | interfaceCall index _ _ => (pool.member? index.toNat).isSome
  | dynamicCall index _ => (pool.dynamic? index.toNat).isSome
  | classOperand opcode index => opcode ∈ classOpcodes ∧ pool.HasClass index
  | arrayCreation index _ => pool.HasClass index
  | tableSwitch padding _ low high targets =>
    padding.length = paddingAt position ∧ low.toInt ≤ high.toInt ∧
      (targets.length : Int) = high.toInt - low.toInt + 1
  | lookupSwitch padding _ pairs => padding.length = paddingAt position ∧ pairs.length < 2 ^ 31
  | wideLocal opcode _ => opcode ∈ localOpcodes
  | wideIncrement .. => True

/-- The types that an instruction mentions. -/
def uses (pool : ConstantPool) : Instruction → List TypeUse
  | load index => usesOfLoad pool index.toNat
  | wideLoad _ index => usesOfLoad pool index.toNat
  | member _ index | interfaceCall index _ _ => usesOfMember (pool.member? index.toNat)
  | dynamicCall index _ => (pool.dynamic? index.toNat).toList.map (.signature .callSite)
  | classOperand _ index => pool.nameUse .instructionOperand index
  | arrayCreation index _ => pool.nameUse .arrayCreation index
  | plain .. | tableSwitch .. | lookupSwitch .. | wideLocal .. | wideIncrement .. => []

/-- Whether instructions may follow each other from a position of the code on. -/
def WellFormedFrom (pool : ConstantPool) : Nat → List Instruction → Prop
  | _, [] => True
  | position, i :: rest =>
    i.WellFormedAt pool position ∧ WellFormedFrom pool (position + i.encode.length) rest

/-! ### Reading instructions -/

variable {pool : ConstantPool} {position : Nat}

lemma form?_of_plainWidth? : ∀ opcode < 256, ∀ width ∈ plainWidth? opcode,
    form? opcode = some (.plain width) := by
  decide +kernel

lemma readsAt_decode {i : Instruction} {form : Form} (hform : form? i.opcode.toNat = some form)
    (h : ∀ start, ReadsAt (position + 1) (decodeOperands pool start form) i.operands
      (i.uses pool)) :
    ReadsAt position (Instruction.decode pool) i.encode (i.uses pool) := by
  refine ReadsAt.offset fun start => (reads_u1 i.opcode position).bind ?_
  rw [hform]
  exact h start

lemma constantLoad_eq_ok {i o : Nat} (h : Loadable pool i) :
    constantLoad pool i o = .ok (usesOfLoad pool i) := by
  rw [Loadable] at h
  split at h
  · exact h.elim
  · exact h.elim
  · rename_i name hslot
    obtain ⟨text, htext⟩ := Option.isSome_iff_exists.1 h
    rw [constantLoad, ConstantPool.get_eq_ok hslot (by simp)]
    simp only [bind, Except.bind, ConstantPool.utf8_eq_ok htext, usesOfLoad, hslot, htext]
    rfl
  · rename_i descriptor hslot
    obtain ⟨text, htext⟩ := Option.isSome_iff_exists.1 h
    rw [constantLoad, ConstantPool.get_eq_ok hslot (by simp)]
    simp only [bind, Except.bind, ConstantPool.utf8_eq_ok htext, usesOfLoad, hslot, htext]
    rfl
  · rename_i reference hslot
    obtain ⟨⟨owner, descriptor⟩, hmember⟩ := Option.isSome_iff_exists.1 h
    rw [constantLoad, ConstantPool.get_eq_ok hslot (by simp)]
    simp only [bind, Except.bind, ConstantPool.memberRef_eq_ok hmember, usesOfLoad, hslot, hmember]
    rfl
  · rename_i type hslot
    obtain ⟨descriptor, htype⟩ := Option.isSome_iff_exists.1 h
    have hdynamic : pool.dynamic? i = some descriptor := by
      rw [ConstantPool.dynamic?, hslot]
      exact htype
    rw [constantLoad, ConstantPool.get_eq_ok hslot (by simp)]
    simp only [bind, Except.bind, ConstantPool.dynamicDescriptor_eq_ok hdynamic, usesOfLoad, hslot,
      htype]
    rfl
  · rename_i constant hunusable hclass htype hhandle hdynamic hslot
    rw [constantLoad, ConstantPool.get_eq_ok hslot (by simpa using hunusable), usesOfLoad, hslot]
    cases constant <;> simp_all <;> rfl

lemma reads_memberRef {index : Index} (h : (pool.member? index.toNat).isSome) :
    ∃ owner descriptor,
      Reads (ConstantPool.readIndex pool.memberRef) (twoBytes index.toNat) (owner, descriptor) ∧
      usesOfMember (pool.member? index.toNat) =
        [.internalName .memberOwner owner, .signature .memberType descriptor] := by
  obtain ⟨⟨owner, descriptor⟩, hmember⟩ := Option.isSome_iff_exists.1 h
  refine ⟨owner, descriptor, ?_, by rw [hmember]; rfl⟩
  exact ConstantPool.reads_readIndex fun o => ConstantPool.memberRef_eq_ok hmember

/-- The jump of a switch passes over its padding, up to a position that is a multiple of four. -/
lemma readsAt_skipPadding {padding : Bytes} (h : padding.length = paddingAt position) :
    ReadsAt (position + 1) skipPadding padding () :=
  ReadsAt.position (reads_skip h (position + 1))

lemma readsAt_encode {i : Instruction} (h : i.WellFormedAt pool position) :
    ReadsAt position (Instruction.decode pool) i.encode (i.uses pool) := by
  cases i with
  | plain opcode operands =>
    have hform := form?_of_plainWidth? opcode.toNat opcode.toNat_lt _ h
    exact readsAt_decode hform fun _ => reads_skipReturn rfl _ _
  | load index =>
    refine readsAt_decode rfl fun _ => ReadsAt.offset fun o => ?_
    exact (reads_u1 index).bindNil (reads_liftM (constantLoad_eq_ok h)) _
  | wideLoad opcode index =>
    obtain ⟨hopcode, hload⟩ := h
    have hform : form? opcode.toNat = some (.loadConstant 2) := by
      simp only [wideLoadOpcodes, List.mem_cons, List.not_mem_nil, or_false] at hopcode
      rcases hopcode with rfl | rfl <;> rfl
    refine readsAt_decode hform fun _ => ReadsAt.offset fun o => ?_
    exact (reads_u2 index.toNat_lt).bindNil (reads_liftM (constantLoad_eq_ok hload)) _
  | member opcode index =>
    obtain ⟨hopcode, hmember⟩ := h
    obtain ⟨owner, descriptor, hread, huses⟩ := reads_memberRef hmember
    have hform : form? opcode.toNat = some (.member 0) := by
      simp only [memberOpcodes, List.mem_cons, List.not_mem_nil, or_false] at hopcode
      rcases hopcode with rfl | rfl | rfl | rfl | rfl | rfl | rfl <;> rfl
    refine readsAt_decode hform fun _ => ?_
    rw [uses, huses]
    exact hread.bindNil (reads_skipReturn (by rfl) _) _
  | interfaceCall index count reserved =>
    obtain ⟨owner, descriptor, hread, huses⟩ := reads_memberRef h
    refine readsAt_decode rfl fun _ => ?_
    rw [uses, huses]
    exact hread.bind (reads_skipReturn (by rfl) _) _
  | dynamicCall index reserved =>
    obtain ⟨descriptor, hdynamic⟩ := Option.isSome_iff_exists.1 h
    have hread : Reads (ConstantPool.readIndex pool.dynamicDescriptor) (twoBytes index.toNat)
        descriptor :=
      ConstantPool.reads_readIndex fun o => ConstantPool.dynamicDescriptor_eq_ok hdynamic
    refine readsAt_decode rfl fun _ => ?_
    rw [uses, hdynamic]
    exact hread.bind (reads_skipReturn (length_twoBytes _) _) _
  | classOperand opcode index =>
    obtain ⟨hopcode, hclass⟩ := h
    obtain ⟨name, -, hread, huse⟩ := hclass.reads
    have hform : form? opcode.toNat = some .classOperand := by
      simp only [classOpcodes, List.mem_cons, List.not_mem_nil, or_false] at hopcode
      rcases hopcode with rfl | rfl | rfl | rfl <;> rfl
    refine readsAt_decode hform fun _ => ?_
    rw [uses, huse]
    exact hread.map (f := fun _ => [_]) _
  | arrayCreation index dimensions =>
    obtain ⟨name, -, hread, huse⟩ := ConstantPool.HasClass.reads h
    refine readsAt_decode rfl fun _ => ?_
    rw [uses, huse]
    exact hread.bind (reads_skipReturn (by rfl) _) _
  | tableSwitch padding otherwise low high targets =>
    obtain ⟨hpadding, hle, hcount⟩ := h
    refine readsAt_decode rfl fun _ => (readsAt_skipPadding hpadding).bind ?_
    -- the number of targets is not written, it follows from the least and the greatest key
    have htargets : (targets.flatMap fun target => fourBytes target.toNat).length =
        (high.toInt - low.toInt + 1).toNat * 4 := by
      rw [length_flatMap_of_forall 4 (by simp), ← hcount, Int.toNat_natCast]
    refine (reads_skip (length_fourBytes _)).bind ((reads_i4 low).bind ((reads_i4 high).bind ?_)) _
    rw [if_neg (by omega)]
    exact reads_skipReturn htargets _
  | lookupSwitch padding otherwise pairs =>
    obtain ⟨hpadding, hlt⟩ := h
    refine readsAt_decode rfl fun _ => (readsAt_skipPadding hpadding).bind ?_
    -- the number of pairs is read as a signed one
    have hcount := (reads_u4 (n := pairs.length) (by omega)).map (f := signed32)
    have hsigned : signed32 pairs.length = pairs.length := by
      rw [signed32, if_pos (by omega)]
    rw [hsigned] at hcount
    have hpairs : (pairs.flatMap encodePair).length = (pairs.length : Int).toNat * 8 := by
      rw [length_flatMap_of_forall 8 (by simp [encodePair]), Int.toNat_natCast]
    refine (reads_skip (length_fourBytes _)).bind (Reads.bind hcount ?_) _
    rw [if_neg (by omega)]
    exact reads_skipReturn hpairs _
  | wideLocal opcode index =>
    have hlocal : opcode.toNat ≠ 0x84 ∧ usesLocal opcode.toNat = true := by
      simp only [WellFormedAt, localOpcodes, List.mem_cons, List.not_mem_nil, or_false] at h
      rcases h with rfl | rfl | rfl | rfl | rfl | rfl | rfl | rfl | rfl | rfl | rfl <;> decide
    refine readsAt_decode rfl fun _ => (reads_u1 opcode).bind ?_ _
    rw [if_neg hlocal.1, if_pos hlocal.2]
    exact reads_skipReturn (length_twoBytes _) _
  | wideIncrement index increment =>
    refine readsAt_decode rfl fun _ => (reads_u1 0x84).bind ?_ _
    exact reads_skipReturn (by simp) _

/-! ### Reading code -/

lemma decodeAll_succ {w : Window} (n : Nat) (h : w.rest.isEmpty = false) :
    decodeAll pool (n + 1) w =
      (do
        let found ← Instruction.decode pool
        let more ← decodeAll pool n
        return found ++ more) w := by
  have hget : (get : Decoder Window) w = .ok (w, w) := rfl
  rw [decodeAll, bind_eq_of_ok hget, h]
  rfl

/-- The budget counts bytes, of which every instruction has at least one. -/
lemma decodeAll_encode (base : Nat) : ∀ (code : List Instruction) (position budget : Nat),
    WellFormedFrom pool position code → (code.flatMap encode).length ≤ budget →
    ∃ w, decodeAll pool budget ⟨code.flatMap encode, position, base⟩ =
      .ok (code.flatMap (uses pool), w) := by
  intro code
  induction code with
  | nil =>
    intro position budget _ _
    cases budget <;> exact ⟨_, rfl⟩
  | cons i rest ih =>
    intro position budget h hle
    obtain ⟨hi, hrest⟩ := h
    have hlength : ((i :: rest).flatMap encode).length =
        i.encode.length + (rest.flatMap encode).length := by
      simp
    -- the opcode alone takes a byte, so the budget lasts for what follows
    have hpos : 0 < i.encode.length := by simp [encode]
    cases budget with
    | zero => omega
    | succ n =>
      obtain ⟨w, hw⟩ := ih (position + i.encode.length) n hrest (by omega)
      have hdecode := readsAt_encode hi (rest.flatMap encode) base
      refine ⟨w, ?_⟩
      rw [decodeAll_succ n (by simp [encode]), List.flatMap_cons, bind_eq_of_ok hdecode,
        bind_eq_of_ok hw]
      rfl

lemma finds_sequence {code : List Instruction} (h : WellFormedFrom pool 0 code) :
    Finds (sequence pool) (code.flatMap encode) (code.flatMap (uses pool)) :=
  fun base => decodeAll_encode base code 0 _ h (Nat.le_refl _)

end Instruction
end ClassFile
end ClasspathAudit
